import KernelLane.ByteImage
import KernelLane.KernSched

namespace KernelLane.Block

open Kern Nat

/-!
# Block requests and their two backends

A block request of a session is served by the virtio disk, if the kernel found
one, and by a disk in memory otherwise.  The virtio driver moves one sector at
a time and takes at most eight in a request; the disk in memory takes all that
the common checks let through.
-/

def blkSect : Nat := 512

/-- One call of `devblk_rw`. -/
structure Request where
  /-- The capabilities of the calling session. -/
  capmask : UInt64
  write : Bool
  lba : UInt64
  buf : Image
  count : UInt32

def Request.endLba (request : Request) : Nat := request.lba.toNat + request.count.toNat

/-- The sector numbers of the request do not fit in a word. -/
def Request.Overflows (request : Request) : Prop := 2 ^ 64 ≤ request.endLba

instance (request : Request) : Decidable request.Overflows := decLe ..

/-- A virtio disk that completes every request for one of its sectors. -/
structure VirtioBlk where
  data : Image
  /-- The capacity that the device reports. -/
  sectors : UInt64

namespace VirtioBlk

/-- The device serves one descriptor chain: the sector it holds after it, and
the bytes in the data buffer; none for a sector that it does not have. -/
def request (device : VirtioBlk) (write : Bool) (sector : UInt64)
    (sectorData : Bytes) : Option (Bytes × VirtioBlk) :=
  let address := sector.toNat * blkSect
  if device.sectors ≤ sector then none
  else if write then some (sectorData, { device with data := device.data.splice address sectorData })
  else some (device.data.readBytes address blkSect, device)

/-- The sector loop of the driver, for so many sectors from this one on. -/
def rwSectors (write : Bool) (lba : UInt64) :
    Nat → Nat → Image → VirtioBlk → Int × Image × VirtioBlk
  | 0, _, buf, device => (0, buf, device)
  | remaining + 1, s, buf, device =>
    match device.request write (lba + UInt64.ofNat s) (buf.readBytes (s * blkSect) blkSect) with
    | none => (-1, buf, device)
    | some (sectorData, next) =>
      rwSectors write lba remaining (s + 1)
        (if write then buf else buf.splice (s * blkSect) sectorData) next

def rw (device : VirtioBlk) (request : Request) : Int × Image × VirtioBlk :=
  if request.count = 0 ∨ 8 < request.count ∨ request.Overflows ∨
      device.sectors ≠ 0 ∧ device.sectors.toNat < request.endLba then
    (-1, request.buf, device)
  else rwSectors request.write request.lba request.count.toNat 0 request.buf device

end VirtioBlk

/-- The block layer. -/
structure Devblk where
  /-- The disk in memory, once it is there. -/
  disk : Option Image
  nblocks : UInt64
  /-- The virtio disk that the kernel found. -/
  virtio : Option VirtioBlk

open Devblk

namespace Devblk

/-- The backend's part of a request: the virtio disk if there is one, else the
disk in memory. -/
def backendRw (dev : Devblk) (request : Request) : Int × Image × Devblk :=
  match dev.virtio with
  | some device =>
    let (status, buf, device) := device.rw request
    (status, buf, { dev with virtio := some device })
  | none =>
    match dev.disk with
    | none => (-1, request.buf, dev)
    | some disk =>
      let address := request.lba.toNat * blkSect
      let length := request.count.toNat * blkSect
      if dev.nblocks.toNat < request.endLba then (-1, request.buf, dev)
      else if request.write then
        (0, request.buf,
          { dev with disk := some (disk.splice address (request.buf.readBytes 0 length)) })
      else (0, request.buf.splice 0 (disk.readBytes address length), dev)

def rw (dev : Devblk) (request : Request) : Int × Image × Devblk :=
  if request.capmask &&& capFsadm = 0 then (-1, request.buf, dev)
  else if request.count = 0 ∨ 128 < request.count then (-1, request.buf, dev)
  else if request.Overflows then (-1, request.buf, dev)
  else dev.backendRw request

/-- Serve requests one after the other: their statuses and buffers, and the state. -/
def serve (dev : Devblk) : List Request → List (Int × Image) × Devblk
  | [] => ([], dev)
  | request :: rest =>
    let (status, buf, next) := dev.rw request
    let (answers, last) := next.serve rest
    ((status, buf) :: answers, last)

def visible (dev : Devblk) : Option Image :=
  match dev.virtio with
  | some device => some device.data
  | none => dev.disk

def ramDisk (capacity : UInt64) (data : Image) : Devblk := ⟨some data, capacity, none⟩

def virtioDisk (capacity : UInt64) (data : Image) : Devblk := ⟨none, 0, some ⟨data, capacity⟩⟩

end Devblk

/-- The request passes the checks that are made for both disks. -/
def Request.Checked (request : Request) : Prop :=
  request.capmask &&& capFsadm ≠ 0 ∧ ¬ (request.count = 0 ∨ 128 < request.count) ∧
    ¬ request.Overflows

/-- The request is in range and for more sectors than the virtio driver takes. -/
def Request.Long (capacity : UInt64) (request : Request) : Prop :=
  request.Checked ∧ request.endLba ≤ capacity.toNat ∧ 8 < request.count

variable {capacity : UInt64} {data : Image} {request : Request}

theorem rw_of_checked (dev : Devblk) (checked : request.Checked) :
    dev.rw request = dev.backendRw request := by
  obtain ⟨may, counted, fits⟩ := checked
  rw [rw, if_neg may, if_neg counted, if_neg fits]

theorem rw_of_unchecked (dev : Devblk) (unchecked : ¬ request.Checked) :
    dev.rw request = (-1, request.buf, dev) := by
  unfold rw
  split
  · rfl
  next may =>
  split
  · rfl
  next counted =>
  split
  · rfl
  next fits => exact absurd ⟨may, counted, fits⟩ unchecked

/-- The sectors of a request that the device has, one by one, are one transfer. -/
theorem rwSectors_eq (data : Image) (write : Bool) {lba : UInt64} (remaining s : Nat) (buf : Image)
    (inside : lba.toNat + s + remaining ≤ capacity.toNat) :
    VirtioBlk.rwSectors write lba remaining s buf ⟨data, capacity⟩ =
      if write then
        (0, buf, ⟨data.splice ((lba.toNat + s) * blkSect)
          (buf.readBytes (s * blkSect) (remaining * blkSect)), capacity⟩)
      else
        (0, buf.splice (s * blkSect) (data.readBytes ((lba.toNat + s) * blkSect)
          (remaining * blkSect)), ⟨data, capacity⟩) := by
  induction remaining generalizing s buf data with
  | zero => cases write <;> simp [VirtioBlk.rwSectors, Image.readBytes, Image.splice_nil]
  | succ remaining hypothesis =>
    have word := capacity.toNat_lt
    have sector := Words.toNat_add_ofNat (show lba.toNat + s < 2 ^ 64 by omega)
    have has : ¬ capacity ≤ lba + UInt64.ofNat s := by
      rw [UInt64.le_iff_toNat_le, sector]
      omega
    have nextSector : (lba.toNat + (s + 1)) * blkSect = (lba.toNat + s) * blkSect + blkSect := by
      rw [← add_assoc, succ_mul]
    have joined (image : Image) (address : Nat) (source : Image) (start : Nat) :=
      image.splice_splice_adjacent address (source.readBytes start blkSect)
        (source.readBytes (start + blkSect) (remaining * blkSect))
    simp only [Image.length_readBytes, ← Image.readBytes_add] at joined
    unfold VirtioBlk.rwSectors VirtioBlk.request
    simp only [sector, if_neg has]
    rw [succ_mul, add_comm (remaining * blkSect)]
    cases write with
    | true =>
      simp only [if_true]
      rw [hypothesis _ _ _ (by omega), if_pos rfl, nextSector, succ_mul, joined]
    | false =>
      simp only [Bool.false_eq_true, if_false]
      rw [hypothesis _ _ _ (by omega), if_neg Bool.false_ne_true, nextSector, succ_mul, joined]

theorem rw_alike (data : Image) (short : ¬ request.Long capacity) : ∃ status buf after,
    (ramDisk capacity data).rw request = (status, buf, .ramDisk capacity after) ∧
      (virtioDisk capacity data).rw request = (status, buf, .virtioDisk capacity after) := by
  by_cases checked : request.Checked
  · have counted := not_or.mp checked.2.1
    rw [rw_of_checked _ checked, rw_of_checked _ checked]
    by_cases inside : request.endLba ≤ capacity.toNat
    · have few : ¬ 8 < request.count := fun long => short ⟨checked, inside, long⟩
      have passes : ¬ (request.count = 0 ∨ 8 < request.count ∨ request.Overflows ∨
          capacity ≠ 0 ∧ capacity.toNat < request.endLba) := by
        rintro (none | long | overflows | ⟨-, outside⟩)
        · exact counted.1 none
        · exact few long
        · exact checked.2.2 overflows
        · omega
      have moved := rwSectors_eq data request.write request.count.toNat 0 request.buf inside
      unfold backendRw VirtioBlk.rw ramDisk virtioDisk
      dsimp only
      rw [if_neg (by omega), if_neg passes, moved, add_zero, zero_mul]
      cases request.write with
      | true | false => exact ⟨_, _, _, rfl, rfl⟩
    · -- A device of capacity zero is asked all the same, and has no sector.
      refine ⟨-1, request.buf, data, if_pos (Nat.lt_of_not_le inside), ?_⟩
      obtain ⟨remaining, count⟩ : ∃ remaining, request.count.toNat = remaining + 1 :=
        exists_eq_succ_of_ne_zero fun none => counted.1 (UInt32.toNat_inj.mp none)
      have unserved (zero : capacity = 0) : VirtioBlk.rwSectors request.write request.lba
          request.count.toNat 0 request.buf ⟨data, capacity⟩ =
          (-1, request.buf, ⟨data, capacity⟩) := by
        rw [count, VirtioBlk.rwSectors, VirtioBlk.request, zero]
        simp only [UInt64.zero_le, if_true]
      unfold backendRw VirtioBlk.rw virtioDisk
      dsimp only
      split
      · rfl
      next passes =>
        have zero : capacity = 0 := by
          by_contra positive
          exact passes (.inr (.inr (.inr ⟨positive, Nat.lt_of_not_le inside⟩)))
        rw [unserved zero]
  · exact ⟨-1, request.buf, data, rw_of_unchecked _ checked, rw_of_unchecked _ checked⟩

theorem rw_of_long (data other : Image) (long : request.Long capacity) :
    ((ramDisk capacity data).rw request).1 = 0 ∧
      ((virtioDisk capacity other).rw request).1 = -1 := by
  obtain ⟨checked, inside, many⟩ := long
  rw [rw_of_checked _ checked, rw_of_checked _ checked]
  constructor
  · unfold backendRw ramDisk
    dsimp only
    rw [if_neg (by omega)]
    split <;> rfl
  · unfold backendRw virtioDisk VirtioBlk.rw
    dsimp only
    rw [if_pos (.inr (.inl many))]

/--
A sequence of requests gets the same statuses and buffers from both disks and
leaves the same data on them exactly if no request is in range and for nine to
128 sectors.
-/
theorem backends_agree_iff (capacity : UInt64) (data : Image) (requests : List Request) :
    (((ramDisk capacity data).serve requests).1 = ((virtioDisk capacity data).serve requests).1 ∧
      ((ramDisk capacity data).serve requests).2.visible =
        ((virtioDisk capacity data).serve requests).2.visible) ↔
      ∀ request ∈ requests, ¬ request.Long capacity := by
  induction requests generalizing data with
  | nil => exact iff_of_true ⟨rfl, rfl⟩ nofun
  | cons request rest hypothesis =>
    rw [List.forall_mem_cons]
    by_cases long : request.Long capacity
    · obtain ⟨taken, refused⟩ := rw_of_long data data long
      refine iff_of_false ?_ fun none => none.1 long
      rintro ⟨answers, -⟩
      simp only [serve, List.cons.injEq, Prod.mk.injEq, taken, refused] at answers
      cases answers.1.1
    · obtain ⟨status, buf, after, ram, virtio⟩ := rw_alike data long
      rw [and_iff_right long, ← hypothesis after]
      simp only [serve, ram, virtio, List.cons.injEq, true_and]

def nineSectors : Request := ⟨capFsadm, false, 0, fun _ => 0, 9⟩

/-- The disk in memory reads nine sectors, the virtio disk refuses. -/
theorem nine_sectors_refused : ((ramDisk 32768 fun _ => 0).rw nineSectors).1 = 0 ∧
    ((virtioDisk 32768 fun _ => 0).rw nineSectors).1 = -1 := by
  decide

end KernelLane.Block
