import KernelLane.ByteImage

namespace KernelLane

/-!
# The block device behind the file services

A block window moves whole sectors of 512 bytes between a client and a device
of `numBlocks` sectors.  The window is only adopted when its header says 512,
so the sector size is a constant here.  Transfers outside the device are
refused, and a completed write changes exactly the sectors it names.
-/

/-- A healthy block device of 512-byte sectors. -/
structure BlockDev where
  numBlocks : UInt64
  image : Image

namespace BlockDev

/-- Bytes of one sector. -/
def blkSize : Nat := 512

/-- The device shape: sector size and sector count. -/
def geometry (device : BlockDev) : UInt32 × UInt64 := (512, device.numBlocks)

/-- Bytes the device holds. -/
def capacity (device : BlockDev) : Nat := device.numBlocks.toNat * blkSize

/-- Read `count` bytes from the start of a sector on. -/
def read (device : BlockDev) (lba count : Nat) : Option Bytes :=
  if device.numBlocks.toNat < lba + (count + 511) / blkSize then none
  else some (device.image.readBytes (lba * blkSize) count)

/-- Write whole sectors; the buffer must be sector-aligned. -/
def write (device : BlockDev) (lba : Nat) (buffer : Bytes) : Option BlockDev :=
  if buffer.length % blkSize ≠ 0 then none
  else if device.numBlocks.toNat < lba + buffer.length / blkSize then none
  else
    some { device with image := device.image.splice (lba * blkSize) buffer }

/-- The device after its bytes from an address on were overwritten. -/
def splice (device : BlockDev) (address : Nat) (bytes : Bytes) : BlockDev :=
  { device with image := device.image.splice address bytes }

@[simp] theorem numBlocks_splice (device : BlockDev) (address : Nat) (bytes : Bytes) :
    (device.splice address bytes).numBlocks = device.numBlocks := rfl

@[simp] theorem image_splice (device : BlockDev) (address : Nat) (bytes : Bytes) :
    (device.splice address bytes).image = device.image.splice address bytes := rfl

@[simp] theorem capacity_splice (device : BlockDev) (address : Nat) (bytes : Bytes) :
    (device.splice address bytes).capacity = device.capacity := rfl

variable {device : BlockDev}

/-- Reading one sector inside the device succeeds. -/
theorem read_sector {lba : Nat} (inside : lba < device.numBlocks.toNat) :
    device.read lba blkSize = some (device.image.readBytes (lba * blkSize) blkSize) := by
  have inRange : ¬ device.numBlocks.toNat < lba + (blkSize + 511) / blkSize := by
    simp only [blkSize]
    omega
  rw [read, if_neg inRange]

/-- Writing whole sectors inside the device is a splice. -/
theorem write_eq_splice {lba : Nat} {buffer : Bytes} (aligned : buffer.length % blkSize = 0)
    (inside : lba * blkSize + buffer.length ≤ device.capacity) :
    device.write lba buffer = some (device.splice (lba * blkSize) buffer) := by
  have inRange : ¬ device.numBlocks.toNat < lba + buffer.length / blkSize := by
    simp only [capacity, blkSize] at aligned inside ⊢
    omega
  rw [write, if_neg (by simpa using aligned), if_neg inRange]
  rfl

/-- Reading, patching and writing back one sector splices the patch. -/
theorem write_overlay_sector {address : Nat} {patch : Bytes}
    (insideSector : address % blkSize + patch.length ≤ blkSize)
    (insideDevice : address / blkSize < device.numBlocks.toNat) :
    device.write (address / blkSize) (Image.overlay
        (device.image.readBytes (address / blkSize * blkSize) blkSize) (address % blkSize) patch) =
      some (device.splice address patch) := by
  have sectorLength : (Image.overlay (device.image.readBytes (address / blkSize * blkSize) blkSize)
        (address % blkSize) patch).length =
      blkSize := by
    rw [Image.length_overlay (by simpa using insideSector)]
    simp
  have sameAddress : address / blkSize * blkSize + address % blkSize = address :=
    Nat.div_add_mod' address blkSize
  rw [write_eq_splice (by rw [sectorLength]; rfl) (by
    rw [sectorLength]
    simp only [capacity, blkSize] at insideDevice ⊢
    omega)]
  simp only [splice, Image.splice_overlay_readBytes _ insideSector, sameAddress]

end BlockDev

end KernelLane
