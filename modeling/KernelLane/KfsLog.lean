import KernelLane.KfsStore

namespace KernelLane.Kfs

open GuestFrame List BlockDev Record Option

/-!
# The log as a sequence of records

The sector loops of the store amount to plain splices and range reads of the
device image.  On that ground a log position holds a record exactly when the
bytes there are the record's frame, so a log written record by record reads
back as the same list of records.
-/

variable {device : BlockDev}

theorem spliceSectors_eq {fuel : Nat} {address : Nat} {bytes : Bytes}
    (enough : bytes.length ≤ fuel) (inside : address + bytes.length ≤ device.capacity) :
    spliceSectors fuel device address bytes = some (device.splice address bytes) := by
  induction fuel generalizing device address bytes with
  | zero =>
    have empty : bytes = [] := eq_nil_of_length_eq_zero (by omega)
    subst empty
    simp [spliceSectors, splice]
  | succ fuel hypothesis =>
    cases bytes with
    | nil => simp [spliceSectors, splice]
    | cons byte rest =>
      let pending := byte :: rest
      let count := min (sectorSize - address % sectorSize) pending.length
      have countPositive : 0 < count := by
        have sectorPositive : address % sectorSize < sectorSize := Nat.mod_lt _ (by decide)
        simp only [count, pending, length_cons]
        omega
      have countBound : count ≤ pending.length := Nat.min_le_right _ _
      have chunkLength : (pending.take count).length = count := by simp [countBound]
      have sectorInside : address / blkSize < device.numBlocks.toNat := by
        simp only [capacity, blkSize, length_cons] at inside ⊢
        omega
      have chunkInside : address % blkSize + (pending.take count).length ≤ blkSize := by
        rw [chunkLength]
        simp only [count, sectorSize, blkSize]
        omega
      have tail : spliceSectors fuel (device.splice address (pending.take count))
            (address + count) (pending.drop count) =
          some ((device.splice address (pending.take count)).splice
            (address + count) (pending.drop count)) := by
        apply hypothesis
        · simp only [length_drop, pending, length_cons] at enough ⊢
          omega
        · simp only [length_drop, capacity_splice]
          simp only [pending, length_cons] at inside countBound ⊢
          omega
      have joined : (device.splice address (pending.take count)).splice
            (address + count) (pending.drop count) =
          device.splice address pending := by
        have adjacent :=
          Image.splice_splice_adjacent device.image address
            (pending.take count) (pending.drop count)
        rw [chunkLength, take_append_drop] at adjacent
        simp only [splice, adjacent]
      have unfolded : spliceSectors (fuel + 1) device address pending =
        (device.read (address / blkSize) blkSize).bind fun sector =>
          (device.write (address / blkSize)
            (Image.overlay sector (address % blkSize) (pending.take count))).bind fun written =>
            spliceSectors fuel written (address + count) (pending.drop count) := rfl
      rw [unfolded, read_sector sectorInside, bind_some,
        write_overlay_sector chunkInside sectorInside, bind_some, tail, joined]

theorem writeRaw_eq {start : Nat} {raw : Bytes} (inside : start + raw.length ≤ device.capacity) :
    writeRaw device start raw = some (device.splice start raw) := by
  unfold writeRaw
  split
  · rename_i aligned
    have sameStart : start / sectorSize * blkSize = start :=
      Nat.div_mul_cancel (Nat.dvd_of_mod_eq_zero aligned.1)
    rw [write_eq_splice aligned.2 (by rw [sameStart]; exact inside), sameStart]
  · exact spliceSectors_eq (Nat.le_refl _) inside

theorem readSectors_eq {fuel address count : Nat} (enough : count ≤ fuel)
    (inside : address + count ≤ device.capacity) :
    readSectors device fuel address count = some (device.image.readBytes address count) := by
  induction fuel generalizing address count with
  | zero =>
    have empty : count = 0 := by omega
    subst empty
    rfl
  | succ fuel hypothesis =>
    cases count with
    | zero => rfl
    | succ wanted =>
      let take := min (512 - address % 512) (wanted + 1)
      have takeInSector : address % 512 + take ≤ 512 := by
        simp only [take]
        omega
      have sectorInside : address / 512 < device.numBlocks.toNat := by
        simp only [capacity, blkSize] at inside
        omega
      have sectorRead : device.read (address / 512) 512 =
          some (device.image.readBytes (address / 512 * 512) 512) :=
        read_sector sectorInside
      have tail : readSectors device fuel (address + take) (wanted + 1 - take) = some
          (device.image.readBytes (address + take) (wanted + 1 - take)) :=
        hypothesis (by omega) (by omega)
      have chunk : ((device.image.readBytes (address / 512 * 512) 512).drop
            (address % 512)).take take =
          device.image.readBytes address take := by
        have sameAddress : address / 512 * 512 + address % 512 = address := by omega
        rw [Image.drop_take_readBytes _ takeInSector, sameAddress]
      have whole : device.image.readBytes address (wanted + 1) =
          device.image.readBytes address take ++ device.image.readBytes (address + take)
            (wanted + 1 - take) := by
        rw [← Image.readBytes_add]
        congr 1
        omega
      have unfolded : readSectors device (fuel + 1) address (wanted + 1) =
          (device.read (address / 512) 512).bind fun sector =>
            (readSectors device fuel (address + take) (wanted + 1 - take)).bind fun rest =>
              some ((sector.drop (address % 512)).take take ++ rest) :=
        rfl
      rw [unfolded, sectorRead, bind_some, tail, bind_some, chunk, whole]

def Record.header (record : Record) : Bytes :=
  put32 (UInt32.ofNat record.payload.length) ++
    (put32 (checksumIEEE record.payload) ++ [record.type])

theorem Record.frame_eq (record : Record) : record.frame = record.header ++ record.payload := by
  simp [frame, header]

@[simp] theorem Record.length_header (record : Record) : record.header.length = hdrLen := by
  simp [header, hdrLen]

/-- The bytes at a position are a record's frame. -/
def HoldsAt (image : Image) (position : Nat) (record : Record) : Prop :=
  image.readBytes position record.size = record.frame

theorem holdsAt_iff {image : Image} {position : Nat} {record : Record} :
    HoldsAt image position record ↔ image.readBytes position hdrLen = record.header ∧
      image.readBytes (position + hdrLen) record.payload.length = record.payload := by
  rw [HoldsAt, size, Image.readBytes_add, frame_eq]
  constructor
  · intro same
    exact append_inj same (by simp)
  · rintro ⟨headerSame, payloadSame⟩
    rw [headerSame, payloadSame]

theorem header_of_fields {hdr payload : Bytes} (headerLength : hdr.length = hdrLen)
    (lengthField : payload.length = (get32 hdr 0).toNat)
    (checksumField : checksumIEEE payload = get32 hdr 4) :
    header ⟨hdr.getD 8 0, payload⟩ = hdr := by
  have lengthWord : UInt32.ofNat payload.length = get32 hdr 0 := by
    rw [lengthField, UInt32.ofNat_toNat]
  have typeByte : hdr.drop 8 = [hdr.getD 8 0] := by
    simp only [hdrLen] at headerLength
    rw [drop_eq_getElem_cons (by omega : 8 < hdr.length), drop_eq_nil_of_le (by omega)]
    simp [getD_eq_getElem?_getD, List.getElem?_eq_getElem (by omega : 8 < hdr.length)]
  have tailBytes : hdr.drop 4 = (hdr.drop 4).take 4 ++ hdr.drop 8 := by
    have split := (take_append_drop 4 (hdr.drop 4)).symm
    rwa [drop_drop] at split
  simp only [hdrLen] at headerLength
  rw [header, lengthWord, checksumField, put32_get32 (by omega), put32_get32 (by omega), ← typeByte,
    ← tailBytes, drop_zero, take_append_drop]

theorem Record.header_fields (record : Record) (short : record.payload.length ≤ maxPayload) :
    (get32 record.header 0).toNat = record.payload.length ∧
      get32 record.header 4 = checksumIEEE record.payload ∧
      record.header.getD 8 0 = record.type := by
  refine ⟨?_, ?_, ?_⟩
  · have field : get32 record.header 0 = UInt32.ofNat record.payload.length := by
      rw [header, get32_put32_zero]
    have small : record.payload.length < 2 ^ 32 := by
      simp only [maxPayload] at short
      omega
    rw [field]
    exact UInt32.toNat_ofNat_of_lt' small
  · exact get32_put32 (put32 (UInt32.ofNat record.payload.length))
      (checksumIEEE record.payload) [record.type] 4 (by simp)
  · simp [header, getD_eq_getElem?_getD]

namespace KFS

/-- The log region of a volume lies on its device, past the preload. -/
structure Shaped (volume : KFS) : Prop where
  preloadShort : volume.logData.length ≤ logStart
  endInside : volume.logEnd ≤ volume.dev.capacity

variable {volume left right : KFS} {start final : Nat} {records : List Record}

section

variable {off count : Nat} (startInside : off < volume.dev.capacity)
  (inside : off + count ≤ volume.dev.capacity)
include startInside inside

/-- A range reads as the device has it if the preload does, where it serves the range. -/
theorem readAt_of_served (served : off + count ≤ volume.logData.length →
      (volume.logData.drop off).take count = volume.dev.image.readBytes off count) :
    volume.readAt off count = .ok (volume.dev.image.readBytes off count) := by
  have onDevice : ¬ volume.dev.numBlocks.toNat ≤ off / sectorSize := by
    simp only [capacity, blkSize, sectorSize] at startInside ⊢
    omega
  rw [readAt, if_neg onDevice]
  split
  · next short => rw [served short]
  · rw [readSectors_eq (Nat.le_refl _) inside]

theorem readAt_eq (shaped : volume.Shaped) (pastStart : logStart ≤ off) :
    volume.readAt off count = .ok (volume.dev.image.readBytes off count) := by
  refine readAt_of_served startInside inside fun short => ?_
  have preloadShort := shaped.preloadShort
  obtain rfl : count = 0 := by omega
  simp [Image.readBytes]

end

theorem readAt_beyond {off count : Nat} (beyond : volume.dev.capacity ≤ off) :
    volume.readAt off count = .error .beyondDevice := by
  have offDevice : volume.dev.numBlocks.toNat ≤ off / sectorSize := by
    simp only [capacity, blkSize, sectorSize] at beyond ⊢
    omega
  rw [readAt, if_pos offDevice]

theorem readRecord_some_iff (shaped : volume.Shaped) {bound position : Nat}
    (pastStart : logStart ≤ position) (boundInside : bound ≤ volume.dev.capacity)
    (record : Record) : volume.readRecord bound position = .ok (some record) ↔
      HoldsAt volume.dev.image position record ∧ record.payload.length ≤ maxPayload ∧
        position + record.size ≤ bound ∧ position + hdrLen < volume.dev.capacity := by
  constructor
  · intro read
    unfold readRecord at read
    split at read
    · simp at read
    rename_i headerFits
    simp only [hdrLen] at headerFits
    rw [readAt_eq (by omega) (by simp [hdrLen]; omega) shaped pastStart] at read
    simp only at read
    generalize headerBytes : volume.dev.image.readBytes position hdrLen = hdr at read
    have headerLength : hdr.length = hdrLen := by
      rw [← headerBytes]
      simp
    split at read
    · simp at read
    rename_i payloadFits
    by_cases beyond : volume.dev.capacity ≤ position + hdrLen
    · rw [readAt_beyond beyond] at read
      simp at read
    rw [readAt_eq (by omega) (by omega) shaped (by omega)] at read
    simp only at read
    split at read
    · simp at read
    rename_i checksumSame
    simp only [Except.ok.injEq, some.injEq] at read
    subst read
    have sameHeader : header ⟨hdr.getD 8 0,
          volume.dev.image.readBytes (position + hdrLen) (get32 hdr 0).toNat⟩ =
        hdr :=
      header_of_fields headerLength (by simp) (by simpa using checksumSame)
    refine ⟨?_, ?_, ?_, by omega⟩
    · rw [holdsAt_iff, sameHeader, headerBytes]
      simp
    · simp
      omega
    · simp [size]
      omega
  · rintro ⟨holds, short, fits, headerInside⟩
    obtain ⟨headerBytes, payloadBytes⟩ := holdsAt_iff.mp holds
    have sizeEq : record.size = hdrLen + record.payload.length := rfl
    obtain ⟨lengthValue, checksumValue, typeValue⟩ := record.header_fields short
    unfold readRecord
    rw [if_neg (by omega), readAt_eq (by omega) (by omega) shaped pastStart, headerBytes]
    simp only [lengthValue, checksumValue, typeValue]
    rw [if_neg (by omega), readAt_eq headerInside (by omega) shaped (by omega), payloadBytes]
    simp

/-- What a volume reads depends on its device, preload and log end only. -/
theorem recordAt_congr (sameDevice : left.dev = right.dev)
    (samePreload : left.logData = right.logData) (sameEnd : left.logEnd = right.logEnd) :
    left.recordAt = right.recordAt := by
  funext position
  simp only [recordAt, readRecord, readAt, sameDevice, samePreload, sameEnd]

theorem recordAt_eq_some_iff (shaped : volume.Shaped) {position size : Nat}
    (pastStart : logStart ≤ position) (record : Record) :
    volume.recordAt position = some (record, size) ↔ size = record.size ∧
      HoldsAt volume.dev.image position record ∧ record.payload.length ≤ maxPayload ∧
      position + record.size ≤ volume.logEnd ∧ position + hdrLen < volume.dev.capacity := by
  rw [← readRecord_some_iff shaped pastStart shaped.endInside record]
  unfold recordAt
  split
  · rename_i found read
    rw [read]
    simp only [some.injEq, Prod.mk.injEq, Except.ok.injEq]
    constructor
    · rintro ⟨rfl, rfl⟩
      exact ⟨rfl, rfl⟩
    · rintro ⟨rfl, rfl⟩
      exact ⟨rfl, rfl⟩
  · rename_i read
    simp [read]
  · rename_i read
    simp [read]

theorem laid_bounds (shaped : volume.Shaped) (pastStart : logStart ≤ start)
    (laid : LogScan.Laid volume.recordAt start records final) :
    start + hdrLen * records.length ≤ final ∧ final ≤ max start volume.logEnd := by
  induction laid with
  | nil => simp
  | cons head _ hypothesis =>
    obtain ⟨rfl, _, _, fits, _⟩ := (recordAt_eq_some_iff shaped pastStart _).mp head
    have rest := hypothesis (by omega)
    simp only [size, hdrLen, length_cons] at rest ⊢
    omega

section

variable (leftShaped : left.Shaped) (rightShaped : right.Shaped)
  (sameEnd : right.logEnd = left.logEnd) (sameBlocks : right.dev.numBlocks = left.dev.numBlocks)
  (pastStart : logStart ≤ start)
include leftShaped rightShaped sameEnd sameBlocks pastStart

/-- Records laid on one device are laid on every device with those bytes. -/
theorem laid_transfer_range
    (agree : ∀ index, start ≤ index → index < final → left.dev.image index = right.dev.image index)
    (laid : LogScan.Laid left.recordAt start records final) :
    LogScan.Laid right.recordAt start records final := by
  induction laid with
  | nil => exact .nil _
  | cons head tail hypothesis =>
    obtain ⟨rfl, holds, short, fits, headerInside⟩ :=
      (recordAt_eq_some_iff leftShaped pastStart _).mp head
    have bounds := laid_bounds leftShaped (by omega) tail
    refine .cons ?_ (hypothesis (by omega) fun index low high => agree index (by omega) high)
    rw [recordAt_eq_some_iff rightShaped pastStart]
    refine ⟨rfl, ?_, short, by omega, ?_⟩
    · rw [HoldsAt, ← holds]
      apply Image.readBytes_congr
      intro index low high
      exact (agree index low (by omega)).symm
    · simpa only [capacity, sameBlocks] using headerInside

/-- Records laid below a bound carry over to an image that agrees there. -/
theorem laid_transfer (agree : Image.AgreeBelow final left.dev.image right.dev.image)
    (laid : LogScan.Laid left.recordAt start records final) :
    LogScan.Laid right.recordAt start records final :=
  laid_transfer_range leftShaped rightShaped sameEnd sameBlocks pastStart
    (fun index _ high => agree index high) laid

end

end KFS

end KernelLane.Kfs
