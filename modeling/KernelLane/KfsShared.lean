import KernelLane.KfsRecords
import Mathlib.Data.List.Induction

namespace KernelLane.Kfs

open GuestFrame List Option LogScan Record Tree BlockDev

/-!
# The reference reader of the shared format package

The host tools share a package that frames and parses the same log.  Its
`Replay` returns every record whose frame is intact, whatever its type; the
mount of the guest applies records and stops at the first one it cannot use.
This module has the shared reader and says on which images the two agree.
-/

namespace Shared

/-- The decoded header of sector 0. -/
structure Superblock where
  blockSize : UInt32
  numBlocks : UInt64
  logSector : UInt32
  version : UInt32
  deriving DecidableEq, Repr

def parseSuperblock (sec : Bytes) : Option Superblock :=
  if sec.length < 24 ∨ sec.take 4 ≠ magic then none
  else
    let sb : Superblock := ⟨get32 sec 4, get64 sec 8, get32 sec 16, get32 sec 20⟩
    if sb.logSector ≠ UInt32.ofNat (logStart / sectorSize) then none
    else some sb

def decodeRecord (hdr payload : Bytes) : Option Record :=
  if hdr.length < hdrLen then none
  else
    let plen := (get32 hdr 0).toNat
    let crc := get32 hdr 4
    if maxPayload < plen ∨ payload.length < plen then none
    else if checksumIEEE (payload.take plen) ≠ crc then none
    else some ⟨hdr.getD 8 0, payload.take plen⟩

def readBytes (device : BlockDev) (off count : Nat) : Option Bytes :=
  readSectors device count off count

/-- One round of the scan: the record at a position and its framed length. -/
def frameAt (device : BlockDev) (pos : Nat) : Option (Record × Nat) :=
  let logEnd := logLimit device.numBlocks
  if logEnd < pos + hdrLen then none
  else do
    let _ ← device.read (pos / sectorSize) hdrLen
    let hdr ← readBytes device pos hdrLen
    let plen := (get32 hdr 0).toNat
    if maxPayload < plen ∨ logEnd < pos + hdrLen + plen then none
    else
      let payload ← readBytes device (pos + hdrLen) plen
      let record ← decodeRecord hdr payload
      return (record, hdrLen + plen)

def collect (records : List Record) (record : Record) : LogScan.Step (List Record) :=
  .applied (records ++ [record])

/--
Scan the log and return the records that validate, with the position at which
the scan ends; nothing without a superblock.
-/
def replay (device : BlockDev) : Option (List Record × Nat) := do
  let sec ← device.read 0 sectorSize
  let sb ← parseSuperblock sec
  scan (frameAt device) collect (logLimit device.numBlocks) [] (sb.logSector.toNat * sectorSize)

end Shared

open Shared

/-- The records that a mount applies and the position at which it stops;
nothing when it fails or panics. -/
def replayedRecords (device : BlockDev) : Option (List Record × Nat) :=
  match mountKFS device with
  | .mounted _ =>
    (scan (bootVolume device).recordAt
      (traced apply) (bootVolume device).logEnd
      (empty, []) logStart).map fun found => (found.1.2, found.2)
  | .failed _ => none
  | .panicked => none

/-! ## The frames of a log -/

namespace Shared

theorem decodeRecord_of_length {hdr payload : Bytes} (headerLength : hdr.length = hdrLen)
    (payloadLength : payload.length = (get32 hdr 0).toNat) (short : payload.length ≤ maxPayload) :
    decodeRecord hdr payload =
      if checksumIEEE payload ≠ get32 hdr 4 then none
      else some ⟨hdr.getD 8 0, payload⟩ := by
  unfold decodeRecord
  rw [if_neg (by omega)]
  rw [if_neg (by omega), ← payloadLength, take_length]

variable {device : BlockDev}

theorem frameAt_eq_some_iff {position size : Nat} {record : Record} :
    frameAt device position = some (record, size) ↔ size = record.size ∧
      HoldsAt device.image position record ∧ record.payload.length ≤ maxPayload ∧
      position + record.size ≤ logLimit device.numBlocks := by
  have limit := logLimit_le device
  unfold frameAt
  by_cases headerFits : logLimit device.numBlocks < position + hdrLen
  · rw [if_pos headerFits]
    constructor
    · simp
    · rintro ⟨_, _, _, fits⟩
      rw [Record.size] at fits
      omega
  rw [if_neg headerFits]
  have sector : ∃ bytes, device.read (position / sectorSize) hdrLen = some bytes := by
    refine ⟨_, if_neg ?_⟩
    simp only [capacity, blkSize, sectorSize] at limit headerFits ⊢
    omega
  obtain ⟨bytes, read⟩ := sector
  have header : readBytes device position hdrLen = some (device.image.readBytes position hdrLen) :=
    readSectors_eq (Nat.le_refl _) (by omega)
  rw [read, header]
  simp only [bind_eq_bind, bind_some]
  generalize headerBytes : device.image.readBytes position hdrLen = hdr
  have headerLength : hdr.length = hdrLen := by
    rw [← headerBytes]
    simp
  constructor
  · intro found
    split at found
    · cases found
    next payloadFits =>
    have payload : readBytes device (position + hdrLen) (get32 hdr 0).toNat =
        some (device.image.readBytes (position + hdrLen) (get32 hdr 0).toNat) :=
      readSectors_eq (Nat.le_refl _) (by omega)
    rw [payload, bind_some, decodeRecord_of_length headerLength (by simp) (by simp; omega)] at found
    split at found
    · cases found
    next checksumSame =>
    cases found
    have sameHeader : Record.header ⟨hdr.getD 8 0, device.image.readBytes (position + hdrLen)
          (get32 hdr 0).toNat⟩ =
        hdr :=
      header_of_fields headerLength (by simp) (by simpa using checksumSame)
    refine ⟨by simp [Record.size], ?_, by simp; omega, by simp [Record.size]; omega⟩
    rw [holdsAt_iff, sameHeader, headerBytes]
    simp
  · rintro ⟨rfl, holds, short, fits⟩
    obtain ⟨sameHeader, samePayload⟩ := holdsAt_iff.mp holds
    obtain ⟨lengthValue, checksumValue, typeValue⟩ := record.header_fields short
    rw [headerBytes] at sameHeader
    subst sameHeader
    rw [Record.size] at fits
    rw [lengthValue, if_neg (by omega)]
    have payload : readBytes device (position + hdrLen) record.payload.length =
        some record.payload := by
      rw [← samePayload]
      simp only [Image.length_readBytes]
      exact readSectors_eq (Nat.le_refl _) (by omega)
    rw [payload, bind_some, decodeRecord_of_length headerLength lengthValue.symm short,
      checksumValue, typeValue]
    simp [Record.size]

theorem laid_bounds {start final : Nat} {records : List Record}
    (laid : LogScan.Laid (frameAt device) start records final) :
    start + hdrLen * records.length ≤ final ∧ final ≤ max start (logLimit device.numBlocks) := by
  induction laid with
  | nil => simp
  | cons head _ hypothesis =>
    obtain ⟨rfl, _, _, fits⟩ := frameAt_eq_some_iff.mp head
    simp only [size, hdrLen, length_cons] at hypothesis fits ⊢
    omega

/-- The mount finds the same frames, except an empty one at the end of the
device. -/
theorem recordAt_eq_some_iff_frameAt {position size : Nat} {record : Record}
    (pastStart : logStart ≤ position) :
    (bootVolume device).recordAt position = some (record, size) ↔
      frameAt device position = some (record, size) ∧ position + hdrLen < device.capacity := by
  rw [KFS.recordAt_eq_some_iff (bootVolume_shaped device) pastStart, frameAt_eq_some_iff]
  simp [bootVolume_dev, bootVolume_logEnd, and_assoc]

/-- The superblock checks of the shared reader. -/
structure Accepts (device : BlockDev) : Prop where
  hasSector : 0 < device.numBlocks.toNat
  magicOk : (device.image.readBytes 0 512).take 4 = magic
  startOk : get32 (device.image.readBytes 0 512) 16 = UInt32.ofNat (logStart / 512)

theorem parseSuperblock_eq_some_iff {sec : Bytes} : (∃ sb, parseSuperblock sec = some sb ∧
      sb.logSector = UInt32.ofNat (logStart / 512)) ↔
    24 ≤ sec.length ∧ sec.take 4 = magic ∧ get32 sec 16 = UInt32.ofNat (logStart / 512) := by
  unfold parseSuperblock
  constructor
  · rintro ⟨sb, parsed, start⟩
    split at parsed
    · cases parsed
    next bad =>
    rw [not_or, Nat.not_lt, not_not] at bad
    dsimp only at parsed
    split at parsed
    · cases parsed
    next startOk =>
    exact ⟨bad.1, bad.2, not_not.mp startOk⟩
  · rintro ⟨long, magicOk, startOk⟩
    rw [if_neg (not_or.mpr ⟨Nat.not_lt.mpr long, not_not.mpr magicOk⟩)]
    have sameStart : get32 sec 16 = UInt32.ofNat (logStart / sectorSize) := startOk
    rw [if_neg (not_not.mpr sameStart)]
    exact ⟨_, rfl, startOk⟩

theorem applyAll_collect (leading records : List Record) :
    applyAll collect leading records = some (leading ++ records) := by
  induction records generalizing leading with
  | nil => simp [applyAll]
  | cons record rest hypothesis =>
    rw [applyAll, collect]
    dsimp only
    rw [hypothesis, append_assoc]
    rfl

theorem replay_eq {sec : Bytes} {sb : Superblock} (read : device.read 0 sectorSize = some sec)
    (parsed : parseSuperblock sec = some sb)
    (start : sb.logSector = UInt32.ofNat (logStart / 512)) :
    replay device = scan (frameAt device) collect (logLimit device.numBlocks) [] logStart := by
  have first : (UInt32.ofNat (logStart / 512)).toNat * sectorSize = logStart := by decide
  unfold replay
  rw [read, bind_eq_bind, bind_some, parsed, bind_eq_bind, bind_some, start, first]

theorem replay_of_accepts (accepts : Accepts device) : ∃ records stop,
    replay device = some (records, stop) ∧ LogScan.Laid (frameAt device) logStart records stop ∧
      frameAt device stop = none := by
  have sector : device.read 0 sectorSize = some (device.image.readBytes 0 512) := by
    rw [sectorSize, read_first_sector accepts.hasSector]
  obtain ⟨sb, parsed, start⟩ :=
    parseSuperblock_eq_some_iff.mpr ⟨by simp, accepts.magicOk, accepts.startOk⟩
  have total : ∃ result, scan (frameAt device) collect (logLimit device.numBlocks) [] logStart =
      some result :=
    scan_isSome (by simp [collect]) _ _ _
  obtain ⟨⟨records, stop⟩, scanned⟩ := total
  have replayed : replay device = some (records, stop) := by
    rw [replay_eq sector parsed start, scanned]
  obtain ⟨entries, laid, applies, _, ended⟩ := scan_eq_some scanned
  rw [applyAll_collect, some.injEq] at applies
  subst applies
  refine ⟨entries, stop, replayed, laid, ?_⟩
  cases found : frameAt device stop with
  | none => rfl
  | some pair =>
    obtain ⟨record, size⟩ := pair
    rcases ended with exhausted | stuck
    · obtain ⟨_, _, _, fits⟩ := frameAt_eq_some_iff.mp found
      have bounds := laid_bounds laid
      simp only [Record.size, hdrLen] at bounds fits
      omega
    · have rejected := stuck record size found
      simp [collect] at rejected

theorem accepts_of_replay {result : List Record × Nat} (replayed : replay device = some result) :
    Accepts device := by
  simp only [replay, bind_eq_bind, bind_eq_some_iff] at replayed
  obtain ⟨sec, read, sb, parsed, _⟩ := replayed
  have hasSector : 0 < device.numBlocks.toNat := by
    by_contra none
    have empty : device.numBlocks.toNat = 0 := by omega
    simp [BlockDev.read, empty, sectorSize, BlockDev.blkSize] at read
  rw [sectorSize, read_first_sector hasSector, some.injEq] at read
  subst read
  have start : sb.logSector = UInt32.ofNat (logStart / 512) := by
    unfold parseSuperblock at parsed
    split at parsed
    · cases parsed
    dsimp only at parsed
    split at parsed
    · cases parsed
    next startOk =>
    cases parsed
    exact not_not.mp startOk
  obtain ⟨_, magicOk, startOk⟩ := parseSuperblock_eq_some_iff.mp ⟨sb, parsed, start⟩
  exact ⟨hasSector, magicOk, startOk⟩

end Shared

variable {device : BlockDev} {records : List Record} {stop : Nat}

theorem replayedRecords_eq_some_iff :
    replayedRecords device = some (records, stop) ↔ ValidSuperblock device ∧ ∃ tree,
      LogScan.Laid (bootVolume device).recordAt logStart records stop ∧
        applyAll apply empty records = some tree ∧
        LogScan.Stuck (bootVolume device).recordAt apply tree stop := by
  have scanned {records : List Record} {stop : Nat} {tree : Tree} (laid :
        LogScan.Laid (bootVolume device).recordAt logStart records stop)
      (applies : applyAll apply empty records = some tree)
      (stuck : LogScan.Stuck (bootVolume device).recordAt apply tree stop) :
      scan (bootVolume device).recordAt (traced apply)
          (bootVolume device).logEnd (empty, []) logStart =
        some ((tree, records), stop) := by
    have enough := length_le_logEnd (bootVolume_shaped device) laid
    exact scan_traced laid applies stuck (by simp only [hdrLen] at enough; omega)
  rw [replayedRecords]
  constructor
  · intro replayed
    cases mounted : mountKFS device with
    | mounted volume =>
      rw [mounted] at replayed
      obtain ⟨found, laid, applies, stuck, _⟩ := mounted_laid mounted
      rw [scanned laid applies stuck] at replayed
      cases replayed
      exact ⟨valid_of_mounted mounted, _, laid, applies, stuck⟩
    | failed | panicked => simp [mounted] at replayed
  · rintro ⟨valid, tree, laid, applies, stuck⟩
    rw [mountKFS_of_laid valid laid applies stuck]
    rw [scanned laid applies stuck]
    rfl

/-! ## When the readers agree -/

/-- Frames that the mount applies as well. -/
structure GuestReadable (device : BlockDev) (records : List Record) (stop : Nat) : Prop where
  /-- Every type is known and no field is missing. -/
  wellFormed : ∀ record ∈ records, record.WellFormed
  /-- No write is beyond the signed offsets. -/
  near : Sizes.Near (fun _ => 0) records
  /-- The device does not end with an empty frame. -/
  inside : ∀ record, records.getLast? = some record → record.payload = [] → stop < device.capacity

theorem laid_of_readable (readable : ∀ {records stop},
      LogScan.Laid (frameAt device) logStart records stop →
      GuestReadable device records stop)
    (laid : LogScan.Laid (frameAt device) logStart records stop) :
    LogScan.Laid (bootVolume device).recordAt logStart records stop := by
  induction records using reverseRecOn generalizing stop with
  | nil =>
    cases laid
    exact .nil _
  | append_singleton records record hypothesis =>
    have inside := (readable laid).inside record (by simp)
    obtain ⟨middle, leading, last⟩ := laid.split
    have bounds := laid_bounds leading
    cases last with
    | cons found done =>
      cases done
      refine (hypothesis leading).snoc ?_
      rw [recordAt_eq_some_iff_frameAt (by omega)]
      refine ⟨found, ?_⟩
      obtain ⟨rfl, _, _, fits⟩ := frameAt_eq_some_iff.mp found
      have limit := logLimit_le device
      rw [size] at fits inside
      by_cases empty : record.payload = []
      · have short := inside empty
        omega
      · have filled := length_pos_iff.mpr empty
        omega

theorem laid_frames {start : Nat} (pastStart : logStart ≤ start)
    (laid : LogScan.Laid (bootVolume device).recordAt start records stop) :
    LogScan.Laid (frameAt device) start records stop := by
  induction laid with
  | nil => exact .nil _
  | cons head _ hypothesis =>
    have frame := ((recordAt_eq_some_iff_frameAt pastStart).mp head).1
    exact .cons frame (hypothesis (by omega))

/-- The records that a mount applies are readable, and all beginnings are. -/
theorem readable_of_applied {rest : List Record} {final : Nat} {tree : Tree}
    (whole : LogScan.Laid (bootVolume device).recordAt logStart (records ++ rest) final)
    (applies : applyAll apply empty (records ++ rest) = some tree)
    (laid : LogScan.Laid (frameAt device) logStart records stop) :
    GuestReadable device records stop := by
  obtain ⟨wellFormed, near, _⟩ := near_of_applyAll applies
  refine ⟨?_, (Sizes.near_append.mp near).1, ?_⟩
  · intro record member
    exact wellFormed record (mem_append_left _ member)
  · intro record isLast empty
    obtain ⟨middle, leading, _⟩ := whole.split
    obtain ⟨init, rfl⟩ := getLast?_eq_some_iff.mp isLast
    have same := (laid_frames (Nat.le_refl _) leading).end_unique laid
    subst same
    obtain ⟨position, before, last⟩ := leading.split
    have bounds := KFS.laid_bounds (bootVolume_shaped device) (Nat.le_refl _) before
    cases last with
    | cons found done =>
      cases done
      obtain ⟨frame, inside⟩ := (recordAt_eq_some_iff_frameAt (by omega)).mp found
      obtain ⟨rfl, _⟩ := frameAt_eq_some_iff.mp frame
      rw [size, empty]
      omega

/--
The shared reader and the mount return the same records and stop at the same
position exactly when the shared reader refuses the superblock, or its block
size is right and every frame of the log can be used by the mount.
-/
theorem readers_agree_iff (device : BlockDev) : replay device = replayedRecords device ↔
    (Shared.Accepts device → get32 (device.image.readBytes 0 512) 4 = 512 ∧ ∀ {records stop},
      LogScan.Laid (frameAt device) logStart records stop →
      GuestReadable device records stop) := by
  constructor
  · intro same accepts
    obtain ⟨records, stop, replayed, frames, ended⟩ := replay_of_accepts accepts
    rw [replayed, eq_comm, replayedRecords_eq_some_iff] at same
    obtain ⟨valid, tree, laid, applies, _⟩ := same
    refine ⟨valid.sizeOk, fun {others middle} other => ?_⟩
    obtain ⟨rest, rfl⟩ := other.initial frames ended
    exact readable_of_applied laid applies other
  · intro agreeable
    by_cases accepts : Shared.Accepts device
    · obtain ⟨records, stop, replayed, frames, ended⟩ := replay_of_accepts accepts
      obtain ⟨sizeOk, readable⟩ := agreeable accepts
      obtain ⟨wellFormed, near, _⟩ := readable frames
      have laid := laid_of_readable readable frames
      have nearEmpty : empty.sizes.Near records := near
      obtain ⟨tree, applies⟩ := applyAll_of_near wellFormed nearEmpty
      rw [replayed, eq_comm, replayedRecords_eq_some_iff]
      refine ⟨⟨accepts.hasSector, accepts.magicOk, sizeOk,
        accepts.startOk⟩, tree, laid, applies, ?_⟩
      intro record size found
      have bounds := laid_bounds frames
      rw [recordAt_eq_some_iff_frameAt (by omega), ended] at found
      cases found.1
    · have none : replay device = none := by
        cases replayed : replay device with
        | none => rfl
        | some result => exact absurd (accepts_of_replay replayed) accepts
      rw [none]
      cases replayed : replayedRecords device with
      | none => rfl
      | some result =>
        obtain ⟨valid, _⟩ := replayedRecords_eq_some_iff.mp replayed
        exact absurd ⟨valid.hasSector, valid.magicOk, valid.startOk⟩ accepts

/-! ## An empty log -/

def blankLog : BlockDev := ⟨2, Image.splice (fun _ => 0) 0 (superblock 512 2)⟩

/-- The mount finds no record in it, the shared reader fifty-six: a header of
zeros is the frame of an empty record of type zero. -/
theorem blank_log_read_differently : replayedRecords blankLog = some ([], 512) ∧
    replay blankLog = some (replicate 56 ⟨0, []⟩, 1016) ∧
    replay blankLog ≠ replayedRecords blankLog := by
  have guest : replayedRecords blankLog = some ([], 512) := by decide +kernel
  have shared : replay blankLog = some (replicate 56 ⟨0, []⟩, 1016) := by decide +kernel
  refine ⟨guest, shared, ?_⟩
  rw [guest, shared]
  decide

end KernelLane.Kfs
