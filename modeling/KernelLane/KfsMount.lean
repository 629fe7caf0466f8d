import KernelLane.KfsAppend

namespace KernelLane.Kfs

open GuestFrame List BlockDev Tree KFS LogScan Image MountOutcome Nat

/-!
# Formatting and mounting

A mount is determined by the records that lie in the log: it applies them up
to the first position that holds no acceptable record.  Formatting leaves a
valid superblock and a log that replays to the root directory alone.
-/

/-- The superblock checks of `MountKFS`. -/
structure ValidSuperblock (device : BlockDev) : Prop where
  hasSector : 0 < device.numBlocks.toNat
  magicOk : (device.image.readBytes 0 512).take 4 = magic
  sizeOk : get32 (device.image.readBytes 0 512) 4 = 512
  startOk : get32 (device.image.readBytes 0 512) 16 = UInt32.ofNat (logStart / 512)

variable {device : BlockDev} {volume : KFS} {records : List Record} {final : Nat} {record : Record}

theorem ValidSuperblock.of_agree {other : BlockDev} (valid : ValidSuperblock device)
    (sameBlocks : other.numBlocks = device.numBlocks)
    (agree : Image.AgreeBelow logStart device.image other.image) : ValidSuperblock other := by
  have sameSector : device.image.readBytes 0 512 = other.image.readBytes 0 512 :=
    agree.readBytes (by simp [logStart])
  constructor
  · rw [sameBlocks]
    exact valid.hasSector
  · rw [← sameSector]
    exact valid.magicOk
  · rw [← sameSector]
    exact valid.sizeOk
  · rw [← sameSector]
    exact valid.startOk

def bootVolume (device : BlockDev) : KFS := mountVolume device (device.image.readBytes 0 512)

theorem logLimit_le (device : BlockDev) : logLimit device.numBlocks ≤ device.capacity := by
  have wrapped : Int.bmod (device.numBlocks.toNat * 512) (2 ^ 64) ≤
      device.numBlocks.toNat * 512 := by
    rw [Int.bmod_def]
    split <;> omega
  unfold logLimit capacity blkSize
  omega

theorem bootVolume_dev (device : BlockDev) : (bootVolume device).dev = device := rfl

theorem bootVolume_logEnd (device : BlockDev) :
    (bootVolume device).logEnd = logLimit device.numBlocks := rfl

theorem bootVolume_shaped (device : BlockDev) : (bootVolume device).Shaped where
  preloadShort := by simp [bootVolume, mountVolume, logStart]
  endInside := logLimit_le device

theorem read_first_sector (hasSector : 0 < device.numBlocks.toNat) :
    device.read 0 512 = some (device.image.readBytes 0 512) := by
  have sector := read_sector hasSector
  simpa only [blkSize, zero_mul] using sector

theorem mountKFS_of_valid (valid : ValidSuperblock device) : mountKFS device =
    ofReplay (bootVolume device).replay := by
  have sectorRead := read_first_sector valid.hasSector
  have magicAndSize : ¬ ((device.image.readBytes 0 512).take 4 ≠ magic ∨
      get32 (device.image.readBytes 0 512) 4 ≠ device.geometry.1) := by
    rintro (badMagic | badSize)
    · exact badMagic valid.magicOk
    · exact badSize valid.sizeOk
  have start : ¬ get32 (device.image.readBytes 0 512) 16 ≠ UInt32.ofNat (logStart / 512) := by
    intro badStart
    exact badStart valid.startOk
  simp only [mountKFS, bootVolume, sectorRead, if_neg magicAndSize, if_neg start]

theorem valid_or_failed (device : BlockDev) : ValidSuperblock device ∨
    ∃ failure, mountKFS device = .failed failure := by
  by_cases hasSector : 0 < device.numBlocks.toNat
  · have sectorRead := read_first_sector hasSector
    by_cases magicOk : (device.image.readBytes 0 512).take 4 = magic
    · by_cases sizeOk : get32 (device.image.readBytes 0 512) 4 = device.geometry.1
      · by_cases startOk : get32 (device.image.readBytes 0 512) 16 = UInt32.ofNat (logStart / 512)
        · exact .inl ⟨hasSector, magicOk, sizeOk, startOk⟩
        refine .inr ⟨.kfsBadSB, ?_⟩
        simp only [mountKFS, sectorRead]
        rw [if_neg (by simp only [not_or, not_not]; exact ⟨magicOk, sizeOk⟩), if_pos startOk]
      · refine .inr ⟨.kfsBadSB, ?_⟩
        simp only [mountKFS, sectorRead]
        rw [if_pos (.inr sizeOk)]
    · refine .inr ⟨.kfsBadSB, ?_⟩
      simp only [mountKFS, sectorRead]
      rw [if_pos (.inl magicOk)]
  · refine .inr ⟨.device, ?_⟩
    have unread : device.read 0 512 = none := by
      rw [BlockDev.read, if_pos]
      simp only [blkSize]
      omega
    simp only [mountKFS, unread]

theorem valid_of_mounted (mounted : mountKFS device = .mounted volume) :
    ValidSuperblock device := by
  rcases valid_or_failed device with valid | ⟨failure, failed⟩
  · exact valid
  · rw [failed] at mounted
    cases mounted

theorem length_le_logEnd (shaped : volume.Shaped)
    (laid : LogScan.Laid volume.recordAt logStart records final) :
    hdrLen * records.length ≤ volume.logEnd := by
  have bounds := laid_bounds shaped (le_refl _) laid
  omega

variable {tree : Tree}

theorem mountKFS_of_laid (valid : ValidSuperblock device)
    (laid : LogScan.Laid (bootVolume device).recordAt logStart records final)
    (applies : applyAll apply empty records = some tree)
    (stuck : LogScan.Stuck (bootVolume device).recordAt apply tree final) :
    mountKFS device = .mounted { bootVolume device with toTree := tree, wOff := final } := by
  have enough := length_le_logEnd (bootVolume_shaped device) laid
  have scanned : scan (bootVolume device).recordAt apply
        (bootVolume device).logEnd (bootVolume device).toTree
        (bootVolume device).wOff =
      some (tree, final) :=
    scan_laid_stuck laid applies stuck (by simp only [hdrLen] at enough; omega)
  rw [mountKFS_of_valid valid, replay, scanned]
  rfl

theorem mountKFS_of_crash (valid : ValidSuperblock device) {trailing : List Record}
    (laid : LogScan.Laid (bootVolume device).recordAt logStart
      (records ++ record :: trailing) final)
    (applies : applyAll apply empty records = some tree)
    (crashes : tree.apply record = .crashed) : mountKFS device = .panicked := by
  have enough := length_le_logEnd (bootVolume_shaped device) laid
  rw [length_append, length_cons] at enough
  obtain ⟨middle, leading, later⟩ := laid.split
  cases later with
  | cons found _ =>
    have scanned : scan (bootVolume device).recordAt apply
          (bootVolume device).logEnd (bootVolume device).toTree
          (bootVolume device).wOff =
        none :=
      scan_laid_crash leading applies found crashes (by simp only [hdrLen] at enough; omega)
    rw [mountKFS_of_valid valid, replay, scanned]
    rfl

/-- Running out of fuel would need more records than the log has bytes. -/
theorem stuck_of_exhausted (laid : LogScan.Laid (bootVolume device).recordAt logStart records final)
    (exhausted : records.length = (bootVolume device).logEnd) (tree : Tree) :
    LogScan.Stuck (bootVolume device).recordAt apply tree final := by
  have shaped := bootVolume_shaped device
  have enough := length_le_logEnd shaped laid
  have bounds := laid_bounds shaped (Nat.le_refl _) laid
  intro entry size found
  obtain ⟨_, _, _, fits, _⟩ := (recordAt_eq_some_iff shaped (by omega) entry).mp found
  simp only [Record.size, hdrLen] at enough fits
  omega

theorem MountOutcome.ofReplay_eq_mounted {replayed : Option KFS} :
    ofReplay replayed = .mounted volume ↔ replayed = some volume := by
  cases replayed <;> simp [ofReplay]

theorem KFS.replay_eq_some {recovered : KFS} (replayed : volume.replay = some recovered) :
    scan volume.recordAt apply volume.logEnd volume.toTree volume.wOff =
        some (recovered.toTree, recovered.wOff) ∧ recovered = { volume with
          toTree := recovered.toTree, wOff := recovered.wOff } := by
  unfold replay at replayed
  split at replayed
  · simp at replayed
  rename_i tree position scanned
  simp only [Option.some.injEq] at replayed
  subst replayed
  exact ⟨scanned, rfl⟩

theorem mounted_laid (mounted : mountKFS device = .mounted volume) :
    ∃ records, LogScan.Laid (bootVolume device).recordAt logStart records volume.wOff ∧
      applyAll apply empty records = some volume.toTree ∧
      LogScan.Stuck (bootVolume device).recordAt apply volume.toTree volume.wOff ∧ volume =
        { bootVolume device with
          toTree := volume.toTree, wOff := volume.wOff } := by
  rw [mountKFS_of_valid (valid_of_mounted mounted), ofReplay_eq_mounted] at mounted
  obtain ⟨scanned, shape⟩ := replay_eq_some mounted
  obtain ⟨records, laid, applies, _, ended⟩ := scan_eq_some scanned
  refine ⟨records, laid, applies, ?_, shape⟩
  rcases ended with exhausted | stuck
  · exact stuck_of_exhausted laid exhausted _
  · exact stuck

theorem apply_type_zero (typeZero : record.type = 0) (tree : Tree) :
    tree.apply record = .rejected := by
  simp [apply, typeZero, recInode, recDirent, recData, recCheckpoint]

variable {position : Nat}

theorem HoldsAt.type_eq {image : Image} (holds : HoldsAt image position record) :
    record.type = image (position + 8) := by
  have header := (holdsAt_iff.mp holds).1
  have stored := getElem?_readBytes image position hdrLen 8
  rw [header] at stored
  simpa [Record.header, hdrLen] using stored

theorem stuck_of_zero (shaped : volume.Shaped) (pastStart : logStart ≤ position)
    (zero : position + hdrLen < volume.dev.capacity → volume.dev.image (position + 8) = 0)
    (tree : Tree) : LogScan.Stuck volume.recordAt apply tree position := by
  intro record size found
  obtain ⟨_, holds, _, _, inside⟩ := (recordAt_eq_some_iff shaped pastStart record).mp found
  exact apply_type_zero (holds.type_eq.trans (zero inside)) tree

namespace KFS

/-- The regular records of a volume's log replay, soundly, to this tree. -/
def LogTree (volume : KFS) (tree : Tree) : Prop :=
  ∃ records, LogScan.Laid volume.recordAt logStart records volume.wOff ∧
    (∀ record ∈ records, Regular record) ∧
    applyAll apply empty records = some tree ∧
    SoundThrough empty records

theorem LogTree.logs {before after : KFS} {next : Tree} (ready : before.Ready)
    (logTree : before.LogTree tree) (logs : Logs before after tree next) : after.LogTree next := by
  obtain ⟨records, laid, regular, applies, sound⟩ := logTree
  obtain ⟨added, grown, addedRegular, addedApplies, addedSound⟩ := logs
  have transferred :=
    laid_transfer ready.toShaped (grown.toGrows.shaped ready.toShaped)
      grown.sameEnd grown.sameBlocks (le_refl _) grown.agree laid
  refine ⟨records ++ added, transferred.append grown.laid,
    forall_mem_append.mpr ⟨regular, addedRegular⟩, ?_, sound.append applies addedSound⟩
  rw [applyAll_append, applies]
  exact addedApplies

/-- Every byte from the cursor to the end of the device is zero. -/
def BlankTail (volume : KFS) : Prop :=
  ∀ index, volume.wOff ≤ index → index < volume.dev.capacity → volume.dev.image index = 0

theorem BlankTail.grows {before after : KFS} (blank : before.BlankTail)
    (grows : Grows before after) : after.BlankTail := by
  intro index high inside
  rw [grows.untouched index high]
  apply blank index (le_trans grows.forward high)
  simpa only [capacity, grows.sameBlocks] using inside

theorem laid_boot (shaped : volume.Shaped) (sameEnd : volume.logEnd = logLimit volume.dev.numBlocks)
    (laid : LogScan.Laid volume.recordAt logStart records final) :
    LogScan.Laid (bootVolume volume.dev).recordAt logStart records final :=
  laid_transfer shaped (bootVolume_shaped volume.dev) sameEnd.symm rfl
    (le_refl _) (fun _ _ => rfl) laid

end KFS

theorem length_superblock (blockSize : UInt32) (numBlocks : UInt64) :
    (superblock blockSize numBlocks).length = 512 := by
  simp [superblock, -reduceReplicate]

theorem valid_superblock (hasSector : 0 < device.numBlocks.toNat) :
    ValidSuperblock (device.splice 0 (superblock 512 device.numBlocks)) := by
  have stored : (device.splice 0 (superblock 512 device.numBlocks)).image.readBytes 0 512 =
      superblock 512 device.numBlocks := by
    have self := readBytes_splice_self device.image 0 (superblock 512 device.numBlocks)
    rwa [length_superblock] at self
  refine ⟨hasSector, ?_, ?_, ?_⟩
  · rw [stored]
    rfl
  · rw [stored]
    exact get32_put32 [75, 70, 83, 49] 512 _ 4 rfl
  · rw [stored]
    have field :=
      get32_put32 ([75, 70, 83, 49] ++ (put32 512 ++ put64 device.numBlocks)) 1
        (put32 1 ++ replicate 488 0) 16 (by simp)
    have sameBytes : [75, 70, 83, 49] ++ (put32 512 ++ put64 device.numBlocks) ++
          (put32 1 ++ (put32 1 ++ replicate 488 0)) =
        superblock 512 device.numBlocks := by
      simp only [superblock, append_assoc]
    rw [sameBytes] at field
    rw [field]
    decide

theorem formatVolume_ready (device : BlockDev) : (formatVolume device).Ready where
  preloadShort := zero_le _
  endInside := logLimit_le device
  cursorPast := le_refl _

theorem superblock_written (manyBlocks : 16 ≤ device.numBlocks.toNat) :
    device.write 0 (superblock 512 device.numBlocks) =
      some (device.splice 0 (superblock 512 device.numBlocks)) := by
  apply write_eq_splice
  · rw [length_superblock]
    rfl
  · rw [length_superblock]
    simp only [capacity, blkSize]
    omega

/-! ## The records of a format -/

def rootRecord : Record := inodeRecord ⟨rootIno, 0, kindDir, 0⟩

theorem size_rootRecord : rootRecord.size = 22 := by decide

def formattedDevice (vol : BlockDev) : BlockDev :=
  ((vol.splice 0 (superblock 512 vol.numBlocks)).splice logStart
      rootRecord.frame).splice (logStart + 22)
    (checkpointRecord (rootIno + 1)).frame

/-- A format that finds room pushes the root and a checkpoint. -/
theorem formatLog_eq_ok_iff : formatLog (formatVolume device) = (.ok (), volume) ↔
    logStart + 35 ≤ logLimit device.numBlocks ∧
      volume = ((formatVolume device).pushCounted rootRecord).push
        (checkpointRecord (rootIno + 1)) := by
  have ready := formatVolume_ready device
  have rooted := (grows_pushCounted (formatVolume device) rootRecord).ready ready
  have size := size_rootRecord
  have outcome := append_outcome ready rootRecord
  have logged : formatLog = (append rootRecord >>= fun _ => appendCheckpoint) := rfl
  rw [logged]
  cases result : append rootRecord (formatVolume device)
  rw [result] at outcome
  cases outcome with
  | full noRoom =>
    change logLimit device.numBlocks < logStart + _ at noRoom
    rw [Effect.bind_of_error result]
    simp only [Prod.mk.injEq, reduceCtorEq, false_and, false_iff]
    omega
  | plain _ fits =>
    rw [Effect.bind_of_ok result, appendCheckpoint, writeRecord_eq rooted, size_checkpointRecord]
    change (if logLimit device.numBlocks < logStart + rootRecord.size + 13 then _ else _) = _ ↔ _
    rw [size]
    split
    · simp only [Prod.mk.injEq, reduceCtorEq, false_and, false_iff]
      omega
    · rw [Prod.mk.injEq, eq_comm (a := volume)]
      exact and_congr_left fun _ => iff_of_true rfl (by omega)
  | pacedFull due | paced due => exact absurd (show (0 + 1) % cpEvery = 0 from due) (by decide)

variable {formatted : BlockDev}

theorem formatResult_eq_ok_iff {result : Except FsError Unit × KFS} :
    formatResult result = .ok formatted ↔ ∃ volume, result = (.ok (), volume) ∧
      volume.dev = formatted := by
  obtain ⟨status, volume⟩ := result
  cases status <;> simp [formatResult]

theorem formatKFS_eq_ok_iff : formatKFS device = .ok formatted ↔
    16 ≤ device.numBlocks.toNat ∧ logStart + 35 ≤ logLimit device.numBlocks ∧
      formatted = formattedDevice device := by
  by_cases few : device.geometry.2 < 16
  · have short := UInt64.lt_iff_toNat_lt.mp few
    rw [formatKFS, if_pos (.inr few)]
    refine iff_of_false nofun fun many => ?_
    exact absurd many.1 (not_le.mpr short)
  have many : 16 ≤ device.numBlocks.toNat := UInt64.le_iff_toNat_le.mp (UInt64.not_lt.mp few)
  have written : device.write 0 (superblock 512 device.geometry.2) = _ := superblock_written many
  rw [formatKFS, if_neg (not_or.mpr ⟨fun other => other rfl, few⟩), written]
  rw [formatResult_eq_ok_iff]
  simp only [formatLog_eq_ok_iff]
  constructor
  · rintro ⟨_, ⟨room, rfl⟩, rfl⟩
    exact ⟨many, room, rfl⟩
  · rintro ⟨_, room, rfl⟩
    exact ⟨_, ⟨room, rfl⟩, rfl⟩

/-- The records of a format lie at the start of its log. -/
theorem formattedDevice_laid (room : logStart + 35 ≤ logLimit device.numBlocks) :
    LogScan.Laid (bootVolume (formattedDevice device)).recordAt logStart
      [rootRecord, checkpointRecord (rootIno + 1)] (logStart + 35) := by
  have ready := formatVolume_ready (device.splice 0 (superblock 512 device.numBlocks))
  have root := extends_pushCounted ready (readable_inodeRecord ⟨rootIno, 0, kindDir, 0⟩)
    (by change ¬ logLimit device.numBlocks < logStart + rootRecord.size; rw [size_rootRecord]; omega)
  have whole := root.trans ready (extends_push (root.toGrows.ready ready)
    (readable_checkpointRecord (rootIno + 1)) (by
      change ¬ logLimit device.numBlocks < logStart + rootRecord.size + _
      rw [size_rootRecord, size_checkpointRecord]
      omega))
  exact laid_boot (whole.toGrows.shaped ready.toShaped) rfl whole.laid

/-- Replay applies no record at this position, whatever tree it reached. -/
def RejectedAt (device : BlockDev) (position : Nat) : Prop :=
  ∀ tree, LogScan.Stuck (bootVolume device).recordAt apply tree position

theorem RejectedAt.of_same_tail {other : BlockDev} (rejected : RejectedAt device position)
    (pastStart : logStart ≤ position) (sameBlocks : other.numBlocks = device.numBlocks)
    (sameTail : ∀ index, position ≤ index → other.image index = device.image index) :
    RejectedAt other position := by
  intro tree record size found
  apply rejected tree record size
  rw [recordAt_eq_some_iff (bootVolume_shaped _) pastStart] at found ⊢
  obtain ⟨sameSize, holds, short, fits, inside⟩ := found
  refine ⟨sameSize, ?_, short, ?_, ?_⟩
  · rw [HoldsAt, ← holds]
    exact readBytes_congr fun index low _ => (sameTail index low).symm
  · rw [bootVolume_logEnd] at fits ⊢
    rwa [sameBlocks] at fits
  · simpa only [bootVolume_dev, capacity, sameBlocks] using inside

theorem formattedDevice_beyond (vol : BlockDev) {index : Nat} (beyond : logStart + 35 ≤ index) :
    (formattedDevice vol).image index = vol.image index := by
  simp only [formattedDevice, image_splice]
  rw [splice_outside _ (.inr (by rw [Record.length_frame, size_checkpointRecord]; omega)), splice_outside _
      (.inr (by rw [Record.length_frame, size_rootRecord]; omega)),
    splice_outside _
      (.inr (by rw [length_superblock]; simp only [logStart] at beyond; omega))]

theorem formattedDevice_gap (vol : BlockDev) : (formattedDevice vol).image (logStart + 21) = 0 := by
  simp only [formattedDevice, image_splice]
  rw [Image.splice_outside _ (.inl (by omega)), Image.splice,
    if_pos ⟨by omega, by rw [Record.length_frame, size_rootRecord]; omega⟩,
    Nat.add_sub_cancel_left]
  decide +kernel

theorem formattedDevice_valid (hasSector : 0 < device.numBlocks.toNat) :
    ValidSuperblock (formattedDevice device) := by
  refine (valid_superblock hasSector).of_agree rfl fun index low => ?_
  have beforeLast : index < logStart + 22 := by omega
  exact ((splice_outside _ (.inl beforeLast)).trans (splice_outside _ (.inl low))).symm

end KernelLane.Kfs
