import KernelLane.KfsTree

namespace KernelLane.Kfs

open LogScan Nat Record

/-!
# What appending does to the log

Every store operation reaches the device through `append` alone.  An append
leaves the bytes before the cursor and the bytes past the new cursor alone;
between the two lie the appended records.
-/

namespace KFS

/-- A volume whose cursor does not precede its log region. -/
structure Ready (volume : KFS) : Prop extends volume.Shaped where
  cursorPast : logStart ≤ volume.wOff

/-- The log may have grown, and nothing else on the device changed. -/
structure Grows (before after : KFS) : Prop where
  sameEnd : after.logEnd = before.logEnd
  sameBlocks : after.dev.numBlocks = before.dev.numBlocks
  samePreload : after.logData = before.logData
  forward : before.wOff ≤ after.wOff
  agree : Image.AgreeBelow before.wOff before.dev.image after.dev.image
  untouched : ∀ index, after.wOff ≤ index → after.dev.image index = before.dev.image index

/-- The log grew by exactly these records. -/
structure Extends (before after : KFS) (added : List Record) : Prop extends Grows before after where
  laid : LogScan.Laid after.recordAt before.wOff added after.wOff

theorem Grows.refl (volume : KFS) : Grows volume volume :=
  ⟨rfl, rfl, rfl, le_refl _, fun _ _ => rfl, fun _ _ => rfl⟩

theorem Grows.trans {first second third : KFS} (left : Grows first second)
    (right : Grows second third) : Grows first third where
  sameEnd := right.sameEnd.trans left.sameEnd
  sameBlocks := right.sameBlocks.trans left.sameBlocks
  samePreload := right.samePreload.trans left.samePreload
  forward := le_trans left.forward right.forward
  agree := fun index low =>
    (left.agree index low).trans (right.agree index (lt_of_lt_of_le low left.forward))
  untouched := fun index high =>
    (right.untouched index high).trans (left.untouched index (le_trans right.forward high))

variable {before after volume : KFS} {record : Record}

theorem Grows.shaped (grows : Grows before after) (shaped : before.Shaped) : after.Shaped where
  preloadShort := grows.samePreload ▸ shaped.preloadShort
  endInside := by
    simpa only [BlockDev.capacity, grows.sameEnd, grows.sameBlocks] using shaped.endInside

theorem Grows.ready (grows : Grows before after) (ready : before.Ready) : after.Ready where
  toShaped := grows.shaped ready.toShaped
  cursorPast := le_trans ready.cursorPast grows.forward

theorem Extends.refl (volume : KFS) : Extends volume volume [] where
  toGrows := Grows.refl volume
  laid := .nil _

theorem Extends.trans {first second third : KFS} {added later : List Record} (ready : first.Ready)
    (left : Extends first second added) (right : Extends second third later) :
    Extends first third (added ++ later) where
  toGrows := left.toGrows.trans right.toGrows
  laid := by
    have secondShaped := left.toGrows.shaped ready.toShaped
    have thirdShaped := right.toGrows.shaped secondShaped
    have transferred :=
      laid_transfer secondShaped thirdShaped right.sameEnd right.sameBlocks
        ready.cursorPast right.agree left.laid
    exact transferred.append right.laid

def push (volume : KFS) (record : Record) : KFS :=
  { volume with
    dev := volume.dev.splice volume.wOff record.frame
    wOff := volume.wOff + record.size }

theorem grows_push (volume : KFS) (record : Record) : Grows volume (volume.push record) where
  sameEnd := rfl
  sameBlocks := rfl
  samePreload := rfl
  forward := le_add_right _ _
  agree := fun _ low => (Image.splice_outside _ (Or.inl low)).symm
  untouched := fun _ high =>
    Image.splice_outside _ (Or.inr (by rw [length_frame]; exact high))

def pushCounted (volume : KFS) (record : Record) : KFS :=
  { volume.push record with recs := volume.recs + 1 }

theorem grows_pushCounted (volume : KFS) (record : Record) :
    Grows volume (volume.pushCounted record) :=
  (grows_push volume record).trans ⟨rfl, rfl, rfl, le_refl _, fun _ _ => rfl, fun _ _ => rfl⟩

/-- The device with a record spliced in at the cursor, and behind it the
checkpoint that is due. -/
def spliced (volume : KFS) (record : Record) : BlockDev :=
  volume.dev.splice volume.wOff (record.frame ++
    if record.type ≠ recCheckpoint ∧ (volume.recs + 1) % cpEvery = 0 then
      (checkpointRecord volume.nextIno).frame
    else [])

/-- Two volumes with the same device, preload, cursor and log end. -/
structure SameLog (before after : KFS) : Prop where
  dev : after.dev = before.dev
  logData : after.logData = before.logData
  wOff : after.wOff = before.wOff
  logEnd : after.logEnd = before.logEnd

/-- Changing only the tree or the pacing counter does not grow the log. -/
theorem SameLog.extends (same : SameLog before after) : Extends before after [] where
  sameEnd := same.logEnd
  sameBlocks := by rw [same.dev]
  samePreload := same.logData
  forward := le_of_eq same.wOff.symm
  agree := fun _ _ => by rw [same.dev]
  untouched := fun _ _ => by rw [same.dev]
  laid := by
    rw [same.wOff]
    exact .nil _

theorem size_checkpointRecord (saved : UInt32) : (checkpointRecord saved).size = 13 := by
  simp [checkpointRecord, Record.size, hdrLen]

variable (ready : volume.Ready)
include ready

theorem writeRecord_eq (record : Record) : writeRecord record volume =
    if volume.logEnd < volume.wOff + record.size then (.error .noSpace, volume)
    else (.ok (), volume.push record) := by
  unfold writeRecord
  split
  · rfl
  rename_i fits
  have endInside := ready.endInside
  rw [writeRaw_eq (by rw [length_frame]; omega)]
  rfl

/-- A spliced record that replay can read is the next record of the log. -/
theorem extends_push (readable : record.Readable)
    (fits : ¬ volume.logEnd < volume.wOff + record.size) :
    Extends volume (volume.push record) [record] where
  toGrows := grows_push volume record
  laid := by
    have endInside := ready.endInside
    have nonempty := readable.nonempty
    have shaped := (grows_push volume record).shaped ready.toShaped
    refine .cons ?_ (.nil _)
    rw [recordAt_eq_some_iff shaped ready.cursorPast]
    refine ⟨rfl, ?_, readable.short, ?_, ?_⟩
    · have stored := Image.readBytes_splice_self volume.dev.image volume.wOff record.frame
      rw [length_frame] at stored
      exact stored
    · simp only [push]
      omega
    · simp only [push, BlockDev.capacity_splice]
      simp only [Record.size] at fits
      omega

/-- Everything an append can do. -/
inductive AppendOutcome (volume : KFS) (record : Record) : Except FsError Unit × KFS → Prop where
  | full (noRoom : volume.logEnd < volume.wOff + record.size) :
    AppendOutcome volume record (.error .noSpace, volume)
  | plain (early : (volume.recs + 1) % cpEvery ≠ 0)
    (fits : ¬ volume.logEnd < volume.wOff + record.size) :
    AppendOutcome volume record (.ok (), volume.pushCounted record)
  | pacedFull (due : (volume.recs + 1) % cpEvery = 0)
    (fits : ¬ volume.logEnd < volume.wOff + record.size)
    (noRoom : volume.logEnd < volume.wOff + record.size + (checkpointRecord volume.nextIno).size) :
    AppendOutcome volume record (.error .noSpace, volume.pushCounted record)
  | paced (due : (volume.recs + 1) % cpEvery = 0)
    (fits : ¬ volume.logEnd < volume.wOff + record.size)
    (checkpointFits : ¬ volume.logEnd < volume.wOff + record.size +
      (checkpointRecord volume.nextIno).size) :
    AppendOutcome volume record (.ok (), (volume.pushCounted record).push
      (checkpointRecord volume.nextIno))

theorem append_outcome (record : Record) : AppendOutcome volume record (append record volume) := by
  unfold append
  by_cases fits : volume.logEnd < volume.wOff + record.size
  · have failed : writeRecord record volume = (.error .noSpace, volume) := by
      rw [writeRecord_eq ready, if_pos fits]
    rw [Effect.bind_of_error failed]
    exact .full fits
  · have succeeded : writeRecord record volume = (.ok (), volume.push record) := by
      rw [writeRecord_eq ready, if_neg fits]
    rw [Effect.bind_of_ok succeeded, Effect.change_bind, Effect.look_bind]
    split
    · rename_i due
      have pushedReady : (volume.pushCounted record).Ready :=
        (grows_pushCounted volume record).ready ready
      change AppendOutcome volume record (writeRecord (checkpointRecord volume.nextIno)
        (volume.pushCounted record))
      rw [writeRecord_eq pushedReady]
      split
      · rename_i noRoom
        exact .pacedFull due fits noRoom
      · rename_i checkpointFits
        exact .paced due fits checkpointFits
    · rename_i early
      exact .plain early fits

theorem extends_pushCounted (readable : record.Readable)
    (fits : ¬ volume.logEnd < volume.wOff + record.size) :
    Extends volume (volume.pushCounted record) [record] := by
  have counted : Extends (volume.push record) (volume.pushCounted record) [] :=
    SameLog.extends ⟨rfl, rfl, rfl, rfl⟩
  simpa using (extends_push ready readable fits).trans ready counted

theorem append_toTree (record : Record) : (append record volume).2.toTree = volume.toTree := by
  have outcome := append_outcome ready record
  generalize append record volume = result at outcome ⊢
  cases outcome <;> rfl

theorem append_dev {after : KFS} (counted : record.type ≠ recCheckpoint)
    (appended : append record volume = (.ok (), after)) : after.dev = volume.spliced record := by
  have outcome := append_outcome ready record
  rw [appended] at outcome
  cases outcome with
  | plain early _ => simp [spliced, early, pushCounted, push]
  | paced due _ _ =>
    rw [spliced, if_pos ⟨counted, due⟩, BlockDev.splice, ← Image.splice_splice_adjacent,
      length_frame]
    rfl

theorem append_grows (record : Record) : Grows volume (append record volume).2 := by
  have outcome := append_outcome ready record
  generalize append record volume = result at outcome ⊢
  cases outcome with
  | full _ => exact Grows.refl volume
  | plain | pacedFull => exact grows_pushCounted volume record
  | paced _ _ _ => exact (grows_pushCounted volume record).trans (grows_push _ _)

theorem append_wOff (record : Record) :
    (append record volume).2.wOff ≤ volume.wOff + record.size + 13 := by
  have outcome := append_outcome ready record
  generalize append record volume = result at outcome ⊢
  cases outcome with
  | full _ =>
    dsimp only
    omega
  | plain | pacedFull => exact le_add_right _ _
  | paced _ _ _ => simp only [push, pushCounted, size_checkpointRecord, le_refl]

theorem append_of_room (room : volume.wOff + record.size + 13 ≤ volume.logEnd) :
    ∃ after, append record volume = (.ok (), after) ∧ Grows volume after ∧
      after.toTree = volume.toTree ∧ after.wOff ≤ volume.wOff + record.size + 13 := by
  have grows := append_grows ready record
  have sameTree := append_toTree ready record
  have cursor := append_wOff ready record
  have outcome := append_outcome ready record
  generalize append record volume = result at grows sameTree cursor outcome ⊢
  cases outcome with
  | full noRoom => omega
  | plain | paced => exact ⟨_, rfl, grows, sameTree, cursor⟩
  | pacedFull _ _ noRoom =>
    rw [size_checkpointRecord] at noRoom
    omega

/-- A readable record is appended as itself, perhaps with a checkpoint. -/
theorem append_extends (readable : record.Readable) :
    ∃ added, Extends volume (append record volume).2 added ∧ (∀ entry ∈ added,
        entry = record ∨ entry = checkpointRecord volume.nextIno) ∧
      ((append record volume).1 = .ok () → added = [record] ∨
        added = [record, checkpointRecord volume.nextIno]) := by
  have outcome := append_outcome ready record
  generalize append record volume = result at outcome ⊢
  cases outcome with
  | full _ => exact ⟨[], Extends.refl volume, by simp, by simp⟩
  | plain _ fits => exact ⟨[record], extends_pushCounted ready readable fits, by simp, by simp⟩
  | pacedFull _ fits _ =>
    exact ⟨[record], extends_pushCounted ready readable fits, by simp, by simp⟩
  | paced _ fits checkpointFits =>
    have recordPart := extends_pushCounted ready readable fits
    have checkpointPart : Extends (volume.pushCounted record) ((volume.pushCounted record).push
          (checkpointRecord volume.nextIno))
        [checkpointRecord volume.nextIno] :=
      extends_push (recordPart.toGrows.ready ready) (readable_checkpointRecord _) checkpointFits
    exact ⟨[record, checkpointRecord volume.nextIno],
      recordPart.trans ready checkpointPart, by simp, by simp⟩

end KFS

/-- The records a store without deletions writes, all of which replay. -/
inductive Regular : Record → Prop where
  | inode (node : Inode) : Regular (inodeRecord node)
  | dirent {parent : UInt32} {name : Bytes} {ino : UInt32} (short : name.length ≤ maxName) :
    Regular (direntRecord parent name ino)
  | data {ino : UInt32} {off : UInt64} {bytes : Bytes} (short : bytes.length ≤ maxWrite)
    (below : off.toNat + bytes.length < 2 ^ 63) :
    Regular (dataRecord ino off bytes)
  | truncate (ino : UInt32) : Regular (truncateRecord ino)
  | checkpoint (saved : UInt32) : Regular (checkpointRecord saved)

theorem Regular.readable {record : Record} (regular : Regular record) : record.Readable := by
  cases regular with
  | inode node => exact readable_inodeRecord node
  | dirent short => exact readable_direntRecord short
  | data short below => exact readable_dataRecord short
  | truncate ino => exact readable_truncateRecord ino
  | checkpoint saved => exact readable_checkpointRecord saved

theorem Regular.applies {record : Record} (regular : Regular record) (tree : Tree) :
    ∃ next, tree.apply record = .applied next := by
  cases regular with
  | inode node => exact ⟨_, tree.apply_inodeRecord node⟩
  | dirent short => exact ⟨_, tree.apply_direntRecord short⟩
  | data short below => exact ⟨_, tree.apply_dataRecord short below⟩
  | truncate ino => exact ⟨_, tree.apply_truncateRecord ino⟩
  | checkpoint saved => exact ⟨_, tree.apply_checkpointRecord saved⟩

theorem applyAll_regular {records : List Record} (regular : ∀ record ∈ records, Regular record)
    (tree : Tree) : ∃ next, applyAll Tree.apply tree records = some next := by
  induction records generalizing tree with
  | nil => exact ⟨tree, rfl⟩
  | cons record rest hypothesis =>
    obtain ⟨middle, applied⟩ := (regular record (by simp)).applies tree
    obtain ⟨next, rest⟩ := hypothesis (fun entry member => regular entry (by simp [member])) middle
    exact ⟨next, by simp only [applyAll, applied, rest]⟩

namespace KFS

/-- The log grew by regular records only. -/
def GrowsRegularly (before after : KFS) : Prop :=
  ∃ added, Extends before after added ∧ ∀ record ∈ added, Regular record

theorem GrowsRegularly.trans {first second third : KFS} (ready : first.Ready)
    (left : GrowsRegularly first second) (right : GrowsRegularly second third) :
    GrowsRegularly first third := by
  obtain ⟨added, leftExtends, leftRegular⟩ := left
  obtain ⟨later, rightExtends, rightRegular⟩ := right
  exact ⟨added ++ later, leftExtends.trans ready rightExtends,
    List.forall_mem_append.mpr ⟨leftRegular, rightRegular⟩⟩

theorem append_growsRegularly {volume : KFS} {record : Record} (ready : volume.Ready)
    (regular : Regular record) : GrowsRegularly volume (append record volume).2 := by
  obtain ⟨added, grown, entries, _⟩ := append_extends ready regular.readable
  refine ⟨added, grown, ?_⟩
  intro entry member
  rcases entries entry member with same | same
  · rw [same]
    exact regular
  · rw [same]
    exact .checkpoint _

/--
The log grew by regular records that take one replayed tree to another,
through sound trees only.
-/
def Logs (before after : KFS) (tree next : Tree) : Prop :=
  ∃ added, Extends before after added ∧ (∀ record ∈ added, Regular record) ∧
    applyAll Tree.apply tree added = some next ∧
    SoundThrough tree added

variable {before after : KFS}

theorem Logs.of_sameLog (same : SameLog before after) (tree : Tree) : Logs before after tree tree :=
  ⟨[], same.extends, by simp, rfl, .nil tree⟩

theorem Logs.trans {first second third : KFS} {start middle final : Tree} (ready : first.Ready)
    (left : Logs first second start middle) (right : Logs second third middle final) :
    Logs first third start final := by
  obtain ⟨added, leftExtends, leftRegular, leftApplies, leftSound⟩ := left
  obtain ⟨later, rightExtends, rightRegular, rightApplies, rightSound⟩ := right
  refine ⟨added ++ later, leftExtends.trans ready rightExtends,
    List.forall_mem_append.mpr ⟨leftRegular, rightRegular⟩, ?_,
    leftSound.append leftApplies rightSound⟩
  rw [applyAll_append, leftApplies]
  exact rightApplies

theorem Logs.ready {tree next : Tree} (logs : Logs before after tree next) (ready : before.Ready) :
    after.Ready := by
  obtain ⟨_, grown, _⟩ := logs
  exact grown.toGrows.ready ready

/--
A successful append of a regular record logs that record; a paced checkpoint
behind it changes nothing when the replayed counter is the live one.
-/
theorem Logs.of_append {record : Record} {tree next : Tree} (ready : before.Ready)
    (regular : Regular record) (applied : tree.apply record = .applied next) (sound : next.Sound)
    (sameCounter : next.nextIno = before.nextIno)
    (succeeded : append record before = (.ok (), after)) :
    Logs before after tree next ∧ after.toTree = before.toTree := by
  have sameTree := append_toTree ready record
  obtain ⟨added, grown, entries, shape⟩ := append_extends ready regular.readable
  rw [succeeded] at sameTree grown shape
  refine ⟨⟨added, grown, ?_, ?_⟩, sameTree⟩
  · intro entry member
    rcases entries entry member with same | same
    · rw [same]
      exact regular
    · rw [same]
      exact .checkpoint _
  · rcases shape rfl with single | withCheckpoint
    · rw [single]
      refine ⟨?_, .cons applied sound (.nil next)⟩
      simp only [applyAll, applied]
    · rw [withCheckpoint, ← sameCounter]
      have unchanged := next.apply_checkpointRecord_self
      refine ⟨?_, .cons applied sound (.cons unchanged sound (.nil next))⟩
      simp only [applyAll, applied, unchanged]

end KFS

end KernelLane.Kfs
