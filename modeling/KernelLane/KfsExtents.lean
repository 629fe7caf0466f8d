import KernelLane.KfsRecords
import KernelLane.KfsTorn

namespace KernelLane.Kfs

open Function List Record LogScan Sizes Tree

/-!
# How long a replayed file can get

The offset of a data record comes from the wire unchecked.  Replay fills the
gap in front of it with zeros, so one record can make a file longer than
everything that was ever recorded for it and the device together, and past
the largest signed offset replay runs out of the file's bytes.  This module
says which records are the ones to blame.
-/

def Record.bytesFor (ino : UInt32) (record : Record) : Nat :=
  if record.Writes ∧ dataIno record.payload = ino then dataLength record.payload
  else 0

variable {record : Record} {device : BlockDev} {records : List Record}

theorem Record.bytesFor_writes (writes : record.Writes) :
    record.bytesFor (dataIno record.payload) = dataLength record.payload :=
  if_pos ⟨writes, rfl⟩

def recorded (records : List Record) (ino : UInt32) : Nat := (records.map (bytesFor ino)).sum

@[simp] theorem recorded_snoc (records : List Record) (record : Record) (ino : UInt32) :
    recorded (records ++ [record]) ino = recorded records ino + record.bytesFor ino := by
  simp [recorded]

/-- The mount's replay comes through this tree, behind these records. -/
def ReplayReaches (device : BlockDev) (records : List Record) (tree : Tree) : Prop :=
  ValidSuperblock device ∧ (∃ stop,
      LogScan.Laid (bootVolume device).recordAt logStart records stop) ∧
    applyAll apply empty records = some tree

/--
The mount ends without a panic, and no file is ever longer than the bytes
recorded for it plus the device.
-/
structure MountSafe (device : BlockDev) : Prop where
  returns : mountKFS device ≠ .panicked
  bounded : ∀ records tree, ReplayReaches device records tree → ∀ ino,
    (tree.data ino).length ≤ recorded records ino + device.capacity

/--
A write within reach: it ends below the largest signed offset and begins
within the recorded bytes and the device, or it begins inside its file.
-/
def InReach (device : BlockDev) (before : List Record) (record : Record) : Prop :=
  record.Writes → record.writeEnd < 2 ^ 63 ∧ (dataOff record.payload).toNat ≤
      recorded before (dataIno record.payload) + device.capacity ∨
    (dataOff record.payload).toNat ≤ after (fun _ => 0) before (dataIno record.payload)

theorem sizes_empty : empty.sizes = fun _ => 0 := rfl

theorem Sizes.grow_writes (sizes : Sizes) (writes : record.Writes) :
    sizes.grow record (dataIno record.payload) =
      if record.writeEnd < 2 ^ 63 then max (sizes (dataIno record.payload)) record.writeEnd
      else sizes (dataIno record.payload) := by
  rw [grow, if_pos ⟨writes.1, writes.2.1⟩, update_self, if_neg writes.2.2]

theorem Sizes.grow_le (sizes : Sizes) {ino : UInt32}
    (spares : ¬ (record.Writes ∧ dataIno record.payload = ino)) :
    sizes.grow record ino ≤ sizes ino := by
  unfold grow
  split
  next data =>
    by_cases same : dataIno record.payload = ino
    · subst same
      rw [update_self, if_pos]
      · exact Nat.zero_le _
      · by_contra writes
        exact spares ⟨⟨data.1, data.2, writes⟩, rfl⟩
    · rw [update_of_ne (Ne.symm same)]
  · exact Nat.le_refl _

theorem Sizes.grow_bounded {before : List Record} (reach : InReach device before record)
    (bounded : ∀ ino, after (fun _ => 0) before ino ≤ recorded before ino + device.capacity)
    (ino : UInt32) :
    after (fun _ => 0) (before ++ [record]) ino ≤
      recorded (before ++ [record]) ino + device.capacity := by
  have old := bounded ino
  rw [after, foldl_append, foldl_cons, foldl_nil, recorded_snoc]
  change (after (fun _ => 0) before).grow record ino ≤ _
  by_cases hit : record.Writes ∧ dataIno record.payload = ino
  · obtain ⟨writes, rfl⟩ := hit
    rw [grow_writes _ writes, bytesFor_writes writes]
    have reached := reach writes
    have ending : record.writeEnd = (dataOff record.payload).toNat +
      dataLength record.payload := rfl
    by_cases below : record.writeEnd < 2 ^ 63
    · rw [if_pos below]
      omega
    · rw [if_neg below]
      omega
  · have kept := (after (fun _ => 0) before).grow_le hit
    rw [bytesFor, if_neg hit]
    omega

/--
Well-formed records are all applied, unless one of them crashes the reader
behind applied ones.
-/
theorem applyAll_or_crash {tree : Tree} (wellFormed : ∀ record ∈ records, record.WellFormed) :
    (∃ next, applyAll apply tree records = some next) ∨ ∃ first record rest middle,
      records = first ++ record :: rest ∧ applyAll apply tree first = some middle ∧
        middle.apply record = .crashed := by
  induction records generalizing tree with
  | nil => exact .inl ⟨tree, rfl⟩
  | cons record rest hypothesis =>
    rw [forall_mem_cons] at wellFormed
    cases tree.outcome record with
    | malformed malformed _ => exact absurd wellFormed.1 malformed
    | far _ _ crashed => exact .inr ⟨[], record, rest, tree, rfl, rfl, crashed⟩
    | near _ _ middle applied _ =>
      rcases hypothesis wellFormed.2 with
        ⟨next, applies⟩ | ⟨first, last, later, final, split, applies, crashed⟩
      · refine .inl ⟨next, ?_⟩
        rw [applyAll, applied]
        exact applies
      · refine .inr ⟨record :: first, last, later, final, by rw [split]; rfl, ?_, crashed⟩
        rw [applyAll, applied]
        exact applies

/-- A safe mount has only writes within reach behind well-formed records. -/
theorem inReach_of_safe {before : List Record} {stop : Nat} (safe : MountSafe device)
    (valid : ValidSuperblock device)
    (laid : LogScan.Laid (bootVolume device).recordAt logStart (before ++ [record]) stop)
    (wellFormed : ∀ earlier ∈ before, earlier.WellFormed) : InReach device before record := by
  intro writes
  have allWellFormed : ∀ earlier ∈ before ++ [record], earlier.WellFormed :=
    forall_mem_append.mpr ⟨wellFormed,
      forall_mem_singleton.mpr (.inr (.inr (.inl ⟨writes.1, writes.2.1⟩)))⟩
  rcases applyAll_or_crash allWellFormed with
    ⟨tree, applies⟩ | ⟨first, last, rest, middle, split, applies, crashed⟩
  · obtain ⟨_, near, sizes⟩ := near_of_applyAll applies
    have bound := safe.bounded _ _ ⟨valid, ⟨stop, laid⟩, applies⟩ (dataIno record.payload)
    rw [sizes_empty, Sizes.near_append] at near
    obtain ⟨_, notFar, _⟩ := near
    rw [sizes_empty, Sizes.after, foldl_append, foldl_cons, foldl_nil] at sizes
    have length := congrFun sizes (dataIno record.payload)
    rw [Sizes.grow_writes _ writes] at length
    rw [recorded_snoc, bytesFor_writes writes] at bound
    by_cases inside : (dataOff record.payload).toNat ≤
      Sizes.after (fun _ => 0) before (dataIno record.payload)
    · exact .inr inside
    refine .inl ?_
    have below : record.writeEnd < 2 ^ 63 := by
      by_contra beyond
      exact notFar ⟨writes, by omega, by omega⟩
    rw [if_pos below] at length
    refine ⟨below, ?_⟩
    simp only [writeEnd, Tree.sizes] at length
    omega
  · rw [split] at laid
    exact absurd (mountKFS_of_crash valid laid applies crashed) safe.returns

theorem far_of_panicked (panicked : mountKFS device = .panicked) :
    ∃ before record stop tree, ValidSuperblock device ∧
      LogScan.Laid (bootVolume device).recordAt logStart (before ++ [record]) stop ∧
      applyAll apply empty before = some tree ∧ tree.sizes.Far record := by
  rcases valid_or_failed device with valid | ⟨failure, failed⟩
  · rw [mountKFS_of_valid valid] at panicked
    have scanned : scan (bootVolume device).recordAt apply
          (bootVolume device).logEnd (bootVolume device).toTree
          (bootVolume device).wOff =
        none := by
      cases outcome : scan (bootVolume device).recordAt apply
        (bootVolume device).logEnd (bootVolume device).toTree
        (bootVolume device).wOff with
      | none => rfl
      | some result =>
        rw [KFS.replay, outcome] at panicked
        cases panicked
    obtain ⟨before, middle, tree, record, size, laid, applies, found,
      crashed⟩ := scan_eq_none scanned
    refine ⟨before, record, _, tree, valid, laid.snoc found, applies, ?_⟩
    cases tree.outcome record with
    | malformed _ rejected => simp [rejected] at crashed
    | far _ far _ => exact far
    | near _ _ next applied _ => simp [applied] at crashed
  · rw [failed] at panicked
    cases panicked

theorem bounded_of_reach (reach : ∀ before record stop,
      LogScan.Laid (bootVolume device).recordAt logStart (before ++ [record]) stop →
      (∀ earlier ∈ before, earlier.WellFormed) → InReach device before record) {stop : Nat}
    (laid : LogScan.Laid (bootVolume device).recordAt logStart records stop)
    (wellFormed : ∀ record ∈ records, record.WellFormed) (ino : UInt32) :
    after (fun _ => 0) records ino ≤ recorded records ino + device.capacity := by
  induction records using reverseRecOn generalizing stop ino with
  | nil => exact Nat.zero_le _
  | append_singleton before record hypothesis =>
    obtain ⟨middle, leading, _⟩ := laid.split
    have earlier : ∀ record ∈ before, record.WellFormed :=
      fun record member => wellFormed record (mem_append_left _ member)
    exact grow_bounded (reach before record stop laid earlier) (hypothesis leading earlier) ino

/--
The mount is safe exactly when every write that lies behind well-formed
records is within reach.
-/
theorem mount_safe_iff (device : BlockDev) : MountSafe device ↔ (ValidSuperblock device →
    ∀ before record stop, LogScan.Laid (bootVolume device).recordAt logStart
        (before ++ [record]) stop → (∀ earlier ∈ before, earlier.WellFormed) →
      InReach device before record) := by
  constructor
  · intro safe valid before record stop laid wellFormed
    exact inReach_of_safe safe valid laid wellFormed
  · intro reach
    constructor
    · intro panicked
      obtain ⟨before, record, stop, tree, valid, laid, applies, far⟩ := far_of_panicked panicked
      obtain ⟨wellFormed, _, sizes⟩ := near_of_applyAll applies
      have reached := reach valid before record stop laid wellFormed far.1
      obtain ⟨_, beyond, behind⟩ := far
      rw [sizes, sizes_empty] at behind
      omega
    · rintro records tree ⟨valid, ⟨stop, laid⟩, applies⟩ ino
      obtain ⟨wellFormed, _, sizes⟩ := near_of_applyAll applies
      have bound := bounded_of_reach (reach valid) laid wellFormed ino
      rw [← sizes_empty, ← sizes] at bound
      exact bound

/-! ## A file that outgrows the device -/

def oneFileLog : List Record :=
  [inodeRecord ⟨rootIno, 0, kindDir, 0⟩, checkpointRecord 2, inodeRecord ⟨2, 0, kindFile, 0⟩,
    direntRecord rootIno [102] 2]

/--
One byte written at offset `2 ^ 30` of a new file, on a device of half a
mebibyte: the mount builds a file of a gibibyte.
-/
theorem sparse_write_outgrows_device : ∃ formatted start created live,
    formatKFS zeroDevice = .ok formatted ∧ mountKFS formatted = .mounted start ∧
      Op.Succeeds start (.create onePath) created ∧
      Op.Succeeds created (.writeFile onePath 0x40000000 [1]) live ∧ ¬ MountSafe live.dev := by
  obtain ⟨formatted, start, live, format, mounted, run, facts⟩ :=
    of_evaluates (show evaluates (fun _ live => live.dev.numBlocks = 1024 ∧
        (follow (bootVolume live.dev).recordAt logStart
          (oneFileLog ++ [dataRecord 2 0x40000000 [1]])).isSome)
      [.create onePath, .writeFile onePath 0x40000000 [1]] zeroDevice by decide +kernel)
  obtain ⟨blocks, followed⟩ := of_decide_eq_true facts
  obtain ⟨stop, followed⟩ := Option.isSome_iff_exists.mp followed
  have capacity : live.dev.capacity = 524288 := by
    rw [BlockDev.capacity, blocks]
    rfl
  obtain ⟨⟨_, inStep⟩, backed, _⟩ := durable_formatted zeroDevice_zeroed format mounted
  have grows := (later_grows inStep.ready (run.weaken fun step => step.returns)).2
  have valid := (backed.grows inStep.ready grows).superblock
  have unsafeMount : ¬ MountSafe live.dev := by
    intro safe
    obtain ⟨wellFormed, _, _⟩ :=
      near_of_applyAll (show applyAll apply empty oneFileLog = some _ from rfl)
    have reach := inReach_of_safe safe valid (laid_of_follow followed) wellFormed
      ⟨rfl, by decide, by decide⟩
    rw [capacity] at reach
    revert reach
    decide +kernel
  obtain ⟨created, creates, writes⟩ := run.pair
  exact ⟨formatted, start, created, live, format, mounted, creates, writes, unsafeMount⟩

end KernelLane.Kfs
