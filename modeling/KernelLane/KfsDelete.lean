import KernelLane.KfsRemount

namespace KernelLane.Kfs

open Effect KFS

/-!
# What a remount shows after a deletion

`Delete` logs a tombstone that `apply` rejects, so replay ends right before
it.  Whatever is done afterwards, a remount shows the volume as it was just
before its first deletion, with the deleted path in place.
-/

/-- A remount shows the deleted path absent and everything else as live. -/
def DeletionDurable (path : Bytes) (live : KFS) : Prop :=
  ∃ recovered, mountKFS live.dev = .mounted recovered ∧ recovered.stat path = .error .noEntry ∧
    ∀ other, other ≠ path → recovered.stat other = live.stat other ∧
      recovered.uid other = live.uid other ∧
      recovered.list other = live.list other ∧
      ∀ off count, (readFile other off count recovered).1 =
        (readFile other off count live).1

variable {path leaf : Bytes} {parent : UInt32} {before deleted live : KFS}

theorem delete_ok (ran : delete path before = (.ok (), deleted)) :
    ∃ parent leaf ino, before.walkParent path = .ok (parent, leaf) ∧
      before.lookup parent leaf = some ino ∧
      ∃ logged, append (direntDeleteRecord parent leaf) before = (.ok (), logged) ∧
        KFS.SameLog logged deleted := by
  obtain ⟨parent, resolved, ran⟩ := resolve_ok ran
  cases found : before.lookup parent (leafName path) with
  | none => simp [found] at ran
  | some ino =>
    simp only [found] at ran
    split at ran
    · simp at ran
    obtain ⟨_, unlinked, unlinks, ran⟩ := bind_eq_ok_iff.mp ran
    obtain ⟨_, logged, appended, changed⟩ := bind_eq_ok_iff.mp unlinks
    simp only [change_apply, Prod.mk.injEq, true_and] at changed
    simp only [setData, change_apply, Prod.mk.injEq, true_and] at ran
    refine ⟨parent, _, ino, resolved, found, logged, appended, ?_⟩
    subst changed
    subst ran
    exact ⟨rfl, rfl, rfl, rfl⟩

theorem readable_direntDeleteRecord {name : Bytes} (short : name.length ≤ maxName) :
    (direntDeleteRecord parent name).Readable := by
  simp only [maxName] at short
  constructor
  · simp [direntDeleteRecord]
  · simp [direntDeleteRecord, maxPayload]
    omega

/--
After a deletion, and whatever follows it, replay of the device is stuck at
the cursor that the volume had before the deletion.
-/
theorem stuck_at_tombstone (ready : before.Ready) (short : leaf.length ≤ maxName) {logged : KFS}
    (appended : append (direntDeleteRecord parent leaf) before = (.ok (), logged))
    (sameLog : KFS.SameLog logged deleted) (later : KFS.Grows deleted live)
    (backed : before.Backed) (tree : Tree) :
    LogScan.Stuck (bootVolume live.dev).recordAt Tree.apply tree before.wOff := by
  have readable : (direntDeleteRecord parent leaf).Readable := readable_direntDeleteRecord short
  obtain ⟨added, grown, _, shape⟩ := append_extends ready readable
  rw [appended] at grown shape
  have after := sameLog.extends.toGrows.trans later
  have grownAll := grown.toGrows.trans after
  have bootLaid : LogScan.Laid (bootVolume live.dev).recordAt before.wOff added logged.wOff := by
    refine laid_transfer (grown.toGrows.shaped ready.toShaped)
      (bootVolume_shaped live.dev) ?_ after.sameBlocks ready.cursorPast
      after.agree grown.laid
    rw [grown.sameEnd, backed.limit, ← grownAll.sameBlocks]
    rfl
  obtain ⟨tail, addedShape⟩ : ∃ tail, added = direntDeleteRecord parent leaf :: tail := by
    rcases shape rfl with single | paced
    · exact ⟨_, single⟩
    · exact ⟨_, paced⟩
  rw [addedShape] at bootLaid
  cases bootLaid with
  | cons head _ =>
    intro record size found
    rw [head] at found
    cases found
    exact tree.apply_direntDeleteRecord (by simp only [maxName] at short; omega)

theorem leaf_short {volume : KFS} {tree : Tree} (inStep : volume.InStep tree) {ino : UInt32}
    (found : tree.lookup parent leaf = some ino) : leaf.length ≤ maxName := by
  obtain ⟨records, laid, _, applies, _⟩ := inStep.logTree
  obtain ⟨entry, member, _, sameName⟩ := Tree.lookup_mem found
  have short :=
    names_laid inStep.ready.toShaped (Nat.le_refl _) laid
      (by simp [Tree.empty]) applies entry member
  rwa [sameName] at short

/--
A remount after a deletion from a durable volume, and after any further
calls, shows the volume as it was before the deletion.
-/
theorem remount_before_delete {rest : List Op} (durable : before.Durable)
    (deletes : Op.Succeeds before (.delete path) deleted)
    (later : Run Op.Returns deleted rest live) :
    ∃ recovered info, mountKFS live.dev = .mounted recovered ∧ SameView before recovered ∧
      recovered.stat path = .ok info := by
  obtain ⟨tree, inStep⟩ := durable.inStep
  obtain ⟨parent, leaf, ino, resolved, found, logged, appended, sameLog⟩ := delete_ok deletes
  have treeFound : tree.lookup parent leaf = some ino := by
    rw [← inStep.mirrors.lookup]
    exact found
  have deletedGrows := deletes.returns.grows inStep.ready
  have laterGrows := later_grows (deletedGrows.ready inStep.ready) later
  have stuck :=
    stuck_at_tombstone inStep.ready (leaf_short inStep treeFound) appended
      sameLog laterGrows.2 durable.backed tree
  obtain ⟨remounted, recoveredInStep⟩ :=
    inStep.remount_of_grows durable.backed (deletedGrows.trans laterGrows.2) stuck
  have sameView := inStep.sameView recoveredInStep
  obtain ⟨node, recorded⟩ := inStep.sound.inode_of_lookup treeFound
  have liveRecorded : before.inodes ino = some node := by rw [inStep.mirrors.inodes, recorded]
  refine ⟨_, before.statOf leaf ino, remounted, sameView, ?_⟩
  rw [sameView.stat, stat_eq resolved, found]
  simp [liveRecorded]

theorem not_durable_of_shown {recovered : KFS} {info : StatInfo}
    (remounted : mountKFS live.dev = .mounted recovered) (shown : recovered.stat path = .ok info) :
    ¬ DeletionDurable path live := by
  rintro ⟨other, mountedAgain, absent, _⟩
  rw [remounted] at mountedAgain
  cases mountedAgain
  rw [shown] at absent
  simp at absent

/--
In every recorded history over a zeroed log area that is followed by a
deletion and by any further calls, a remount shows the volume as it was
before the deletion, so the deletion is not durable.
-/
theorem delete_not_durable {device formatted : BlockDev} {start : KFS} {ops rest : List Op}
    (zeroed : ZeroedLog device) (format : formatKFS device = .ok formatted)
    (mounted : mountKFS formatted = .mounted start) (run : Run Op.RecordedStep start ops before)
    (deletes : Op.Succeeds before (.delete path) deleted)
    (later : Run Op.Returns deleted rest live) :
    (∃ recovered, mountKFS live.dev = .mounted recovered ∧ SameView before recovered) ∧
      ¬ DeletionDurable path live := by
  have durable : before.Durable :=
    run.invariant durable_recordedStep (durable_formatted zeroed format mounted)
  obtain ⟨recovered, info, remounted, sameView, shown⟩ :=
    remount_before_delete durable deletes later
  exact ⟨⟨recovered, remounted, sameView⟩, not_durable_of_shown remounted shown⟩

theorem zeroDevice_deleted : ∃ formatted start created deleted,
    formatKFS zeroDevice = .ok formatted ∧ mountKFS formatted = .mounted start ∧
      Run Op.RecordedStep start [.create onePath] created ∧
      Op.Succeeds created (.delete onePath) deleted := by
  obtain ⟨formatted, start, deleted, format, mounted, run, first⟩ :=
    of_evaluates (show evaluates (fun start _ => start.nextIno = 2)
      [.create onePath, .delete onePath] zeroDevice by decide +kernel)
  obtain ⟨created, creates, deletes⟩ := run.pair
  exact ⟨formatted, start, created, deleted, format, mounted,
    recorded_first (of_decide_eq_true first) (by decide) (.cons creates (.nil created)), deletes⟩

/-- Create and delete one file: the file is back after a remount. -/
theorem deleted_file_returns : ∃ formatted start created deleted,
    formatKFS zeroDevice = .ok formatted ∧ mountKFS formatted = .mounted start ∧
      Op.Succeeds start (.create onePath) created ∧ Op.Succeeds created (.delete onePath) deleted ∧
      ¬ DeletionDurable onePath deleted := by
  obtain ⟨formatted, start, created, deleted, format, mounted, run, deletes⟩ := zeroDevice_deleted
  have durable : created.Durable :=
    run.invariant durable_recordedStep (durable_formatted zeroDevice_zeroed format mounted)
  obtain ⟨recovered, info, remounted, _, shown⟩ :=
    remount_before_delete durable deletes (.nil deleted)
  cases run with
  | cons first rest =>
    cases rest
    exact ⟨formatted, start, created, deleted, format, mounted, first.2,
      deletes, not_durable_of_shown remounted shown⟩

/-- The general statement at that history. -/
theorem delete_not_durable_for_one_file : ∃ formatted start created deleted,
    formatKFS zeroDevice = .ok formatted ∧ mountKFS formatted = .mounted start ∧
      Run Op.RecordedStep start [.create onePath] created ∧
      Op.Succeeds created (.delete onePath) deleted ∧
      ((∃ recovered, mountKFS deleted.dev = .mounted recovered ∧ SameView created recovered) ∧
        ¬ DeletionDurable onePath deleted) := by
  obtain ⟨formatted, start, created, deleted, format, mounted, run, deletes⟩ := zeroDevice_deleted
  exact ⟨formatted, start, created, deleted, format, mounted, run, deletes,
    delete_not_durable zeroDevice_zeroed format mounted run deletes (.nil deleted)⟩

end KernelLane.Kfs
