import KernelLane.KfsRemount

namespace KernelLane.Kfs

open Function LogScan Tree

/-!
# Resuming after a corrupted record

A crash corrupts one record of the log; the mount recovers the records before
it, and new records overwrite the abandoned ones in place.  Whatever lies
behind the new end of the log is left over from before the crash, so a second
mount continues into it if the bytes there happen to be a record.  When they
are not, the second mount shows exactly the live volume.
-/

/-- The device after a crash changed some bytes of one range. -/
structure Corrupts (before after : BlockDev) (position size : Nat) : Prop where
  sameBlocks : after.numBlocks = before.numBlocks
  elsewhere : ∀ index, index < position ∨ position + size ≤ index →
    after.image index = before.image index

variable {device : BlockDev} {position : Nat} {volume : KFS} {tree : Tree} {start before : KFS}
  {trailing : List Record} {record : Record}

/-- The log of a volume in step is the only list of records laid there. -/
theorem KFS.InStep.records_unique {records : List Record} (inStep : volume.InStep tree)
    (laid : LogScan.Laid volume.recordAt logStart records volume.wOff) :
    (∀ record ∈ records, Regular record) ∧
      applyAll apply empty records = some tree ∧
      SoundThrough empty records := by
  obtain ⟨own, ownLaid, regular, applies, sound⟩ := inStep.logTree
  have same : own = records := by
    refine LogScan.Laid.unique ?_ ownLaid laid
    intro position entries stop entriesLaid pastStart nonempty
    have bounds := (laid_bounds inStep.ready.toShaped pastStart entriesLaid).1
    have positive := List.length_pos_iff.mpr nonempty
    simp only [hdrLen] at bounds
    omega
  rw [← same]
  exact ⟨regular, applies, sound⟩

/--
A mount after a crash that corrupted the record at a position recovers the
tree of the records before it, if replay rejects what is left of the record.
-/
theorem mount_corrupted {crashed : BlockDev} {leading : List Record} (inStep : before.InStep tree)
    (backed : before.Backed) (leadingLaid : LogScan.Laid before.recordAt logStart leading position)
    (restLaid : LogScan.Laid before.recordAt position (record :: trailing) before.wOff)
    (nonempty : leading ≠ []) (crash : Corrupts before.dev crashed position record.size)
    (rejected : RejectedAt crashed position) :
    ∃ kept, applyAll apply empty leading = some kept ∧
      mountKFS crashed = .mounted (KFS.recovered crashed kept position) ∧
      (KFS.recovered crashed kept position).InStep kept ∧
      (KFS.recovered crashed kept position).Backed := by
  obtain ⟨regular, _, sound⟩ := inStep.records_unique (leadingLaid.append restLaid)
  have shaped := inStep.ready.toShaped
  have pastStart := (KFS.laid_bounds shaped (Nat.le_refl _) leadingLaid).1
  have leadingRegular : ∀ entry ∈ leading, Regular entry := by
    intro entry member
    exact regular entry (by simp [member])
  obtain ⟨kept, applies⟩ := applyAll_regular leadingRegular empty
  have agree : Image.AgreeBelow position before.dev.image crashed.image :=
    fun index low => (crash.elsewhere index (Or.inl low)).symm
  have valid : ValidSuperblock crashed :=
    backed.superblock.of_agree crash.sameBlocks fun index low => agree index (by omega)
  have bootLaid : LogScan.Laid (bootVolume crashed).recordAt logStart leading position := by
    refine KFS.laid_transfer shaped (bootVolume_shaped crashed) ?_
      crash.sameBlocks (Nat.le_refl _) agree leadingLaid
    rw [bootVolume_logEnd, crash.sameBlocks, backed.limit]
  refine ⟨kept, applies, mountKFS_of_laid valid bootLaid applies (rejected kept), ?_, ⟨valid, rfl⟩⟩
  exact KFS.inStep_recovered bootLaid leadingRegular applies sound.initial
    (sound leading (record :: trailing) kept rfl nonempty applies)

/-- Recorded calls keep a volume in step, whatever lies behind its log. -/
theorem inStep_resumed {first live : KFS} {ops : List Op} (inStep : ∃ tree, first.InStep tree)
    (run : Run Op.RecordedStep first ops live) :
    (∃ tree, live.InStep tree) ∧ KFS.Grows first live := by
  obtain ⟨tree, firstInStep⟩ := inStep
  refine ⟨run.invariant inStep_recordedStep ⟨tree, firstInStep⟩, ?_⟩
  have returns : Run Op.Returns first ops live := run.weaken fun step => step.2.returns
  exact (later_grows firstInStep.ready returns).2

/--
After a recorded history, a crash that corrupts one of its records so that
replay rejects it, a mount and further recorded calls, a second mount shows
the live volume and stops at the live end of the log, if the crashed device
holds no record that replay applies at that end.
-/
theorem second_mount_shows_live {formatted crashed : BlockDev} {first live : KFS}
    {ops later : List Op} {leading : List Record} (zeroed : ZeroedLog device)
    (format : formatKFS device = .ok formatted) (mounted : mountKFS formatted = .mounted start)
    (history : Run Op.RecordedStep start ops before)
    (leadingLaid : LogScan.Laid before.recordAt logStart leading position)
    (restLaid : LogScan.Laid before.recordAt position (record :: trailing) before.wOff)
    (ofHistory : start.wOff ≤ position) (crash : Corrupts before.dev crashed position record.size)
    (rejected : RejectedAt crashed position) (remounted : mountKFS crashed = .mounted first)
    (resumed : Run Op.RecordedStep first later live) (noneBehind : RejectedAt crashed live.wOff) :
    first.wOff = position ∧ ∃ second, mountKFS live.dev = .mounted second ∧ SameView live second ∧
      second.wOff = live.wOff := by
  obtain ⟨other, otherMounted, cursor, startInStep, startBacked, startBlank⟩ :=
    mount_formatted zeroed format
  rw [mounted, MountOutcome.mounted.injEq] at otherMounted
  subst otherMounted
  have startDurable : start.Durable := ⟨⟨rootTree, startInStep⟩, startBacked, startBlank⟩
  have durable : before.Durable := history.invariant durable_recordedStep startDurable
  obtain ⟨tree, inStep⟩ := durable.inStep
  have nonempty : leading ≠ [] := by
    rintro rfl
    cases leadingLaid
    omega
  obtain ⟨kept, _, recovers, firstInStep, firstBacked⟩ :=
    mount_corrupted inStep durable.backed leadingLaid restLaid nonempty crash rejected
  rw [recovers, MountOutcome.mounted.injEq] at remounted
  subst remounted
  obtain ⟨⟨liveTree, liveInStep⟩, grows⟩ := inStep_resumed ⟨kept, firstInStep⟩ resumed
  have liveBacked := firstBacked.grows firstInStep.ready grows
  have stuck :=
    noneBehind.of_same_tail liveInStep.ready.cursorPast grows.sameBlocks grows.untouched liveTree
  obtain ⟨secondMounted, secondInStep⟩ :=
    liveInStep.remount_of_grows liveBacked (KFS.Grows.refl live) stuck
  exact ⟨rfl, _, secondMounted, liveInStep.sameView secondInStep, rfl⟩

/-! ## Two runs on the zeroed device -/

def zeroType (device : BlockDev) (position : Nat) : BlockDev :=
  { device with image := update device.image (position + 8) 0 }

theorem corrupts_zeroType (device : BlockDev) (position : Nat) (record : Record) :
    Corrupts device (zeroType device position) position record.size where
  sameBlocks := rfl
  elsewhere := by
    intro index outside
    simp only [Record.size, hdrLen] at outside
    exact update_of_ne (by omega) _ _

def otherPath : Bytes := [slash, 103]

def laterPath : Bytes := [slash, 104]

def newLog : List Record := [inodeRecord ⟨rootIno, 0, kindDir, 0⟩, checkpointRecord 2]

def fileLog : List Record := [inodeRecord ⟨2, 0, kindFile, 0⟩, direntRecord rootIno [102] 2]

/--
One file is created, its inode record loses its type byte, and after the
mount another file is created over it: the second mount shows that file.
-/
theorem second_mount_after_one_file : ∃ formatted start before crashed first live,
    formatKFS zeroDevice = .ok formatted ∧ mountKFS formatted = .mounted start ∧
      Run Op.RecordedStep start [.create onePath] before ∧ mountKFS crashed = .mounted first ∧
      Run Op.RecordedStep first [.create laterPath] live ∧
      (first.wOff = start.wOff ∧ ∃ second, mountKFS live.dev = .mounted second ∧
        SameView live second ∧ second.wOff = live.wOff) := by
  obtain ⟨formatted, start, before, format, mounted, run, facts⟩ :=
    of_evaluates (show evaluates (fun start before => start.nextIno = 2 ∧
        follow before.recordAt logStart newLog = some start.wOff ∧
        follow before.recordAt start.wOff fileLog = some before.wOff ∧
        mounts (fun first => first.nextIno = 2 ∧ Op.reach (fun live => logStart ≤ live.wOff ∧
              (zeroType before.dev start.wOff).image (live.wOff + 8) = 0)
            [.create laterPath] first)
          (zeroType before.dev start.wOff))
      [.create onePath] zeroDevice by decide +kernel)
  obtain ⟨startNumber, leadingLaid, restLaid, resumes⟩ := of_decide_eq_true facts
  obtain ⟨first, remounted, facts⟩ := of_mounts resumes
  obtain ⟨firstNumber, reached⟩ := of_decide_eq_true facts
  obtain ⟨live, resumed, facts⟩ := Op.of_reach reached
  obtain ⟨pastStart, zero⟩ := of_decide_eq_true facts
  have history : Run Op.RecordedStep start [.create onePath] before :=
    recorded_first startNumber (by decide) run
  have resumed : Run Op.RecordedStep first [.create laterPath] live :=
    recorded_first firstNumber (by decide) resumed
  have noneBehind : RejectedAt (zeroType before.dev start.wOff) live.wOff :=
    fun tree => stuck_of_zero (bootVolume_shaped _) pastStart (fun _ => zero) tree
  obtain ⟨_, startInStep⟩ := (durable_formatted zeroDevice_zeroed format mounted).inStep
  exact ⟨formatted, start, before, _, first, live, format, mounted, history, remounted, resumed,
    second_mount_shows_live zeroDevice_zeroed format mounted history
      (laid_of_follow leadingLaid) (laid_of_follow restLaid) (Nat.le_refl _)
      (corrupts_zeroType before.dev start.wOff _)
      (stuck_of_zero (bootVolume_shaped (zeroType before.dev start.wOff))
        startInStep.ready.cursorPast fun _ => update_self _ _ _)
      remounted resumed noneBehind⟩

/--
Two files are created, the first inode record loses its type byte, and after
the mount a third file is created.  Its two records end where the records of
the second file begin, so the second mount applies those again: it shows a
file that the live volume does not have.
-/
theorem abandoned_file_returns : ∃ formatted start before crashed first live second,
    formatKFS zeroDevice = .ok formatted ∧ mountKFS formatted = .mounted start ∧
      Run Op.Succeeds start [.create onePath, .create otherPath] before ∧
      (∃ position record, before.recordAt position = some (record, record.size) ∧
        Corrupts before.dev crashed position record.size) ∧ mountKFS crashed = .mounted first ∧
      Op.Succeeds first (.create laterPath) live ∧ mountKFS live.dev = .mounted second ∧
      ¬ SameView live second := by
  let node := inodeRecord ⟨2, 0, kindFile, 0⟩
  obtain ⟨formatted, start, before, format, mounted, run, facts⟩ :=
    of_evaluates (show evaluates (fun start before =>
        before.recordAt start.wOff = some (node, node.size) ∧
        mounts (Op.reach (fun live => mounts (fun second =>
            (second.stat otherPath).toOption ≠ (live.stat otherPath).toOption) live.dev)
          [.create laterPath]) (zeroType before.dev start.wOff))
      [.create onePath, .create otherPath] zeroDevice by decide +kernel)
  obtain ⟨firstFound, resumes⟩ := of_decide_eq_true facts
  obtain ⟨first, remounted, reached⟩ := of_mounts resumes
  obtain ⟨live, resumed, shown⟩ := Op.of_reach reached
  obtain ⟨second, remountedAgain, differs⟩ := of_mounts shown
  refine ⟨formatted, start, before, _, first, live, second, format, mounted, run,
    ⟨start.wOff, node, firstFound, corrupts_zeroType before.dev _ _⟩,
    remounted, resumed.single, remountedAgain, fun sameView => ?_⟩
  exact of_decide_eq_true differs (congrArg Except.toOption (sameView.stat otherPath))

end KernelLane.Kfs
