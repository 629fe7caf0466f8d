import KernelLane.KfsSync

namespace KernelLane.Kfs

open List Tree Effect KFS LogScan Nat

/-!
# Remounting a live volume

A volume that was formatted over a zeroed log area and only took calls whose
records replay can read shows, after a remount, exactly what it showed live.
The condition is needed: `append` does not enforce the payload limit that
replay enforces.
-/

namespace KFS

/-- The device carries a valid superblock and the log ends at its limit. -/
structure Backed (volume : KFS) : Prop where
  superblock : ValidSuperblock volume.dev
  limit : volume.logEnd = logLimit volume.dev.numBlocks

theorem Backed.grows {before after : KFS} (backed : before.Backed) (ready : before.Ready)
    (grows : Grows before after) : after.Backed where
  superblock :=
    backed.superblock.of_agree grows.sameBlocks (fun index low =>
      grows.agree index (lt_of_lt_of_le low ready.cursorPast))
  limit := by
    rw [grows.sameEnd, grows.sameBlocks]
    exact backed.limit

def recovered (device : BlockDev) (tree : Tree) (final : Nat) : KFS :=
  { bootVolume device with toTree := tree, wOff := final }

theorem recordAt_recovered (device : BlockDev) (tree : Tree) (final : Nat) :
    (recovered device tree final).recordAt = (bootVolume device).recordAt :=
  recordAt_congr rfl rfl rfl

theorem inStep_recovered {device : BlockDev} {records : List Record} {tree : Tree} {final : Nat}
    (laid : LogScan.Laid (bootVolume device).recordAt logStart records final)
    (regular : ∀ record ∈ records, Regular record)
    (applies : applyAll apply empty records = some tree)
    (soundThrough : SoundThrough empty records) (sound : tree.Sound) :
    (recovered device tree final).InStep tree where
  ready :=
    ⟨⟨(bootVolume_shaped device).preloadShort, (bootVolume_shaped device).endInside⟩,
      le_trans (le_add_right _ _)
        (laid_bounds (bootVolume_shaped device) (le_refl _) laid).1⟩
  logTree := ⟨records, by rw [recordAt_recovered]; exact laid, regular, applies, soundThrough⟩
  mirrors := .refl tree
  sound := sound

/--
A device whose log grew from a volume in step recovers to that volume's tree,
if replay is stuck at the cursor the volume had.
-/
theorem InStep.remount_of_grows {volume later : KFS} {tree : Tree} (inStep : volume.InStep tree)
    (backed : volume.Backed) (grows : Grows volume later)
    (stuck : LogScan.Stuck (bootVolume later.dev).recordAt apply tree volume.wOff) :
    mountKFS later.dev = .mounted (recovered later.dev tree volume.wOff) ∧
      (recovered later.dev tree volume.wOff).InStep tree := by
  obtain ⟨records, laid, regular, applies, soundThrough⟩ := inStep.logTree
  have laterBacked := backed.grows inStep.ready grows
  have laterLaid :=
    laid_transfer inStep.ready.toShaped
      (grows.shaped inStep.ready.toShaped) grows.sameEnd grows.sameBlocks
      (le_refl _) grows.agree laid
  have bootLaid := laid_boot (grows.shaped inStep.ready.toShaped) laterBacked.limit laterLaid
  exact ⟨mountKFS_of_laid laterBacked.superblock bootLaid applies stuck,
    inStep_recovered bootLaid regular applies soundThrough inStep.sound⟩

theorem BlankTail.stuck {volume : KFS} (blank : volume.BlankTail) (ready : volume.Ready)
    (tree : Tree) : LogScan.Stuck (bootVolume volume.dev).recordAt apply tree volume.wOff := by
  apply stuck_of_zero (bootVolume_shaped volume.dev) ready.cursorPast
  intro inside
  have capacity : volume.wOff + hdrLen < volume.dev.capacity := inside
  simp only [hdrLen] at capacity
  exact blank _ (le_add_right _ _) (by omega)

end KFS

/-! ## A new volume -/

/-- Every byte of the log area is zero. -/
def ZeroedLog (device : BlockDev) : Prop :=
  ∀ index, logStart ≤ index → index < device.capacity → device.image index = 0

variable {device formatted : BlockDev} {before after volume start : KFS} {tree : Tree}
  {path name : Bytes}

/-- A formatted volume is empty when replay rejects what lies behind the format. -/
theorem mount_formattedDevice (many : 16 ≤ device.numBlocks.toNat)
    (room : logStart + 35 ≤ logLimit device.numBlocks)
    (rejected : RejectedAt (formattedDevice device) (logStart + 35)) :
    mountKFS (formattedDevice device) =
        .mounted (recovered (formattedDevice device) rootTree (logStart + 35)) ∧
      (recovered (formattedDevice device) rootTree (logStart + 35)).InStep rootTree ∧
      (recovered (formattedDevice device) rootTree (logStart + 35)).Backed := by
  have laid := formattedDevice_laid room
  have valid := formattedDevice_valid (lt_of_lt_of_le (by decide) many)
  have root : empty.apply rootRecord = .applied rootTree := empty.apply_inodeRecord rootInode
  have checkpoint := rootTree.apply_checkpointRecord_self
  rw [rootTree_nextIno] at checkpoint
  have regular : ∀ record ∈ [rootRecord, checkpointRecord (rootIno + 1)], Regular record := by
    rintro record (_ | ⟨_, _ | ⟨_, ⟨⟩⟩⟩)
    · exact .inode _
    · exact .checkpoint _
  have applies : applyAll apply empty
      [rootRecord, checkpointRecord (rootIno + 1)] = some rootTree := by
    simp only [applyAll, root, checkpoint]
  exact ⟨mountKFS_of_laid valid laid applies (rejected rootTree),
    inStep_recovered laid regular applies
      (.cons root rootTree_sound (.cons checkpoint rootTree_sound (.nil rootTree))) rootTree_sound,
    ⟨valid, rfl⟩⟩

/-- A volume formatted over a zeroed log area mounts as an empty volume. -/
theorem mount_formatted (zeroed : ZeroedLog device) (format : formatKFS device = .ok formatted) :
    ∃ start, mountKFS formatted = .mounted start ∧ start.wOff = logStart + 35 ∧
      start.InStep rootTree ∧ start.Backed ∧ start.BlankTail := by
  obtain ⟨many, room, rfl⟩ := formatKFS_eq_ok_iff.mp format
  have blank : ∀ index, logStart + 35 ≤ index → index < device.capacity →
      (formattedDevice device).image index = 0 := by
    intro index high inside
    rw [formattedDevice_beyond device high]
    exact zeroed index (by omega) inside
  obtain ⟨mounted, inStep, backed⟩ := mount_formattedDevice many room fun tree =>
    stuck_of_zero (bootVolume_shaped _) (by omega) (fun inside => blank _ (by omega) (by
      change _ < device.capacity at inside
      simp only [hdrLen] at inside
      omega)) tree
  exact ⟨_, mounted, rfl, inStep, backed, blank⟩

/-! ## Recorded histories -/

/-- The call may take a new inode number. -/
def Op.TakesNumber : Op → Prop
  | .create _ => True
  | .mkdir _ => True
  | _ => False

/--
The call writes only records that replay reads, and a new node does not take
the last inode number.
-/
def Op.Recordable (before : KFS) (op : Op) : Prop :=
  op.Replayable ∧ (op.TakesNumber → before.nextIno ≠ 0xFFFFFFFF)

/-- A successful recordable call. -/
def Op.RecordedStep (before : KFS) (op : Op) (after : KFS) : Prop :=
  op.Recordable before ∧ op.Succeeds before after

variable {op : Op}

/-- A successful recordable call keeps the volume in step with its log. -/
theorem inStep_recordedStep (inStep : ∃ tree, before.InStep tree)
    (step : op.RecordedStep before after) : ∃ tree, after.InStep tree := by
  obtain ⟨tree, inStep⟩ := inStep
  obtain ⟨recordable, succeeds⟩ := step
  cases op with
  | create path => exact inStep_create inStep recordable.1 (recordable.2 trivial) succeeds
  | mkdir path => exact inStep_mkdir inStep recordable.1 (recordable.2 trivial) succeeds
  | delete path => exact recordable.1.elim
  | writeFile path off data =>
    exact inStep_writeFile inStep recordable.1.1 recordable.1.2 succeeds
  | setUID path owner => exact inStep_setUID inStep succeeds
  | readFile path off count =>
    obtain ⟨_, middle, ran, returned⟩ := bind_eq_ok_iff.mp succeeds
    have kept := inStep.readFile path off count
    rw [ran] at kept
    simp only [pure_apply, Prod.mk.injEq, true_and] at returned
    exact ⟨tree, returned ▸ kept⟩

theorem Op.Returns.grows (ready : before.Ready) (returns : op.Returns before after) :
    KFS.Grows before after := by
  have kept : (op.run before).2.Ready ∧ KFS.Grows before (op.run before).2 :=
    growsRelation.keeps_run (fun _ _ => trivial) before ready
  rw [returns] at kept
  exact kept.2

theorem later_grows {ops : List Op} (ready : before.Ready) (run : Run Op.Returns before ops after) :
    after.Ready ∧ KFS.Grows before after := by
  refine run.related KFS.Grows.refl (fun _ left right => left.trans right) ?_ ready
  intro first op second firstReady returns
  have grows := returns.grows firstReady
  exact ⟨grows.ready firstReady, grows⟩

/-- A volume that a remount reproduces. -/
structure KFS.Durable (volume : KFS) : Prop where
  inStep : ∃ tree, volume.InStep tree
  backed : volume.Backed
  blank : volume.BlankTail

theorem durable_recordedStep (durable : before.Durable) (step : op.RecordedStep before after) :
    after.Durable := by
  obtain ⟨tree, inStep⟩ := durable.inStep
  have grows := step.2.returns.grows inStep.ready
  exact ⟨inStep_recordedStep ⟨tree, inStep⟩ step, durable.backed.grows inStep.ready grows,
    durable.blank.grows grows⟩

theorem KFS.Durable.remount (durable : volume.Durable) : ∃ recovered,
    mountKFS volume.dev = .mounted recovered ∧ SameView volume recovered := by
  obtain ⟨tree, inStep⟩ := durable.inStep
  obtain ⟨mounted, recoveredInStep⟩ :=
    inStep.remount_of_grows durable.backed (KFS.Grows.refl volume)
      (durable.blank.stuck inStep.ready tree)
  exact ⟨_, mounted, inStep.sameView recoveredInStep⟩

theorem durable_formatted (zeroed : ZeroedLog device) (format : formatKFS device = .ok formatted)
    (mounted : mountKFS formatted = .mounted start) : start.Durable := by
  obtain ⟨first, firstMounted, _, inStep, backed, blank⟩ := mount_formatted zeroed format
  rw [mounted] at firstMounted
  cases firstMounted
  exact ⟨⟨rootTree, inStep⟩, backed, blank⟩

variable {ops : List Op} {live : KFS}

/--
In every recorded history over a zeroed log area, mounting the device at the
end shows exactly the live volume's paths, kinds, sizes, owners and bytes.
-/
theorem remount_shows_live (zeroed : ZeroedLog device)
    (format : formatKFS device = .ok formatted) (mounted : mountKFS formatted = .mounted start)
    (run : Run Op.RecordedStep start ops live) :
    ∃ recovered, mountKFS live.dev = .mounted recovered ∧ SameView live recovered := by
  have durable : live.Durable :=
    run.invariant durable_recordedStep (durable_formatted zeroed format mounted)
  exact durable.remount

/-! ## Names that replay cannot read -/

theorem Tree.walkParent_single (single : splitPath path = .ok [name]) :
    tree.walkParent path = .ok (rootIno, name) := by
  simp [walkParent, single, walkDirs]

variable {next : Tree}

/-- Every name that one replayed record leaves is short enough to replay. -/
theorem names_apply {record : Record} (short : ∀ entry ∈ tree.dirents, entry.name.length ≤ maxName)
    (readable : record.payload.length ≤ maxPayload) (applied : tree.apply record = .applied next) :
    ∀ entry ∈ next.dirents, entry.name.length ≤ maxName := by
  cases applied_of_apply applied with
  | unlinked parent name =>
    intro entry member
    unfold removeDirent at member
    split at member
    · exact short entry member
    obtain ⟨place, stored⟩ := mem_iff_getElem?.mp member
    rw [List.getElem?_modify] at stored
    obtain ⟨old, oldStored, sameEntry⟩ := Option.map_eq_some_iff.mp stored
    have oldShort := short old (mem_of_getElem? oldStored)
    rw [← sameEntry]
    split <;> exact oldShort
  | linked parent name ino inside =>
    intro entry member
    simp only [addDirent, mem_append, mem_singleton] at member
    rcases member with older | newer
    · exact short entry older
    · rw [newer]
      simp only [maxName, maxPayload] at readable ⊢
      omega
  | _ => exact short

theorem names_laid (shaped : volume.Shaped) {start final : Nat} {records : List Record} (pastStart : logStart ≤ start)
    (laid : LogScan.Laid volume.recordAt start records final)
    (short : ∀ entry ∈ tree.dirents, entry.name.length ≤ maxName)
    (applies : applyAll apply tree records = some next) :
    ∀ entry ∈ next.dirents, entry.name.length ≤ maxName := by
  induction laid generalizing tree with
  | nil =>
    simp only [applyAll, Option.some.injEq] at applies
    exact applies ▸ short
  | @cons position size final record rest head _ hypothesis =>
    obtain ⟨rfl, _, readable, _, _⟩ := (recordAt_eq_some_iff shaped pastStart record).mp head
    simp only [applyAll] at applies
    cases applied : tree.apply record with
    | applied middle =>
      rw [applied] at applies
      exact hypothesis (by omega) (names_apply short readable applied) applies
    | rejected | crashed => simp [applied] at applies

theorem names_mounted (mounted : mountKFS device = .mounted volume) :
    ∀ entry ∈ volume.dirents, entry.name.length ≤ maxName := by
  obtain ⟨records, laid, applies, _, _⟩ := mounted_laid mounted
  exact names_laid (bootVolume_shaped device) (le_refl _) laid (by simp [empty]) applies

theorem stat_longName (mounted : mountKFS device = .mounted volume)
    (single : splitPath path = .ok [name]) (long : maxName < name.length) :
    volume.stat path = .error .noEntry := by
  have absent : volume.lookup rootIno name = none := by
    cases found : volume.lookup rootIno name with
    | none => rfl
    | some ino =>
      obtain ⟨entry, member, _, sameName⟩ := lookup_mem found
      have short := names_mounted mounted entry member
      rw [sameName] at short
      omega
  rw [stat_eq (walkParent_single single), absent]

def zeroDevice : BlockDev := ⟨1024, fun _ => 0⟩

theorem zeroDevice_zeroed : ZeroedLog zeroDevice := fun _ _ _ => rfl

theorem zeroDevice_limit : logLimit zeroDevice.numBlocks = 524288 := by
  unfold logLimit zeroDevice
  decide

def Op.reach (check : KFS → Bool) : List Op → KFS → Bool
  | [], volume => check volume
  | op :: rest, volume =>
    match op.run volume with
    | (.ok _, after) => reach check rest after
    | (.error _, _) => false

variable {check : KFS → Bool}

theorem Op.of_reach (reached : Op.reach check ops start) :
    ∃ live, Run Op.Succeeds start ops live ∧ check live = true := by
  induction ops generalizing start with
  | nil => exact ⟨start, .nil start, reached⟩
  | cons op rest hypothesis =>
    unfold reach at reached
    split at reached
    next after ran =>
      obtain ⟨live, run, checked⟩ := hypothesis reached
      exact ⟨live, .cons ran run, checked⟩
    · cases reached

def mounts (check : KFS → Bool) (device : BlockDev) : Bool :=
  match mountKFS device with
  | .mounted volume => check volume
  | _ => false

theorem of_mounts (mounted : mounts check device) :
    ∃ volume, mountKFS device = .mounted volume ∧ check volume = true := by
  unfold mounts at mounted
  split at mounted
  next volume outcome => exact ⟨volume, outcome, mounted⟩
  · cases mounted

/-- Formatting and mounting succeed and so do the calls, and both volumes pass a check. -/
def evaluates (check : KFS → KFS → Bool) (ops : List Op) (device : BlockDev) : Bool :=
  match formatKFS device with
  | .ok formatted => mounts (fun start => Op.reach (check start) ops start) formatted
  | .error _ => false

theorem of_evaluates {check : KFS → KFS → Bool} (evaluated : evaluates check ops device) :
    ∃ formatted start live, formatKFS device = .ok formatted ∧
      mountKFS formatted = .mounted start ∧ Run Op.Succeeds start ops live ∧
      check start live = true := by
  unfold evaluates at evaluated
  split at evaluated
  next formatted format =>
    obtain ⟨start, mounted, reached⟩ := of_mounts evaluated
    obtain ⟨live, run, checked⟩ := Op.of_reach reached
    exact ⟨formatted, start, live, format, mounted, run, checked⟩
  · cases evaluated

def onePath : Bytes := [slash, 102]

theorem recorded_first (first : volume.nextIno = 2) (short : (leafName path).length ≤ maxName)
    (run : Run Op.Succeeds volume [.create path] live) :
    Run Op.RecordedStep volume [.create path] live := by
  refine .cons ⟨⟨short, fun _ => ?_⟩, run.single⟩ (.nil live)
  rw [first]
  decide

theorem zeroDevice_created : ∃ formatted start created, formatKFS zeroDevice = .ok formatted ∧
    mountKFS formatted = .mounted start ∧ Run Op.RecordedStep start [.create onePath] created := by
  obtain ⟨formatted, start, created, format, mounted, run, first⟩ :=
    of_evaluates (show evaluates (fun start _ => start.nextIno = 2) [.create onePath] zeroDevice by
      decide +kernel)
  exact ⟨formatted, start, created, format, mounted,
    recorded_first (of_decide_eq_true first) (by decide) run⟩

/-- The recorded history that creates one file is shown by a remount. -/
theorem remount_shows_created_file : ∃ formatted start live, ZeroedLog zeroDevice ∧
    formatKFS zeroDevice = .ok formatted ∧ mountKFS formatted = .mounted start ∧
    Run Op.RecordedStep start [.create onePath] live ∧
    ∃ recovered, mountKFS live.dev = .mounted recovered ∧ SameView live recovered := by
  obtain ⟨formatted, start, live, format, mounted, run⟩ := zeroDevice_created
  exact ⟨formatted, start, live, zeroDevice_zeroed, format, mounted, run,
    remount_shows_live zeroDevice_zeroed format mounted run⟩

/-- A file of any name is created in an empty directory when the log has room. -/
theorem KFS.create_of_room {parent : UInt32} (ready : volume.Ready)
    (resolved : volume.walkParent path = .ok (parent, name)) (empty : volume.children parent = [])
    (room : volume.wOff + name.length + 68 ≤ volume.logEnd) :
    ∃ after, create path volume = (.ok (), after) ∧
      after.lookup parent name = some volume.nextIno ∧
      (after.inodes volume.nextIno).isNone = false := by
  let node : Inode := ⟨volume.nextIno, 0, kindFile, 0⟩
  let allocated : KFS := { volume with nextIno := volume.nextIno + 1 }
  have absent : volume.lookup parent name = none := by simp [Tree.lookup, Tree.findDirent, empty]
  have allocates : SameLog volume allocated := ⟨rfl, rfl, rfl, rfl⟩
  have nodeSize : (inodeRecord node).size = 22 := by simp [inodeRecord, Record.size, hdrLen]
  have entrySize : (direntRecord parent name volume.nextIno).size = 20 + name.length := by
    simp [direntRecord, Record.size, hdrLen]
    omega
  have allocatedReady := allocates.extends.toGrows.ready ready
  obtain ⟨recorded, nodeAppended, nodeGrows, nodeTree, nodeCursor⟩ := append_of_room allocatedReady
    (show allocated.wOff + (inodeRecord node).size + 13 ≤ allocated.logEnd by
      exact (by omega : volume.wOff + 22 + 13 ≤ volume.logEnd))
  have sameEnd : recorded.logEnd = volume.logEnd := nodeGrows.sameEnd
  have sameCursor : allocated.wOff = volume.wOff := rfl
  have recordedReady := nodeGrows.ready allocatedReady
  obtain ⟨named, entryAppended, _, entryTree, _⟩ := append_of_room recordedReady
    (show recorded.wOff + (direntRecord parent name volume.nextIno).size + 13 ≤ recorded.logEnd by
      omega)
  have tree : named.toTree = allocated.toTree := entryTree.trans nodeTree
  have linked : appendDirent parent name volume.nextIno recorded =
      (.ok (), { named with toTree := named.toTree.addDirent parent name volume.nextIno }) := by
    unfold appendDirent
    rw [bind_of_ok entryAppended]
    rfl
  refine ⟨{ named with
      toTree := { named.toTree.addDirent parent name volume.nextIno with
        inodes := Function.update named.inodes volume.nextIno (some node)
        data := Function.update named.data volume.nextIno [] } }, ?_, ?_, ?_⟩
  · unfold create
    rw [look_bind, resolved, ofExcept_ok_bind]
    simp only [absent]
    rw [bind_of_ok (show allocIno volume = (.ok volume.nextIno, allocated) from rfl),
      bind_of_ok nodeAppended, bind_of_ok linked]
    rfl
  · simp [tree, Tree.lookup, Tree.findDirent, Tree.addDirent, Tree.direntIno, empty, allocated]
  · simp

def longPath : Bytes := slash :: replicate (maxName + 1) 97

theorem splitPath_longPath : splitPath longPath = .ok [replicate (maxName + 1) 97] := by
  have longLength : (replicate (maxName + 1) (97 : UInt8)).length = maxName + 1 := length_replicate
  have differs : ∀ {other : Bytes}, other.length ≤ 2 →
      replicate (maxName + 1) (97 : UInt8) ≠ other := by
    intro other short same
    rw [← same, longLength, maxName] at short
    omega
  apply splitPath_single
  · intro member
    have same := eq_of_mem_replicate member
    revert same
    decide
  · exact differs (by decide)
  · exact differs (by decide)
  · exact differs (by decide)

/--
A successful `Create` of such a path: the live volume shows the file, and no
remount of its device does.
-/
theorem longName_lost_on_remount : ∃ device formatted start live, ZeroedLog device ∧
    formatKFS device = .ok formatted ∧ mountKFS formatted = .mounted start ∧
    Op.Succeeds start (.create longPath) live ∧
    ¬ ∃ recovered, mountKFS live.dev = .mounted recovered ∧ SameView live recovered := by
  obtain ⟨formatted, start, _, format, mounted, _, facts⟩ :=
    of_evaluates (show evaluates (fun start _ => start.children rootIno = [] ∧
      start.wOff + 65600 ≤ start.logEnd) [] zeroDevice by decide +kernel)
  obtain ⟨empty, room⟩ := of_decide_eq_true facts
  obtain ⟨tree, inStep⟩ := (durable_formatted zeroDevice_zeroed format mounted).inStep
  obtain ⟨live, created, found, recorded⟩ :=
    create_of_room inStep.ready (walkParent_single splitPath_longPath) empty
      (by rw [length_replicate, maxName]; omega)
  have shown : ∃ info, live.stat longPath = .ok info := by
    rw [stat_eq (walkParent_single splitPath_longPath), found]
    simp [recorded]
  obtain ⟨info, shown⟩ := shown
  refine ⟨zeroDevice, formatted, start, live, zeroDevice_zeroed, format, mounted, created, ?_⟩
  rintro ⟨recovered, remounted, sameView⟩
  have lost :=
    stat_longName remounted splitPath_longPath (by rw [length_replicate]; exact lt_succ_self _)
  rw [sameView.stat, shown] at lost
  simp at lost

end KernelLane.Kfs
