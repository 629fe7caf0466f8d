import KernelLane.KernNames

namespace KernelLane.Kern

open GuestFrame Ports List Machine GuestOp UInt32 Sched

/-!
# What a new session finds

The tables of handles, ports, capability sources, descriptors and routed calls
and the input focus are keyed by the number of a session's slot, and the next
session in the slot has the same number.  A spawn empties the descriptors and
nothing else, a kill empties the handles and nothing else, and an exit empties
nothing.  A new session starts from nothing as long as every session leaves
nothing behind when its slot is given back, and no routed call waits under the
number that the new session will use first.
-/

/-! ## Views -/

/-- What a session can tell about its own tables. -/
@[ext]
structure SessionView where
  /-- The handles that work. -/
  handles : Int → Bool
  /-- The ports that count as its own. -/
  owned : Nat → Bool
  capSource : UInt8
  focused : Bool
  /-- The descriptors behind which there is an open file. -/
  openFds : Nat → Bool
  /-- The waiting routed calls whose replies its next call can collect. -/
  collectable : Nat → Bool

def Ports.ownedBy (state : Ports) (sid : UInt32) (index : Nat) : Bool :=
  index < maxPorts && (state.ports index).used && (state.ports index).creator = sid

def Ports.awaits (state : Ports) (seq : UInt16) (entry : Nat) : Bool :=
  entry < maxPending && (state.tab entry).used && (state.tab entry).seq = seq

def Machine.view (machine : Machine) (sid : UInt32) : SessionView where
  handles := fun h => (machine.ports.portOf sid h).isSome
  owned := machine.ports.ownedBy sid
  capSource := machine.sched.capSource sid
  focused := machine.focus = some sid
  openFds := fun fd => (machine.openFile sid fd).isSome
  collectable := machine.ports.awaits ((machine.wasi sid.toNat).fsRtSeq + 1)

def SessionView.fresh : SessionView where
  handles := fun _ => false
  owned := fun _ => false
  capSource := capSrcInit
  focused := false
  openFds := fun _ => false
  collectable := fun _ => false

def Machine.leavesNothing (machine : Machine) (sid : UInt32) : Bool :=
  ((range hPerSess).all fun h => (machine.ports.portOf sid h).isNone) &&
    ((range maxPorts).all fun index => !machine.ports.ownedBy sid index) &&
    (machine.sched.sessions sid.toNat).capSource = capSrcInit &&
    machine.focus ≠ some sid

/--
Zombies leave nothing behind when their slots are given back, and a session is
started only when no routed call waits under the first number it will use.
-/
def GuestOp.Tidy (machine : Machine) (op : GuestOp) : Prop :=
  (op = .reap → ∀ slot ∈ slots, (machine.sched.sessions slot).status = .zombie →
    machine.leavesNothing (ofNat slot) = true) ∧
  (op.starts machine = true → ∀ slot, machine.sched.nextSlot = some slot → ∀ entry,
    machine.ports.awaits ((machine.wasi slot).fsRtSeq + 1) entry = false)

/-- A tidy step of the machine. -/
def GuestOp.TidyStep (before : Machine) (op : GuestOp) (after : Machine) : Prop :=
  op.Tidy before ∧ op.run before = after

/-! ## Ports of sessions that do nothing -/

namespace Ports

variable {state after : Ports} {sid : UInt32} {op : PortOp}

/-- The session has no handle and no port. -/
structure Clear (state : Ports) (sid : UInt32) : Prop where
  handles : ∀ h, state.htab sid.toNat h = none
  owned : ∀ index, state.ownedBy sid index = false

/-- The operation fills a handle of the session. -/
def OpensFor (sid : UInt32) : PortOp → Prop
  | .create _ caller _ => caller = sid
  | .bind _ caller _ => caller = sid
  | _ => False

/-- A handle of another session is none of this one's. -/
theorem htab_of_setHandle {owner : UInt32} {h index : Nat} (other : owner ≠ sid)
    (handles : after.htab = (state.setHandle owner h index).htab) (g : Nat) :
    after.htab sid.toNat g = state.htab sid.toNat g := by
  have slots : sid.toNat ≠ owner.toNat := fun same => other (UInt32.toNat_inj.mp same.symm)
  rw [handles]
  simp [setHandle, slots]

/-- Others' operations leave a clear session clear. -/
theorem DoorStep.clear (step : DoorStep state after op) (others : ¬ OpensFor sid op)
    (clear : state.Clear sid) : after.Clear sid := by
  cases step with
  | same _ doors =>
    refine ⟨fun h => ?_, fun index => ?_⟩
    · rw [doors.htab]
      exact clear.handles h
    · have unowned := clear.owned index
      by_cases used : (state.ports index).used = true
      · simpa [ownedBy, doors.used, doors.header index used] using unowned
      · simp [ownedBy, doors.used, used]
  | @opened owner _ h index _ _ _ unused handles _ _ created rest =>
    refine ⟨fun g => ?_, fun target => ?_⟩
    · rw [htab_of_setHandle others handles]
      exact clear.handles g
    · by_cases same : target = index
      · subst same
        have apart : ¬ owner = sid := others
        simp [ownedBy, created, apart]
      · rw [ownedBy, rest target same]
        exact clear.owned target
  | @bound owner _ h index _ _ _ bind =>
    subst bind
    refine ⟨fun g => ?_, clear.owned⟩
    rw [htab_of_setHandle others rfl]
    exact clear.handles g
  | @cleared victim _ handles used _ creator =>
    refine ⟨fun h => ?_, fun index => ?_⟩
    · rw [handles]
      by_cases same : sid.toNat = victim.toNat
      · rw [same, Function.update_self]
      · rw [Function.update_of_ne same]
        exact clear.handles h
    · rw [ownedBy, used, creator]
      exact clear.owned index

end Ports

variable {machine : Machine} {slot : Nat}

/-- A session that does not run stays clear. -/
theorem GuestOp.clear_run {op : GuestOp} {sid : UInt32} (dead : machine.sched.alive sid = false)
    (clear : machine.ports.Clear sid) : (op.run machine).ports.Clear sid := by
  by_cases runs : op.Runs machine
  · rw [run_ports runs]
    refine stateAfter_invariant (Clear · sid) ?_ clear
    intro state port member isClear
    refine (port.doorStep state).clear ?_ isClear
    intro opens
    have opensDoor : port.opensDoor = true := by cases port <;> first | rfl | cases opens
    have alive : op.caller.all machine.sched.alive = true := runs.2.1
    rcases of_opensDoor member opensDoor with
      ⟨caller, name, rfl, rfl⟩ | ⟨caller, name, rfl, _, rfl⟩
    · have same : caller = sid := opens
      subst same
      exact absurd (alive.symm.trans dead) (by decide)
    · have same : caller = sid := opens
      subst same
      exact absurd (alive.symm.trans dead) (by decide)
  · unfold run
    rw [if_neg runs]
    exact clear

/-! ## Focus, descriptors and routed calls -/

/-- Only the caller of a focus request gets the focus. -/
theorem GuestOp.focus_run {op : GuestOp} {sid : UInt32} (dead : machine.sched.alive sid = false)
    (unfocused : machine.focus ≠ some sid) : (op.run machine).focus ≠ some sid := by
  unfold run
  by_cases runs : op.Runs machine
  · rw [if_pos runs]
    rcases (op.effect_spec machine).2 with same | ⟨allocOk, caller, h, rfl, _, _, moved⟩
    · rwa [same]
    · have alive : machine.sched.alive caller = true := runs.2.1
      rw [moved]
      rintro ⟨⟩
      exact absurd (alive.symm.trans dead) (by decide)
  · rwa [if_neg runs]

theorem Machine.not_spawned_self (sched : Sched) (slot : Nat) :
    spawned sched sched slot = false := by
  unfold spawned
  cases (sched.sessions slot).status <;> rfl

/-- A new session has empty descriptors and its slot's call counter. -/
theorem GuestOp.wasi_of_spawned {op : GuestOp} (spawned :
      spawned machine.sched (op.run machine).sched slot = true) :
    (op.run machine).wasi slot =
      { machine.wasi slot with fds := fun _ => false, waiting := false } := by
  by_cases quiet : op.touchesSessions = false
  · rw [op.run_sched_of_quiet machine quiet, not_spawned_self] at spawned
    cases spawned
  by_cases runs : op.Runs machine
  · unfold run at spawned ⊢
    rw [if_pos runs] at spawned ⊢
    cases op with
    | send | exit | reap | preload | spawn => exact if_pos spawned
    | _ => exact absurd rfl quiet
  · unfold run at spawned
    rw [if_neg runs, not_spawned_self] at spawned
    cases spawned

theorem Ports.awaits_congr {state after : Ports} (tab : after.tab = state.tab) (seq : UInt16)
    (entry : Nat) : after.awaits seq entry = state.awaits seq entry := by
  unfold awaits
  rw [tab]

/-- Only the operations of routed calls start and end a wait. -/
theorem PortOp.awaits_run {state : Ports} {op : PortOp} (turnsNone : op.turnsCalls = false)
    (seq : UInt16) (entry : Nat) : (op.run state).2.awaits seq entry = state.awaits seq entry := by
  have change := op.change state
  generalize op.run state = result at change ⊢
  obtain ⟨event, after⟩ := result
  cases change with
  | @answered op slot =>
    by_cases same : entry = slot
    · subst same
      simp [awaits]
    · simp [awaits, same]
  | turned _ turns =>
    rw [turnsNone] at turns
    cases turns
  | killed sid => exact awaits_congr (kill_tab sid) seq entry
  | _ => rfl

def GuestOp.sparesCalls : GuestOp → Bool
  | .request _ _ _ _ _ => false
  | .collect _ => false
  | .giveUp _ => false
  | _ => true

theorem GuestOp.turnsCalls_of_mem_portOps {op : GuestOp} {port : PortOp}
    (spares : op.sparesCalls = true) (member : port ∈ op.portOps machine) :
    port.turnsCalls = false := by
  cases issues member with
  | send sent =>
    have moves := KernOp.movesDatagrams_of_mem_send sent
    cases port <;> first | rfl | cases moves
  | expect | request | poll | reclaim => cases spares
  | _ => rfl

/-- Other operations neither start nor end a wait. -/
theorem GuestOp.awaits_run {op : GuestOp} (spares : op.sparesCalls = true) (seq : UInt16)
    (entry : Nat) : (op.run machine).ports.awaits seq entry = machine.ports.awaits seq entry := by
  by_cases runs : op.Runs machine
  · rw [run_ports runs]
    refine stateAfter_invariant (fun state =>
      state.awaits seq entry = machine.ports.awaits seq entry) ?_ rfl
    intro state port member same
    rw [PortOp.awaits_run (turnsCalls_of_mem_portOps spares member)]
    exact same
  · unfold run
    rw [if_neg runs]

theorem GuestOp.sparesCalls_of_starts {op : GuestOp} (starts : op.starts machine = true) :
    op.sparesCalls = true := by
  cases op with
  | request | collect | giveUp => cases starts
  | _ => rfl

/-! ## Free slots -/

/-- Nothing of a session's tables is left. -/
structure Machine.LeftClean (machine : Machine) (sid : UInt32) : Prop where
  clear : machine.ports.Clear sid
  source : (machine.sched.sessions sid.toNat).capSource = capSrcInit
  unfocused : machine.focus ≠ some sid

/-- Handles are valid, and nothing is left under the number of a free slot. -/
structure Machine.FreeClean (machine : Machine) : Prop where
  valid : machine.ports.HandlesValid
  clean : ∀ sid, sid ≠ 0 → (machine.sched.sessions sid.toNat).status = .free → machine.LeftClean sid

theorem Machine.boot_freeClean : boot.FreeClean where
  valid := portsInit_handlesValid
  clean := by
    intro sid notKernel _
    refine ⟨⟨fun _ => rfl, fun index => ?_⟩, rfl, nofun⟩
    have created : (portsInit.ports index).creator = 0 := by
      dsimp only [portsInit]
      split <;> rfl
    have other : (0 : UInt32) ≠ sid := notKernel.symm
    simp [ownedBy, boot, created, other]

theorem Machine.leftClean_of_leavesNothing {sid : UInt32} (valid : machine.ports.HandlesValid)
    (inTable : sid.toNat < maxSessions) (nothing : machine.leavesNothing sid = true) :
    machine.LeftClean sid := by
  simp only [leavesNothing, Bool.and_eq_true, all_eq_true,
    mem_range, decide_eq_true_eq, Bool.not_eq_true'] at nothing
  obtain ⟨⟨⟨handles, owned⟩, source⟩, unfocused⟩ := nothing
  refine ⟨⟨fun h => ?_, fun index => ?_⟩, source, unfocused⟩
  · by_contra filled
    obtain ⟨index, pointed⟩ := Option.ne_none_iff_exists'.mp filled
    have isNone := handles h (valid _ _ _ pointed).1
    rw [valid.portOf inTable pointed] at isNone
    cases isNone
  · by_cases inPorts : index < maxPorts
    · exact owned index inPorts
    · simp [ownedBy, inPorts]

theorem Sched.dead_of_free {sched : Sched} {sid : UInt32}
    (free : (sched.sessions sid.toNat).status = .free) : sched.alive sid = false := by
  simp [alive, occupied, free]

theorem Machine.LeftClean.run {sid : UInt32} (clean : machine.LeftClean sid) (op : GuestOp)
    (dead : machine.sched.alive sid = false)
    (source : ((op.run machine).sched.sessions sid.toNat).capSource =
      (machine.sched.sessions sid.toNat).capSource) : (op.run machine).LeftClean sid where
  clear := clear_run dead clean.clear
  source := source.trans clean.source
  unfocused := focus_run dead clean.unfocused

theorem Machine.FreeClean.next {before after : Machine} {op : GuestOp}
    (freeClean : before.FreeClean) (step : op.TidyStep before after) : after.FreeClean := by
  obtain ⟨tidy, rfl⟩ := step
  refine ⟨op.run_handlesValid freeClean.valid, ?_⟩
  intro sid notKernel freed
  cases op.slotStep before sid.toNat with
  | idle free _ source =>
    exact (freeClean.clean sid notKernel free).run op (dead_of_free free) source
  | spawned _ _ started _ => exact absurd (started.symm.trans freed) (by decide)
  | kept taken same => exact absurd (same.symm.trans freed) taken
  | died _ _ zombie => exact absurd (zombie.symm.trans freed) (by decide)
  | reaped given zombie _ source =>
    have inTable := (mem_slots.mp given.2).2
    have nothing := tidy.1 given.1 sid.toNat given.2 zombie
    rw [UInt32.ofNat_toNat] at nothing
    refine (leftClean_of_leavesNothing freeClean.valid inTable nothing).run op ?_ source
    simp [alive, zombie]

/--
Over every history in which the slots of zombies are given back only when the
zombies leave nothing behind, and sessions are started only when no routed call
waits under their first number, every new session sees nothing.
-/
theorem new_session_view_fresh {ops : List GuestOp} {op : GuestOp} {before after : Machine}
    (run : Run GuestOp.TidyStep .boot ops before) (step : op.TidyStep before after)
    (spawned : Machine.spawned before.sched after.sched slot = true) :
    after.view (ofNat slot) = .fresh := by
  have freeClean : before.FreeClean :=
    run.invariant (fun clean next => clean.next next) Machine.boot_freeClean
  obtain ⟨tidy, rfl⟩ := step
  have status := spawned
  simp only [Machine.spawned, Bool.and_eq_true, decide_eq_true_eq] at status
  cases op.slotStep before slot with
  | idle _ still _ => exact absurd (still.symm.trans status.2) (by decide)
  | kept taken | died _ taken => exact absurd status.1 taken
  | reaped _ zombie _ _ => exact absurd (zombie.symm.trans status.1) (by decide)
  | spawned taking free _ source =>
    obtain ⟨positive, inTable⟩ := mem_slots.mp (mem_of_find?_eq_some taking.2)
    have number : (ofNat slot).toNat = slot := by
      exact Nat.mod_eq_of_lt (inTable.trans (by decide))
    have notKernel : ofNat slot ≠ 0 := by
      intro zero
      have := congrArg toNat zero
      rw [number] at this
      exact absurd this (Nat.pos_iff_ne_zero.mp positive)
    have clean : (op.run before).LeftClean (ofNat slot) := by
      rw [← number] at free source
      exact (freeClean.clean _ notKernel free).run op (dead_of_free free) source
    have waits := tidy.2 taking.1 slot taking.2
    have wasi := GuestOp.wasi_of_spawned spawned
    refine SessionView.ext ?_ ?_ ?_ ?_ ?_ ?_
    · funext h
      refine Option.isSome_eq_false_iff.mpr (Option.isNone_iff_eq_none.mpr ?_)
      unfold portOf
      rw [clean.clear.handles]
      exact ite_self none
    · funext index
      exact clean.clear.owned index
    · have occupied : (op.run before).sched.occupied (ofNat slot) = true := by
        simp [occupied, number, inTable, status.2]
      dsimp only [Machine.view, capSource]
      rw [if_pos occupied]
      exact clean.source
    · exact decide_eq_false clean.unfocused
    · funext fd
      dsimp only [Machine.view, Machine.openFile]
      rw [number, wasi]
      simp [SessionView.fresh]
    · funext entry
      dsimp only [Machine.view]
      rw [number, wasi, GuestOp.awaits_run (GuestOp.sparesCalls_of_starts taking.1)]
      exact waits entry

/-! ## An application and its successor -/

def machineAfter (ops : List GuestOp) : Machine := ops.foldl run .boot

def startApp : GuestOp := startOp (ascii "app") capFocus

def succeeded (ops : List GuestOp) : List GuestOp := startApp :: ops ++ [.exit 1, .reap, startApp]

/--
Two histories that differ in what the first application does.  After it has
created a port and taken the focus, the next one in its slot holds the handle,
owns the port and has the focus; otherwise it has none of this.
-/
theorem successor_inherits : ((machineAfter (succeeded
      [.create 1 (ascii "mine"), .focusSet true 1 0])).view 1).handles 0 = true ∧
    ((machineAfter (succeeded [.create 1 (ascii "mine"), .focusSet true 1 0])).view 1).owned 3 =
      true ∧
    ((machineAfter (succeeded [.create 1 (ascii "mine"), .focusSet true 1 0])).view 1).focused =
      true ∧ ((machineAfter (succeeded [])).view 1).handles 0 = false ∧
    ((machineAfter (succeeded [])).view 1).owned 3 = false ∧
    ((machineAfter (succeeded [])).view 1).focused = false := by
  decide +kernel

theorem Ports.awaits_of_noneWaits {state : Ports} (none : ((range maxPending).all fun entry =>
      !(state.tab entry).used) = true)
    (seq : UInt16) (entry : Nat) :
    state.awaits seq entry = false := by
  by_cases inTable : entry < maxPending
  · have unused := all_eq_true.mp none entry (mem_range.mpr inTable)
    rw [Bool.not_eq_true'] at unused
    simp [awaits, unused]
  · simp [awaits, inTable]

def killedOps : List GuestOp :=
  [startOp (ascii "svc") (capKill ||| capPortbind), startApp,
    .create 1 (ascii "svc"), .bind 2 (ascii "svc"),
    .bind 1 (ascii "registry"),
    .send plainEnv 1 1 (registryFrame 3 (put32 2)), .reap]

/-- The application had a handle, and its successor has none. -/
theorem new_session_view_fresh_of_killed :
    (machineAfter (killedOps.take 4)).ports.portOf 2 0 = some 3 ∧
      spawned (machineAfter killedOps).sched
        (startApp.run (machineAfter killedOps)).sched 2 = true ∧
      (startApp.run (machineAfter killedOps)).view 2 = .fresh := by
  have run : Run GuestOp.TidyStep .boot killedOps (machineAfter killedOps) := by
    refine .cons ⟨⟨nofun, ?_⟩, rfl⟩ (.cons ⟨⟨nofun, ?_⟩, rfl⟩
      (.cons ⟨⟨nofun, nofun⟩, rfl⟩ (.cons ⟨⟨nofun, nofun⟩, rfl⟩
        (.cons ⟨⟨nofun, nofun⟩, rfl⟩ (.cons ⟨⟨nofun, ?_⟩, rfl⟩
          (.cons ⟨⟨?_, nofun⟩, rfl⟩ (.nil _)))))))
    · exact fun _ _ _ => awaits_of_noneWaits (by decide +kernel) _
    · exact fun _ _ _ => awaits_of_noneWaits (by decide +kernel) _
    · exact fun _ _ _ => awaits_of_noneWaits (by decide +kernel) _
    · intro _
      decide +kernel
  have step : startApp.TidyStep (machineAfter killedOps)
      (startApp.run (machineAfter killedOps)) := by
    refine ⟨⟨nofun, ?_⟩, rfl⟩
    exact fun _ _ _ => awaits_of_noneWaits (by decide +kernel) _
  have spawned : spawned (machineAfter killedOps).sched
      (startApp.run (machineAfter killedOps)).sched 2 = true := by
    decide +kernel
  exact ⟨by decide +kernel, spawned, new_session_view_fresh run step spawned⟩

end KernelLane.Kern
