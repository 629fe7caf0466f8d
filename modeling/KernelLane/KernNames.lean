import KernelLane.KernDoors

namespace KernelLane.Kern

open GuestFrame Ports GuestOp List Sched

/-!
# Well-known port names

Binding one of the nine well-known names takes the port-bind capability;
creating a port of such a name does not, and a session that exits leaves its
handles behind for the next one in its slot.  A session that never held the
capability therefore stays away from the well-known names as long as only
holders create them and nobody exits while it reaches one.
-/

/-! ## Sessions that reach a well-known port -/

namespace Ports

variable {state after : Ports} {sid : UInt32} {op : PortOp}

/-- A handle of the session leads to a port of a well-known name. -/
def Knows (state : Ports) (sid : UInt32) : Prop :=
  ∃ h index, state.htab sid.toNat h = some index ∧ (state.ports index).name ∈ wellKnownNames

/-- The operation creates or binds a well-known port for the session. -/
inductive Introduces (sid : UInt32) : PortOp → Prop where
  | create {name : Bytes} (wellKnown : cstr name ∈ wellKnownNames) :
    Introduces sid (.create true sid name)
  | bind {name : Bytes} (wellKnown : name ∈ wellKnownNames) : Introduces sid (.bind true sid name)

/-- A new handle leads where it was pointed, and the old ones as before. -/
theorem knows_of_setHandle {owner : UInt32} {h index : Nat}
    (handle : state.freeHandle owner = some h)
    (handles : after.htab = (state.setHandle owner h index).htab)
    (names : ∀ slot g stored, state.htab slot g = some stored →
      (after.ports stored).name = (state.ports stored).name) (knows : after.Knows sid) :
    state.Knows sid ∨ sid = owner ∧ (after.ports index).name ∈ wellKnownNames := by
  obtain ⟨g, stored, pointed, wellKnown⟩ := knows
  rw [handles, htab_setHandle (freeHandle_spec handle).1] at pointed
  rcases pointed with old | ⟨sameSlot, _, rfl⟩
  · rw [names _ _ _ old] at wellKnown
    exact .inl ⟨g, stored, old, wellKnown⟩
  · exact .inr ⟨UInt32.toNat_inj.mp sameSlot, wellKnown⟩

/-- A session reaches a well-known port as before, or was just introduced. -/
theorem DoorStep.knows (step : DoorStep state after op) (valid : state.HandlesValid)
    (knows : after.Knows sid) :
    state.Knows sid ∧ (op = .kill sid → maxSessions ≤ sid.toNat) ∨ Introduces sid op := by
  cases step with
  | same spares doors =>
    obtain ⟨h, index, pointed, wellKnown⟩ := knows
    rw [doors.htab] at pointed
    rw [(doors.header index (valid _ _ _ pointed).2.2).1] at wellKnown
    exact .inl ⟨⟨h, index, pointed, wellKnown⟩, spares sid⟩
  | @opened owner name h index notKernel handle _ unused handles used named created others =>
    have names : ∀ slot g stored, state.htab slot g = some stored →
        (after.ports stored).name = (state.ports stored).name := by
      intro slot g stored pointed
      rw [others stored]
      rintro rfl
      exact absurd ((valid _ _ _ pointed).2.2.symm.trans unused) (by decide)
    rcases knows_of_setHandle handle handles names knows with
      old | ⟨rfl, wellKnown⟩
    · exact .inl ⟨old, nofun⟩
    · rw [named] at wellKnown
      exact .inr (.create wellKnown)
  | @bound owner name h index notKernel handle found bind =>
    subst bind
    rcases knows_of_setHandle handle rfl (fun _ _ _ _ => rfl) knows with
      old | ⟨rfl, wellKnown⟩
    · exact .inl ⟨old, nofun⟩
    · have named := find?_some found
      rw [Bool.and_eq_true, decide_eq_true_eq] at named
      refine .inr (.bind ?_)
      rw [← named.2]
      exact wellKnown
  | @cleared victim _ handles used name creator =>
    obtain ⟨h, index, pointed, wellKnown⟩ := knows
    rw [handles] at pointed
    rw [name] at wellKnown
    by_cases same : sid.toNat = victim.toNat
    · rw [same] at pointed
      simp at pointed
    rw [Function.update_of_ne same] at pointed
    refine .inl ⟨⟨h, index, pointed, wellKnown⟩, ?_⟩
    rintro ⟨⟩
    exact absurd rfl same

theorem stateAfter_knows (ops : List PortOp) (valid : state.HandlesValid)
    (knows : (stateAfter state ops).Knows sid) :
    state.Knows sid ∧ (PortOp.kill sid ∈ ops → maxSessions ≤ sid.toNat) ∨
      ∃ op ∈ ops, Introduces sid op := by
  induction ops generalizing state with
  | nil => exact .inl ⟨knows, nofun⟩
  | cons op rest hypothesis =>
    have step := op.doorStep state
    rcases hypothesis (step.handlesValid valid) knows with
      ⟨middle, spared⟩ | ⟨later, member, introduces⟩
    · rcases step.knows valid middle with ⟨before, notKilled⟩ | introduces
      · refine .inl ⟨before, ?_⟩
        rw [mem_cons]
        rintro (kills | kills)
        · exact notKilled kills.symm
        · exact spared kills
      · exact .inr ⟨op, mem_cons_self, introduces⟩
    · exact .inr ⟨later, mem_cons_of_mem op member, introduces⟩

theorem nameOwnedBy_of_not_knows {name : Bytes} (unknown : ¬ state.Knows sid)
    (wellKnown : name ∈ wellKnownNames) : state.nameOwnedBy sid name = false := by
  unfold nameOwnedBy
  split
  · rfl
  rw [any_eq_false]
  intro h _
  split
  · exact Bool.false_ne_true
  next index pointed =>
  intro owned
  rw [Bool.and_eq_true, decide_eq_true_eq] at owned
  refine unknown ⟨h, index, pointed, ?_⟩
  rw [owned.2]
  exact wellKnown

end Ports

/-! ## Sessions that held the capability -/

def Sched.mayBindWellKnown (sched : Sched) (sid : UInt32) : Bool :=
  sched.capmaskOf sid &&& capPortbind ≠ 0

/-- The machine, and which slots' sessions have held the capability. -/
structure Watched where
  machine : Machine
  held : Nat → Bool

open Watched

def Watched.next (watched : Watched) (op : GuestOp) : Watched where
  machine := op.run watched.machine
  held := fun slot =>
    (op.run watched.machine).sched.mayBindWellKnown (UInt32.ofNat slot) ||
      watched.held slot && !Machine.spawned watched.machine.sched (op.run watched.machine).sched
        slot

def Watched.boot : Watched where
  machine := .boot
  held := fun _ => false

/--
Only holders of the capability create ports of well-known names, and nobody
exits with a working handle to one.
-/
def GuestOp.Discreet (machine : Machine) : GuestOp → Prop
  | .create sid name => cstr name ∈ wellKnownNames → machine.sched.mayBindWellKnown sid = true
  | .exit sid =>
    ∀ h index, machine.ports.portOf sid h = some index →
      (machine.ports.ports index).name ∉ wellKnownNames
  | _ => True

/-- A discreet step of the watched machine. -/
def Watched.DiscreetStep (before : Watched) (op : GuestOp) (after : Watched) : Prop :=
  op.Discreet before.machine ∧ before.next op = after

/-- Only live sessions that held the capability reach well-known ports. -/
structure Watched.Guarded (watched : Watched) : Prop where
  valid : watched.machine.ports.HandlesValid
  guarded : ∀ sid, watched.machine.ports.Knows sid → watched.machine.sched.alive sid = true ∧
    watched.held sid.toNat = true

theorem Watched.boot_guarded : boot.Guarded where
  valid := portsInit_handlesValid
  guarded := by rintro sid ⟨h, index, ⟨⟩, _⟩

/-- Discreet introductions are for live sessions that hold the capability. -/
theorem GuestOp.holds_of_introduces {machine : Machine} {op : GuestOp} {port : PortOp}
    {sid : UInt32} (discreet : op.Discreet machine) (member : port ∈ op.portOps machine)
    (introduces : Introduces sid port) :
    op.touchesSessions = false ∧ machine.sched.alive sid = true ∧
      machine.sched.mayBindWellKnown sid = true := by
  have opens : port.opensDoor = true := by cases introduces <;> rfl
  rcases of_opensDoor member opens with
    ⟨caller, name, rfl, rfl⟩ | ⟨caller, name, rfl, may, rfl⟩
  · generalize lives : machine.sched.alive caller = alive at introduces
    cases introduces with
    | create wellKnown => exact ⟨rfl, lives, discreet wellKnown⟩
  · generalize lives : machine.sched.alive caller = alive at introduces
    cases introduces with
    | bind wellKnown =>
      refine ⟨rfl, lives, ?_⟩
      unfold Machine.mayBind isWellKnownName at may
      rw [contains_iff_mem.mpr wellKnown] at may
      simpa [mayBindWellKnown] using may

theorem GuestOp.exit_or_kill_of_ends {machine : Machine} {op : GuestOp} {sid : UInt32}
    (ends : op.ends machine sid = true) :
    op = .exit sid ∨ PortOp.kill sid ∈ op.portOps machine := by
  have killed : ∀ ops : List PortOp, ops.contains (.kill sid) = true → PortOp.kill sid ∈ ops :=
    fun ops contained => List.contains_iff_mem.mp contained
  cases op with
  | create | send | recv => exact .inr (killed _ ends)
  | reap | preload =>
    have member := killed _ ends
    unfold KernOp.portOps at member
    split at member <;> cases member
  | bind caller name =>
    have member := killed _ ends
    unfold KernOp.portOps at member
    split at member
    · cases member
    · rw [List.mem_singleton] at member
      cases member
  | exit gone =>
    left
    simp only [GuestOp.ends, GuestOp.kern, KernOp.ends, Bool.and_eq_true, decide_eq_true_eq] at ends
    rw [ends.2]
  | _ => cases ends

theorem Sched.alive_iff (sched : Sched) (sid : UInt32) : sched.alive sid = true ↔
    0 < sid ∧ sid.toNat < maxSessions ∧ (sched.sessions sid.toNat).status ≠ .free ∧
      (sched.sessions sid.toNat).status ≠ .zombie := by
  simp [alive, occupied, and_assoc]

theorem Watched.Guarded.next {before after : Watched} {op : GuestOp} (guarded : before.Guarded)
    (step : before.DiscreetStep op after) : after.Guarded := by
  obtain ⟨discreet, rfl⟩ := step
  refine ⟨op.run_handlesValid guarded.valid, ?_⟩
  intro sid knows
  change (op.run before.machine).ports.Knows sid at knows
  by_cases runs : op.Runs before.machine
  · rw [run_ports runs] at knows
    rcases stateAfter_knows _ guarded.valid knows with
      ⟨knew, spared⟩ | ⟨port, member, introduces⟩
    · obtain ⟨alive, held⟩ := guarded.guarded sid knew
      obtain ⟨positive, inTable, taken, notZombie⟩ := (alive_iff _ _).mp alive
      refine ⟨?_, by simp [Watched.next, Machine.spawned, taken, held]⟩
      rw [alive_iff]
      refine ⟨positive, inTable, ?_⟩
      -- Neither an exit nor a kill ends a session with a well-known port.
      cases op.slotStep before.machine sid.toNat with
      | idle free | spawned _ free => exact absurd free taken
      | kept _ same =>
        exact ⟨fun free => taken (same.symm.trans free),
          fun zombie => notZombie (same.symm.trans zombie)⟩
      | died ends _ _ =>
        rw [UInt32.ofNat_toNat] at ends
        rcases exit_or_kill_of_ends ends with rfl | killed
        · obtain ⟨h, index, pointed, wellKnown⟩ := knew
          exact absurd wellKnown (discreet h index (guarded.valid.portOf inTable pointed))
        · exact absurd inTable (Nat.not_lt.mpr (spared killed))
      | reaped _ zombie _ _ => exact absurd zombie notZombie
    · obtain ⟨quiet, alive, holds⟩ := holds_of_introduces discreet member introduces
      have same := op.run_sched_of_quiet before.machine quiet
      rw [← same] at alive holds
      exact ⟨alive, by simp [Watched.next, holds]⟩
  · have rests : op.run before.machine = before.machine := by
      unfold run
      rw [if_neg runs]
    rw [rests] at knows
    obtain ⟨alive, held⟩ := guarded.guarded sid knows
    have taken := ((alive_iff _ _).mp alive).2.2.1
    refine ⟨?_, by simp [Watched.next, Machine.spawned, taken, held]⟩
    change (op.run before.machine).sched.alive sid = true
    rw [rests]
    exact alive

/--
Over every history in which only holders of the port-bind capability create
ports of well-known names and nobody exits with a handle to one, a session that
never held the capability has no working handle to a port of a well-known name
and owns none; in particular it is not the login service.
-/
theorem well_known_names_protected {ops : List GuestOp} {final : Watched}
    (run : Run Watched.DiscreetStep .boot ops final) (sid : UInt32)
    (never : final.held sid.toNat = false) :
    (∀ name ∈ wellKnownNames, (∀ h index, final.machine.ports.portOf sid h = some index →
        (final.machine.ports.ports index).name ≠ name) ∧
      final.machine.ports.nameOwnedBy sid name = false) ∧ final.machine.isLogin sid = false := by
  have guarded : final.Guarded := run.invariant (fun guarded step => guarded.next step) boot_guarded
  have unknown : ¬ final.machine.ports.Knows sid := by
    intro knows
    have held := (guarded.guarded sid knows).2
    exact absurd (held.symm.trans never) (by decide)
  refine ⟨?_, ?_⟩
  · intro name wellKnown
    refine ⟨?_, nameOwnedBy_of_not_knows unknown wellKnown⟩
    rintro h index found rfl
    obtain ⟨_, pointed, _⟩ := portOf_eq_some_iff.mp found
    exact unknown ⟨h.toNat, index, pointed, wellKnown⟩
  · exact nameOwnedBy_of_not_knows unknown (by decide)

/-! ## A login service and an application -/

def Watched.after (ops : List GuestOp) : Watched := ops.foldl next .boot

def startOp (name : Bytes) (capmask : UInt64) : GuestOp := .spawn plainEnv.spawn name 1 capmask []

def impostorOps : List GuestOp := [startOp (ascii "app") 0, .create 1 (ascii "login")]

/--
A session that never held the port-bind capability creates a port of the name
`login`, holds a working handle to it and passes the test for its owner.
-/
theorem impostor_owns_login : (after impostorOps).held 1 = false ∧
    (after impostorOps).machine.ports.portOf 1 0 = some 3 ∧
    ((after impostorOps).machine.ports.ports 3).name = ascii "login" ∧
    (after impostorOps).machine.ports.nameOwnedBy 1 (ascii "login") = true ∧
    (after impostorOps).machine.isLogin 1 = true := by
  decide +kernel

def loginOps : List GuestOp :=
  [startOp (ascii "login") capPortbind, startOp (ascii "app") 0,
    .create 1 (ascii "login"), .bind 2 (ascii "login"),
    .create 2 (ascii "app")]

/-- The service is the login service, and the application is not. -/
theorem well_known_names_protected_of_login :
    Run Watched.DiscreetStep .boot loginOps (after loginOps) ∧
      (after loginOps).machine.isLogin 1 = true ∧
      (after loginOps).machine.ports.portOf 2 0 = some 4 ∧
      (after loginOps).held 2 = false ∧
      (after loginOps).machine.isLogin 2 = false := by
  have run : Run Watched.DiscreetStep .boot loginOps (after loginOps) := by
    refine .cons ⟨trivial, rfl⟩ (.cons ⟨trivial, rfl⟩
      (.cons ⟨?_, rfl⟩ (.cons ⟨trivial, rfl⟩ (.cons ⟨?_, rfl⟩ (.nil _)))))
    · intro _
      decide +kernel
    · intro wellKnown
      exact absurd wellKnown (by decide)
  have never : (after loginOps).held 2 = false := by decide +kernel
  exact ⟨run, by decide +kernel, by decide +kernel, never,
    (well_known_names_protected run 2 never).2⟩

end KernelLane.Kern
