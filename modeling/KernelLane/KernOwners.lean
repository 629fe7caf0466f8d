import KernelLane.KernLife

namespace KernelLane.Kern

open GuestFrame Ports List Sched CpuOp UInt32 Bool

/-!
# Port names and their owners

A port remembers its creator by the number of its slot, and no death looks at
the ports: the port of a dead session stays in use under its name, so that
nobody can create the name again, and the next session in the slot counts as
its creator.  Names follow live owners as long as no session dies that has
created a port.
-/

/-- The processor, and which sessions there were. -/
structure Owners where
  cpu : Cpu
  /-- The number of sessions that each slot has had. -/
  age : Nat → Nat
  /-- Which of its slot's sessions created a port. -/
  made : Nat → Nat

namespace Owners

def next (owners : Owners) (op : CpuOp) : Owners where
  cpu := op.run owners.cpu
  age := fun slot =>
    if (op.act owners.cpu).spawns owners.cpu slot then owners.age slot + 1
    else owners.age slot
  made := fun index =>
    if (owners.cpu.ports.ports index).used then owners.made index
    else owners.age ((op.run owners.cpu).ports.ports index).creator.toNat

def boot : Owners where
  cpu := .boot
  age := fun _ => 0
  made := fun _ => 0

def livingOwner (owners : Owners) (index : Nat) : Prop :=
  owners.cpu.sched.alive (owners.cpu.ports.ports index).creator = true ∧ owners.made index =
    owners.age (owners.cpu.ports.ports index).creator.toNat

/-- The recorded owner of a session's port is the live session it is of. -/
def Recorded (owners : Owners) : Prop :=
  ∀ index, (owners.cpu.ports.ports index).used = true → (owners.cpu.ports.ports index).creator ≠ 0 →
    owners.livingOwner index

/--
A name that no live session owns, and that is none of the kernel's, can be
created by a session that has room for it, and makes it the owner.
-/
def Creatable (owners : Owners) : Prop :=
  ∀ sid name, owners.cpu.sched.alive sid = true → name ≠ [] → name.length ≤ 15 → 0 ∉ name →
    (∀ index, (owners.cpu.ports.ports index).used = true →
      (owners.cpu.ports.ports index).name = name →
      (owners.cpu.ports.ports index).creator ≠ 0 ∧ ¬ owners.livingOwner index) →
    (owners.cpu.ports.freeHandle sid).isSome →
    (∃ index < maxPorts, (owners.cpu.ports.ports index).used = false) →
    (owners.cpu.ports.portCreate true sid name).2.nameOwnedBy sid name = true

end Owners

def Ports.owns (state : Ports) (sid : UInt32) : Bool :=
  (range maxPorts).any fun index => state.ownedBy sid index

def CpuOp.sparesOwners (cpu : Cpu) (op : CpuOp) : Bool :=
  match op.act cpu with
  | .guest guest =>
    slots.all fun slot =>
      !(guest.ends cpu.toMachine (ofNat slot) && cpu.ports.owns (ofNat slot))
  | .finish sid => !cpu.ports.owns sid
  | _ => true

/-- A step in which no owner of a port dies. -/
def Owners.SparingStep (before : Owners) (op : CpuOp) (after : Owners) : Prop :=
  op.sparesOwners before.cpu = true ∧ before.next op = after

/-! ## Where ports come from -/

namespace Ports

variable {state after : Ports}

/-- A port in use was so before with the same creator, or was just created. -/
theorem DoorStep.creator {op : PortOp} (step : DoorStep state after op) (index : Nat) :
    ((state.ports index).used = true → (after.ports index).used = true ∧
      (after.ports index).creator = (state.ports index).creator) ∧
    ((state.ports index).used = false → (after.ports index).used = true → index < maxPorts ∧
      ∃ sid name, op = .create true sid name ∧ (after.ports index).creator = sid) := by
  cases step with
  | same _ doors =>
    refine ⟨fun used => ?_, fun unused used => ?_⟩
    · exact ⟨(doors.used index).trans used, (doors.header index used).2⟩
    · rw [doors.used index] at used
      exact absurd (used.symm.trans unused) (by decide)
  | @opened sid name h target _ _ inTable free _ _ _ created others =>
    by_cases same : index = target
    · subst same
      refine ⟨fun used => ?_, fun _ _ => ?_⟩
      · exact absurd (used.symm.trans free) (by decide)
      · exact ⟨inTable, sid, name, rfl, created⟩
    · rw [others index same]
      refine ⟨fun used => ⟨used, rfl⟩, fun unused used => ?_⟩
      exact absurd (used.symm.trans unused) (by decide)
  | bound h target _ _ _ bind =>
    subst bind
    refine ⟨fun used => ⟨used, rfl⟩, fun unused used => ?_⟩
    exact absurd (used.symm.trans unused) (by decide)
  | cleared _ _ used _ creator =>
    refine ⟨fun isUsed => ?_, fun unused isUsed => ?_⟩
    · exact ⟨(used index).trans isUsed, creator index⟩
    · rw [used index] at isUsed
      exact absurd (isUsed.symm.trans unused) (by decide)

theorem stateAfter_creator (ops : List PortOp) (index : Nat) : ((state.ports index).used = true →
      ((stateAfter state ops).ports index).used = true ∧
        ((stateAfter state ops).ports index).creator = (state.ports index).creator) ∧
    ((state.ports index).used = false → ((stateAfter state ops).ports index).used = true →
      index < maxPorts ∧ ∃ sid name, .create true sid name ∈ ops ∧
        ((stateAfter state ops).ports index).creator = sid) := by
  induction ops generalizing state with
  | nil =>
    refine ⟨fun used => ⟨used, rfl⟩, fun unused used => ?_⟩
    exact absurd (used.symm.trans unused) (by decide)
  | cons op rest hypothesis =>
    have step := (op.doorStep state).creator index
    have later := @hypothesis (op.run state).2
    refine ⟨fun used => ?_, fun unused used => ?_⟩
    · obtain ⟨stillUsed, same⟩ := step.1 used
      obtain ⟨lastUsed, last⟩ := later.1 stillUsed
      exact ⟨lastUsed, last.trans same⟩
    · by_cases now : ((op.run state).2.ports index).used = true
      · obtain ⟨inTable, sid, name, created, creator⟩ := step.2 unused now
        refine ⟨inTable, sid, name, ?_, ?_⟩
        · rw [created]
          exact mem_cons_self
        · exact (later.1 now).2.trans creator
      · obtain ⟨inTable, sid, name, member, creator⟩ :=
          later.2 (eq_false_of_not_eq_true now) used
        exact ⟨inTable, sid, name, mem_cons_of_mem op member, creator⟩

end Ports

theorem GuestOp.effect_creator (machine : Machine) (op : GuestOp) (index : Nat) :
    ((machine.ports.ports index).used = true → ((op.effect machine).ports.ports index).creator =
      (machine.ports.ports index).creator) ∧ ((machine.ports.ports index).used = false →
      ((op.effect machine).ports.ports index).used = true →
      index < maxPorts ∧ ∃ sid name, op = .create sid name ∧ machine.sched.alive sid = true ∧
        ((op.effect machine).ports.ports index).creator = sid) := by
  rw [op.effect_ports machine]
  obtain ⟨old, new⟩ := stateAfter_creator (op.portOps machine) index
  refine ⟨fun used => (old used).2, fun unused used => ?_⟩
  obtain ⟨inTable, sid, name, member, creator⟩ := new unused used
  refine ⟨inTable, ?_⟩
  rcases GuestOp.of_opensDoor member rfl with
    ⟨caller, asked, rfl, same⟩ | ⟨caller, asked, _, _, other⟩
  · injection same with alive sameCaller sameName
    subst sameCaller
    exact ⟨sid, asked, rfl, alive.symm, creator⟩
  · cases other

/-! ## Owners stay alive -/

/-- Every port lies in the table, and its recorded owner lives. -/
structure Owners.Kept (owners : Owners) : Prop where
  inTable : ∀ index, (owners.cpu.ports.ports index).used = true → index < maxPorts
  recorded : owners.Recorded

theorem Ports.owns_of_used {state : Ports} {index : Nat} (inTable : index < maxPorts)
    (used : (state.ports index).used = true) : state.owns (state.ports index).creator = true := by
  unfold owns
  rw [any_eq_true]
  exact ⟨index, mem_range.mpr inTable, by simp [ownedBy, inTable, used]⟩

variable {sched : Sched} {sid : UInt32} {owners : Owners}

theorem Sched.alive_setStatus (alive : sched.alive sid = true) (slot : Nat) {status : Status}
    (lives : status ≠ .free ∧ status ≠ .zombie) :
    (sched.setStatus slot status).alive sid = true := by
  obtain ⟨positive, inTable, taken, notZombie⟩ := (alive_iff _ _).mp alive
  refine (alive_iff _ _).mpr ⟨positive, inTable, ?_⟩
  by_cases same : sid.toNat = slot
  · subst same
    rw [setStatus, sessions_setSession_self]
    exact lives
  · rw [setStatus_of_ne _ _ same]
    exact ⟨taken, notZombie⟩

theorem Sched.alive_setStatus_of_ne {slot : Nat} (different : sid.toNat ≠ slot) (status : Status) :
    (sched.setStatus slot status).alive sid = sched.alive sid := by
  unfold alive occupied
  rw [setStatus_of_ne _ _ different]

theorem Sched.alive_reapZombies (alive : sched.alive sid = true) :
    sched.reapZombies.alive sid = true := by
  obtain ⟨positive, inTable, taken, notZombie⟩ := (alive_iff _ _).mp alive
  refine (alive_iff _ _).mpr ⟨positive, inTable, ?_⟩
  dsimp only [reapZombies]
  rw [if_neg fun zombie => notZombie zombie.2]
  exact ⟨taken, notZombie⟩

theorem CpuOp.alive_of_sparesOwners {cpu : Cpu} {op : CpuOp} (spares : op.sparesOwners cpu = true)
    (alive : cpu.sched.alive sid = true) (owns : cpu.ports.owns sid = true) :
    (op.run cpu).sched.alive sid = true := by
  obtain ⟨positive, inTable, taken, notZombie⟩ := (alive_iff _ _).mp alive
  unfold sparesOwners at spares
  unfold run
  cases acts : op.act cpu with
  | guest guest =>
    rw [acts] at spares
    have member : sid.toNat ∈ slots := mem_slots.mpr ⟨lt_iff_toNat_lt.mp positive, inTable⟩
    have lives := all_eq_true.mp spares sid.toNat member
    rw [UInt32.ofNat_toNat, owns, Bool.and_true, Bool.not_eq_true'] at lives
    refine (alive_iff _ _).mpr ⟨positive, inTable, ?_⟩
    change ((guest.effect cpu.toMachine).sched.sessions sid.toNat).status ≠ .free ∧
      ((guest.effect cpu.toMachine).sched.sessions sid.toNat).status ≠ .zombie
    cases guest.effect_slotStep cpu.toMachine sid.toNat with
    | idle free | spawned _ free => exact absurd free taken
    | kept _ same =>
      rw [same]
      exact ⟨taken, notZombie⟩
    | died ends _ _ =>
      rw [UInt32.ofNat_toNat] at ends
      exact absurd (ends.symm.trans lives) (by decide)
    | reaped _ zombie _ _ => exact absurd zombie notZombie
  | turn received =>
    have swept : (cpu.sweep received).sched.alive sid = true := alive_reapZombies alive
    rcases cpu.turn_cases received with
      ⟨_, same⟩ | ⟨_, ⟨_, same⟩ | ⟨slot, _, same⟩⟩
    · rw [Cpu.perform, same]
      exact alive
    · rw [Cpu.perform, same]
      exact swept
    · rw [Cpu.perform, same]
      exact alive_setStatus swept slot (by decide)
  | yield gone preemptOn => exact alive_setStatus alive gone.toNat (by decide)
  | finish gone =>
    rw [acts, not_eq_true'] at spares
    have different : sid.toNat ≠ gone.toNat := by
      intro same
      rw [UInt32.toNat_inj.mp same] at owns
      exact absurd (owns.symm.trans spares) (by decide)
    change (cpu.sched.setStatus gone.toNat .zombie).alive sid = true
    rw [alive_setStatus_of_ne different]
    exact alive
  | _ => exact alive

theorem Owners.age_next (alive : owners.cpu.sched.alive sid = true) (op : CpuOp) :
    (owners.next op).age sid.toNat = owners.age sid.toNat := by
  have taken := ((alive_iff _ _).mp alive).2.2.1
  have unspawned : (op.act owners.cpu).spawns owners.cpu sid.toNat = false := by
    unfold CpuAct.spawns
    split
    · simp [Machine.spawned, taken]
    · rfl
  simp [Owners.next, unspawned]

/-- A port in use was in use before, or a live session just created it. -/
theorem CpuOp.run_creator (cpu : Cpu) (op : CpuOp) (index : Nat) :
    ((cpu.ports.ports index).used = true → ((op.run cpu).ports.ports index).creator =
      (cpu.ports.ports index).creator) ∧
    ((cpu.ports.ports index).used = false → ((op.run cpu).ports.ports index).used = true →
      index < maxPorts ∧ cpu.sched.alive ((op.run cpu).ports.ports index).creator = true ∧
        (op.run cpu).sched = cpu.sched) := by
  unfold run
  cases acts : op.act cpu with
  | guest guest =>
    obtain ⟨old, new⟩ := guest.effect_creator cpu.toMachine index
    refine ⟨old, fun unused used => ?_⟩
    obtain ⟨inTable, sid, name, rfl, alive, creator⟩ := new unused used
    refine ⟨inTable, ?_, ?_⟩
    · change cpu.sched.alive (((GuestOp.create sid name).effect cpu.toMachine).ports.ports
        index).creator = true
      rw [creator]
      exact alive
    · exact (GuestOp.effect_spec cpu.toMachine _).1 rfl
  | _ =>
    rw [(cpu.perform_tables fun _ same => by cases same).1]
    refine ⟨fun _ => rfl, fun unused used => ?_⟩
    exact absurd (used.symm.trans unused) (by decide)

theorem Owners.Kept.next {op : CpuOp} (kept : owners.Kept)
    (spares : op.sparesOwners owners.cpu = true) : (owners.next op).Kept := by
  refine ⟨fun index used => ?_, fun index used notKernel => ?_⟩
  · by_cases before : (owners.cpu.ports.ports index).used = true
    · exact kept.inTable index before
    · exact ((op.run_creator owners.cpu index).2 (eq_false_of_not_eq_true before) used).1
  · change ((op.run owners.cpu).ports.ports index).creator ≠ 0 at notKernel
    change (op.run owners.cpu).sched.alive ((op.run owners.cpu).ports.ports index).creator = true ∧
      (owners.next op).made index = (owners.next op).age
        ((op.run owners.cpu).ports.ports index).creator.toNat
    by_cases before : (owners.cpu.ports.ports index).used = true
    · have same := (op.run_creator owners.cpu index).1 before
      rw [same] at notKernel ⊢
      obtain ⟨alive, made⟩ := kept.recorded index before notKernel
      have owns := owns_of_used (kept.inTable index before) before
      refine ⟨alive_of_sparesOwners spares alive owns, ?_⟩
      rw [owners.age_next alive op, ← made]
      simp [Owners.next, before]
    · have unused := eq_false_of_not_eq_true before
      obtain ⟨-, alive, sched⟩ := (op.run_creator owners.cpu index).2 unused used
      refine ⟨by rw [sched]; exact alive, ?_⟩
      rw [owners.age_next alive op]
      simp [Owners.next, unused]

/-! ## Names can be created again -/

/-- A name of no port in use can be created, and belongs to its creator. -/
theorem Ports.nameOwnedBy_portCreate {state : Ports} {name : Bytes} (notKernel : sid ≠ 0)
    (inTable : sid.toNat < maxSessions) (some : name ≠ []) (short : name.length ≤ 15)
    (noZero : 0 ∉ name)
    (unknown : ∀ index, (state.ports index).used = true → (state.ports index).name ≠ name)
    (handle : (state.freeHandle sid).isSome)
    (room : ∃ index < maxPorts, (state.ports index).used = false) :
    (state.portCreate true sid name).2.nameOwnedBy sid name = true := by
  have absent : state.portByName name = none := by
    unfold portByName
    rw [List.find?_eq_none]
    intro index _ known
    rw [and_eq_true, decide_eq_true_eq] at known
    exact unknown index known.1 known.2
  obtain ⟨h, free⟩ := Option.isSome_iff_exists.mp handle
  obtain ⟨place, placeIn, unused⟩ := room
  have findable : ((range maxPorts).find? fun index => !(state.ports index).used).isSome := by
    rw [List.find?_isSome]
    exact ⟨place, mem_range.mpr placeIn, by rw [unused]; rfl⟩
  obtain ⟨index, found⟩ := Option.isSome_iff_exists.mp findable
  have indexIn := mem_range.mp (mem_of_find?_eq_some found)
  have handleIn := (freeHandle_spec free).2
  have accepted : ¬ (name.length = 0 ∨ 15 < name.length ∨ sid = 0 ∨ true = false) := by
    rintro (empty | long | kernel | dead)
    · exact some (length_eq_zero_iff.mp empty)
    · exact absurd short (Nat.not_le.mpr long)
    · exact notKernel kernel
    · cases dead
  unfold portCreate
  rw [if_neg accepted, absent, found, free]
  unfold nameOwnedBy
  rw [if_neg (by simp [notKernel]; omega), any_eq_true]
  refine ⟨h, mem_range.mpr handleIn, ?_⟩
  simp [setHandle, Ports.setPort, indexIn, cstr_eq_self_iff.mpr noZero]

theorem Owners.Kept.creatable (kept : owners.Kept) : owners.Creatable := by
  intro sid name alive some short noZero dead handle room
  obtain ⟨positive, inTable, -⟩ := (alive_iff _ _).mp alive
  have notKernel : sid ≠ 0 := by
    rintro rfl
    cases positive
  refine nameOwnedBy_portCreate notKernel inTable some short noZero ?_ handle room
  intro index used named
  obtain ⟨ofSession, gone⟩ := dead index used named
  exact gone (kept.recorded index used ofSession)

theorem portsInit_used {index : Nat} (used : (portsInit.ports index).used = true) :
    index < maxPorts ∧ (portsInit.ports index).creator = 0 := by
  unfold portsInit at used ⊢
  dsimp only at used ⊢
  split at used
  · exact ⟨by decide, rfl⟩
  · exact ⟨by decide, rfl⟩
  · exact ⟨by decide, rfl⟩
  · cases used

theorem Owners.boot_kept : Owners.boot.Kept where
  inTable := fun _ used => (portsInit_used used).1
  recorded := fun _ used notKernel => absurd (portsInit_used used).2 notKernel

/--
In every run in which no session dies that owns a port, the recorded owner of
every port that is not the kernel's is the live session that created it, and a
name that no live session owns can be created by any session with room for it,
which then counts as its owner.
-/
theorem names_follow_owners {ops : List CpuOp} {final : Owners}
    (run : Run Owners.SparingStep .boot ops final) : final.Recorded ∧ final.Creatable := by
  have kept : final.Kept :=
    run.invariant (fun kept step => by
        obtain ⟨spares, rfl⟩ := step
        exact kept.next spares)
      Owners.boot_kept
  exact ⟨kept.recorded, kept.creatable⟩

/-! ## A login service that is restarted -/

def loginKilledOps : List CpuOp :=
  [killerStart, .start (startOp (ascii "login") capPortbind), .pass [],
    .call (.bind 1 (ascii "registry")), .yield true, .pass [],
    .call (.create 2 (ascii "login")), .yield true, .pass [], killOp 1 2,
    .yield true, .pass [], .yield true]

def loginRestartedOps : List CpuOp :=
  loginKilledOps ++ [.start (startOp (ascii "login") capPortbind), .pass [],
    .call (.create 2 (ascii "login"))]

/--
The port of the dead service stays in use under its name, with a creator that
is not alive; the restarted service is refused the name and is not accepted as
the login service.
-/
theorem restarted_login_refused :
    ((loginKilledOps.foldl run .boot).ports.ports 3).used = true ∧
      ((loginKilledOps.foldl run .boot).ports.ports 3).creator = 2 ∧
      (loginKilledOps.foldl run .boot).sched.alive 2 = false ∧
      (loginRestartedOps.foldl run .boot).cur = some 2 ∧
      (loginRestartedOps.foldl run .boot).sched.alive 2 = true ∧
      (loginRestartedOps.foldl run .boot).isLogin 2 = false := by
  decide +kernel

def loginStaysOps : List CpuOp :=
  [killerStart, .start (startOp (ascii "login") capPortbind),
    .start (startOp (ascii "app") 0), .pass [],
    .call (.bind 1 (ascii "registry")), .yield true, .pass [],
    .call (.create 2 (ascii "login")), .yield true, .pass [], .finish,
    .pass [], killOp 1 3, .yield true, .pass []]

theorem names_follow_login : (loginStaysOps.foldl Owners.next .boot).cpu.isLogin 2 = true ∧
    (loginStaysOps.foldl Owners.next .boot).cpu.sched.alive 3 = false ∧
    (loginStaysOps.foldl Owners.next .boot).Recorded := by
  have run : Run Owners.SparingStep .boot loginStaysOps (loginStaysOps.foldl Owners.next .boot) :=
    Run.of_admits (by decide +kernel)
  exact ⟨by decide +kernel, by decide +kernel, (names_follow_owners run).1⟩

end KernelLane.Kern
