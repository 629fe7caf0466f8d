import KernelLane.KernFresh

namespace KernelLane.Kern

open GuestFrame Function GuestOp Machine List

/-!
# Services that answer through a reply book

A service that answers a request binds the port that the client named as its
inbox, once for each name, and keeps the handle in its reply book; no handle
is ever given back.  A port stays where it is for ever, so a handle in the
book stays good as long as the service lives.  What runs out is the table of
handles: a name that is not in the book needs a free handle.
-/

/-! ## The reply book -/

def invalidHandle : Int := -1

/-- The machine and the reply book of a service: handles by name. -/
structure Answering where
  machine : Machine
  byIn : Bytes → Option Int

def Machine.portBind (machine : Machine) (sid : UInt32) (name : Bytes) : Int :=
  if machine.mayBind sid name then (machine.ports.portBind (machine.sched.alive sid) sid name).1
  else invalidHandle

namespace Answering

def bind (svc : UInt32) (name : Bytes) (before : Answering) : Int × Answering :=
  match before.byIn name with
  | some h => (h, before)
  | none =>
    let h := before.machine.portBind svc name
    let machine := (GuestOp.bind svc name).run before.machine
    if h = invalidHandle then (invalidHandle, { before with machine := machine })
    else (h, ⟨machine, update before.byIn name (some h)⟩)

def reply (svc : UInt32) (env : SvcEnv) (name rep : Bytes)
    (before : Answering) : SendOutcome × Answering :=
  match before.bind svc name with
  | (h, bound) =>
    if h = invalidHandle then (.refused, bound)
    else
      ((bound.machine.ports.portSend (bound.machine.sched.uidOf svc) env.allocOk svc h rep).1,
        { bound with machine := (send env svc h rep).run bound.machine })

end Answering

/-- What happens while a service answers. -/
inductive ServiceOp where
  /-- Any session, the service included, or the scheduler does something. -/
  | guest (op : GuestOp)
  /-- The service answers a request. -/
  | reply (env : SvcEnv) (name rep : Bytes)

open ServiceOp

def Machine.serves (machine : Machine) (svc : UInt32) : Prop :=
  machine.halted = false ∧ machine.sched.alive svc = true ∧ machine.waiting svc = false

/-- A step that the service survives. -/
def ServiceOp.Step (svc : UInt32) (before : Answering) (op : ServiceOp)
    (after : Answering) : Prop :=
  match op with
  | .guest op =>
    op.ends before.machine svc = false ∧ after = { before with machine := op.run before.machine }
  | .reply env name rep =>
    before.machine.serves svc ∧ (send env svc (before.bind svc name).1 rep).ends
          (before.bind svc name).2.machine svc =
        false ∧
      after = (before.reply svc env name rep).2

/-! ## Ports stay -/

namespace Ports

variable {state after : Ports} {sid : UInt32} {op : PortOp} {name : Bytes} {index : Nat}

/-- Whether a call takes a datagram depends on the waiting calls alone. -/
theorem fsrouteIntercept_fst_congr (name data : Bytes) (tab : after.tab = state.tab) :
    (after.fsrouteIntercept name data).1 = (state.fsrouteIntercept name data).1 := by
  have awaited : after.awaitedBy name data = state.awaitedBy name data := by
    unfold awaitedBy
    rw [tab]
  unfold fsrouteIntercept
  split
  · rfl
  · rw [awaited]
    cases state.awaitedBy name data <;> rfl

/-- The ports in use come before the others. -/
def Dense (state : Ports) : Prop :=
  ∀ index other, other < index → index < maxPorts → (state.ports index).used = true →
    (state.ports other).used = true

theorem portByName_eq_some_iff : state.portByName name = some index ↔
    (index < maxPorts ∧ (state.ports index).used = true ∧ (state.ports index).name = name) ∧
    ∀ other, other < index → (state.ports other).used = true → (state.ports other).name ≠ name := by
  unfold portByName
  rw [find?_range_eq_some]
  simp only [Bool.and_eq_true, decide_eq_true_eq, mem_range,
    Bool.not_eq_true', Bool.and_eq_false_iff, decide_eq_false_iff_not]
  constructor
  · rintro ⟨⟨used, named⟩, inTable, first⟩
    refine ⟨⟨inTable, used, named⟩, fun other before isUsed => ?_⟩
    rcases first other before with unused | different
    · exact absurd (unused.symm.trans isUsed) (by decide)
    · exact different
  · rintro ⟨⟨inTable, used, named⟩, first⟩
    refine ⟨⟨used, named⟩, inTable, fun other before => ?_⟩
    cases isUsed : (state.ports other).used with
    | false => exact .inl rfl
    | true => exact .inr (first other before isUsed)

theorem portByName_of_headers (used : ∀ index, (after.ports index).used = (state.ports index).used)
    (names : ∀ index, (state.ports index).used = true →
      (after.ports index).name = (state.ports index).name)
    (found : state.portByName name = some index) : after.portByName name = some index := by
  rw [portByName_eq_some_iff] at found ⊢
  obtain ⟨⟨inTable, isUsed, named⟩, first⟩ := found
  refine ⟨⟨inTable, ?_, ?_⟩, fun other before otherUsed => ?_⟩
  · rw [used]
    exact isUsed
  · rw [names index isUsed]
    exact named
  · rw [used] at otherUsed
    rw [names other otherUsed]
    exact first other before otherUsed

theorem Dense.lt_of_unused (dense : state.Dense) {fresh : Nat} (inTable : index < maxPorts)
    (used : (state.ports index).used = true) (unused : (state.ports fresh).used = false) :
    index < fresh := by
  by_contra behind
  rcases Nat.lt_or_eq_of_le (Nat.not_lt.mp behind) with before | same
  · have usedToo := dense index fresh before inTable used
    exact absurd (usedToo.symm.trans unused) (by decide)
  · subst same
    exact absurd (used.symm.trans unused) (by decide)

theorem portsInit_dense : portsInit.Dense := by
  intro index other before _ used
  match index, other with
  | 1, 0 => rfl
  | 2, 0 => rfl
  | 2, 1 => rfl
  | _ + 3, _ => cases used

theorem Dense.create (dense : state.Dense) (alive : Bool) (sid : UInt32) (name : Bytes) :
    (state.portCreate alive sid name).2.Dense := by
  unfold portCreate
  split
  · exact dense
  split
  · exact dense
  split
  · exact dense
  next fresh found =>
  obtain ⟨unused, _, first⟩ := find?_range_eq_some.mp found
  have earlier : ∀ other, other < fresh → (state.ports other).used = true := by
    intro other before
    simpa using first other before
  split
  · intro index other before inTable used
    dsimp only [setHandle, setPort] at used ⊢
    by_cases here : other = fresh
    · rw [here, update_self]
    rw [update_of_ne here]
    by_cases new : index = fresh
    · exact earlier other (new ▸ before)
    · rw [update_of_ne new] at used
      exact dense index other before inTable used
  · intro index other before inTable used
    dsimp only [setPort] at used ⊢
    by_cases new : index = fresh
    · rw [new, update_self] at used
      cases used
    rw [update_of_ne new] at used
    by_cases here : other = fresh
    · have usedToo := dense index other before inTable used
      rw [here] at usedToo
      rw [usedToo] at unused
      cases unused
    · rw [update_of_ne here]
      exact dense index other before inTable used

theorem Dense.run (dense : state.Dense) (op : PortOp) : (op.run state).2.Dense := by
  have step := op.doorStep state
  have keeps : (∀ index, ((op.run state).2.ports index).used = (state.ports index).used) →
      (op.run state).2.Dense := by
    intro used index other before inTable isUsed
    rw [used] at isUsed ⊢
    exact dense index other before inTable isUsed
  cases step with
  | same _ doors => exact keeps doors.used
  | opened => exact dense.create _ _ _
  | bound h index notKernel handle found bind => exact keeps fun _ => by rw [bind]; rfl
  | cleared inTable handles used name creator => exact keeps used

/-- What the service relies on: its handles and the ports behind names. -/
structure Stays (svc : UInt32) (state after : Ports) : Prop where
  handle : ∀ h index, state.htab svc.toNat h = some index → after.htab svc.toNat h = some index
  name : ∀ name index, state.portByName name = some index → after.portByName name = some index

theorem Stays.refl (svc : UInt32) (state : Ports) : Stays svc state state :=
  ⟨fun _ _ => id, fun _ _ => id⟩

variable {svc : UInt32}

theorem Stays.trans {last : Ports} (first : Stays svc state after) (second : Stays svc after last) :
    Stays svc state last where
  handle := fun h index pointed => second.handle h index (first.handle h index pointed)
  name := fun name index found => second.name name index (first.name name index found)

/-- Every operation but the death of the service leaves it its handles. -/
theorem DoorStep.stays (step : DoorStep state after op) (dense : state.Dense)
    (lives : op ≠ .kill svc) : Stays svc state after := by
  cases step with
  | same _ doors =>
    refine ⟨fun h index pointed => ?_, fun name index found => ?_⟩
    · rw [doors.htab]
      exact pointed
    · exact portByName_of_headers doors.used (fun other used => (doors.header other used).1) found
  | opened h fresh notKernel handle inTable unused handles used named created others =>
    refine ⟨fun g index pointed => ?_, fun name index found => ?_⟩
    · rw [handles, htab_setHandle (freeHandle_spec handle).1]
      exact .inl pointed
    · rw [portByName_eq_some_iff] at found ⊢
      obtain ⟨⟨within, isUsed, isNamed⟩, first⟩ := found
      have before := dense.lt_of_unused within isUsed unused
      rw [others index before.ne]
      refine ⟨⟨within, isUsed, isNamed⟩, fun other earlier => ?_⟩
      rw [others other (earlier.trans before).ne]
      exact first other earlier
  | bound h index notKernel handle found bind =>
    subst bind
    refine ⟨fun g stored pointed => ?_, fun _ _ => id⟩
    rw [htab_setHandle (freeHandle_spec handle).1]
    exact .inl pointed
  | @cleared victim inTable handles used names creator =>
    refine ⟨fun h index pointed => ?_, fun name index found => ?_⟩
    · rw [handles, update_of_ne]
      · exact pointed
      · intro same
        exact lives (congrArg _ (UInt32.toNat_inj.mp same).symm)
    · exact portByName_of_headers used (fun other _ => names other) found

theorem stateAfter_stays {ops : List PortOp} (dense : state.Dense) (lives : PortOp.kill svc ∉ ops) :
    (stateAfter state ops).Dense ∧ Stays svc state (stateAfter state ops) := by
  induction ops generalizing state with
  | nil => exact ⟨dense, .refl svc state⟩
  | cons op rest hypothesis =>
    rw [mem_cons, not_or] at lives
    obtain ⟨laterDense, later⟩ := hypothesis (dense.run op) lives.2
    have first := (op.doorStep state).stays dense (fun kills => lives.1 kills.symm)
    exact ⟨laterDense, first.trans later⟩

end Ports

open Ports

theorem GuestOp.not_kill_of_lives {machine : Machine} {op : GuestOp} {sid : UInt32}
    (lives : op.ends machine sid = false) : PortOp.kill sid ∉ op.portOps machine := by
  intro kills
  cases issues kills with
  | @send env caller h data _ sent =>
    exact @KernOp.not_kill_of_lives machine.toKernel (.send env caller h data) sid lives sent

variable {machine : Machine}

/-- What a service relies on stays along an operation that it survives. -/
theorem GuestOp.run_stays {op : GuestOp} {svc : UInt32}
    (dense : machine.ports.Dense) (lives : op.ends machine svc = false) :
    (op.run machine).ports.Dense ∧ Stays svc machine.ports (op.run machine).ports := by
  by_cases runs : op.Runs machine
  · rw [run_ports runs]
    exact stateAfter_stays dense (not_kill_of_lives lives)
  unfold run
  rw [if_neg runs]
  exact ⟨dense, .refl svc _⟩

/-- A handle that the bind import returned was free and leads to the port. -/
theorem Machine.portBind_spec {sid : UInt32} {name : Bytes}
    (bound : machine.portBind sid name ≠ invalidHandle) :
    machine.mayBind sid name = true ∧ ∃ (g : Nat) (index : Nat),
      machine.ports.freeHandle sid = some g ∧ machine.ports.portByName name = some index ∧
        machine.ports.portBind (machine.sched.alive sid) sid name =
          ((g : Int), machine.ports.setHandle sid g index) := by
  unfold portBind at bound
  by_cases may : machine.mayBind sid name = true
  swap
  · rw [if_neg may] at bound
    exact absurd rfl bound
  refine ⟨may, ?_⟩
  rw [if_pos may] at bound
  unfold Ports.portBind at bound ⊢
  split at bound
  · exact absurd rfl bound
  next valid =>
  rw [if_neg valid]
  cases found : machine.ports.portByName name with
  | none =>
    rw [found] at bound
    exact absurd rfl bound
  | some index =>
    rw [found] at bound
    cases handle : machine.ports.freeHandle sid with
    | none =>
      rw [handle] at bound
      exact absurd rfl bound
    | some g => exact ⟨g, index, rfl, rfl, rfl⟩

/-! ## The book stays good -/

namespace Answering

/-- Every handle in the book leads to the port of its name. -/
structure Good (svc : UInt32) (answering : Answering) : Prop where
  valid : answering.machine.ports.HandlesValid
  dense : answering.machine.ports.Dense
  book : ∀ name h, answering.byIn name = some h → ∃ (g : Nat) (index : Nat),
    h = g ∧ answering.machine.ports.htab svc.toNat g = some index ∧
      answering.machine.ports.portByName name = some index

variable {svc : UInt32}

theorem Good.guest {answering : Answering} (good : answering.Good svc) {op : GuestOp}
    (lives : op.ends answering.machine svc = false) :
    ({ answering with machine := op.run answering.machine } : Answering).Good svc := by
  obtain ⟨dense, stays⟩ := run_stays good.dense lives
  refine ⟨op.run_handlesValid good.valid, dense, fun name h known => ?_⟩
  obtain ⟨g, index, same, pointed, found⟩ := good.book name h known
  exact ⟨g, index, same, stays.handle g index pointed, stays.name name index found⟩

theorem run_bind (serves : machine.serves svc) (name : Bytes) :
    ((GuestOp.bind svc name).run machine).sched = machine.sched ∧
      ((GuestOp.bind svc name).run machine).ports =
        if machine.mayBind svc name then (machine.ports.portBind true svc name).2
        else machine.ports := by
  obtain ⟨running, alive, idle⟩ := serves
  have runs : (GuestOp.bind svc name).Runs machine := by
    refine ⟨running, ?_, .inr ?_⟩
    · simpa [GuestOp.caller] using alive
    · simpa [caller] using idle
  unfold run
  rw [if_pos runs]
  dsimp only [effect]
  split
  · constructor
    · simp [withKernel, KernOp.run, running]
    · simp [withKernel, KernOp.run, running, alive]
  · exact ⟨rfl, rfl⟩

/-- There is a handle for the name: in the book, or a free one. -/
def CanBind (svc : UInt32) (name : Bytes) (answering : Answering) : Prop :=
  (answering.byIn name).isSome = true ∨ answering.machine.mayBind svc name = true ∧
    (answering.machine.ports.freeHandle svc).isSome = true

variable {before : Answering}

theorem Good.bind (good : before.Good svc)
    (serves : before.machine.serves svc) {name : Bytes} {index : Nat}
    (inbox : before.machine.ports.portByName name = some index) (can : before.CanBind svc name) :
    ∃ g : Nat, (before.bind svc name).1 = g ∧
      (before.bind svc name).2.machine.sched = before.machine.sched ∧
      (before.bind svc name).2.machine.ports.ports = before.machine.ports.ports ∧
      (before.bind svc name).2.machine.ports.tab = before.machine.ports.tab ∧
      (before.bind svc name).2.machine.ports.portOf svc g = some index := by
  have positive := (Sched.alive_iff _ _).mp serves.2.1
  have notKernel : svc ≠ 0 := by
    rintro rfl
    exact absurd positive.1 (by decide)
  unfold Answering.bind
  cases known : before.byIn name with
  | some h =>
    obtain ⟨g, stored, same, pointed, found⟩ := good.book name h known
    rw [inbox] at found
    cases found
    exact ⟨g, same, rfl, rfl, rfl, good.valid.portOf positive.2.1 pointed⟩
  | none =>
    rcases can with inBook | ⟨may, free⟩
    · rw [known] at inBook
      cases inBook
    obtain ⟨g, handle⟩ := Option.isSome_iff_exists.mp free
    obtain ⟨sched, ports⟩ := run_bind serves name
    have bound : before.machine.ports.portBind true svc name =
        ((g : Int), before.machine.ports.setHandle svc g index) := by
      simp [Ports.portBind, notKernel, inbox, handle]
    rw [if_pos may, bound] at ports
    have result : before.machine.portBind svc name = g := by
      rw [Machine.portBind, if_pos may, serves.2.1, bound]
    have valid : (g : Int) ≠ invalidHandle := by
      unfold invalidHandle
      omega
    rw [result, if_neg valid]
    refine ⟨g, rfl, sched, by rw [ports]; rfl, by rw [ports]; rfl, ?_⟩
    have after := (GuestOp.bind svc name).run_handlesValid good.valid
    refine after.portOf positive.2.1 ?_
    rw [ports]
    simp [setHandle]

theorem bind_of_not_canBind {name : Bytes} (cannot : ¬before.CanBind svc name) :
    (before.bind svc name).1 = invalidHandle := by
  unfold CanBind at cannot
  rw [not_or, not_and] at cannot
  obtain ⟨unknown, noHandle⟩ := cannot
  have missing : before.byIn name = none := by simpa using unknown
  unfold Answering.bind
  rw [missing]
  have failed : before.machine.portBind svc name = invalidHandle := by
    by_contra bound
    obtain ⟨may, g, _, handle, _⟩ := portBind_spec bound
    exact noHandle may (by rw [handle]; rfl)
  rw [if_pos failed]

theorem Good.bound {svc : UInt32} {before : Answering} (good : before.Good svc)
    (serves : before.machine.serves svc) (name : Bytes) : (before.bind svc name).2.Good svc := by
  have lives : (GuestOp.bind svc name).ends before.machine svc = false := by
    simp only [GuestOp.ends, GuestOp.kern, KernOp.ends, KernOp.portOps]
    split <;> simp
  have kept := good.guest lives
  unfold Answering.bind
  cases known : before.byIn name with
  | some h => exact good
  | none =>
    dsimp only
    split
    · exact kept
    next bound =>
      obtain ⟨_, ports⟩ := run_bind serves name
      refine ⟨kept.valid, kept.dense, fun other h inBook => ?_⟩
      dsimp only at inBook ⊢
      by_cases new : other = name
      · subst new
        rw [update_self] at inBook
        cases inBook
        obtain ⟨may, g, index, handle, found, result⟩ := portBind_spec bound
        rw [if_pos may, ← serves.2.1, result] at ports
        refine ⟨g, index, ?_, ?_, ?_⟩
        · rw [Machine.portBind, if_pos may, result]
        · rw [ports]
          simp [setHandle]
        · rw [ports]
          exact found
      · rw [update_of_ne new] at inBook
        exact kept.book other h inBook

theorem Good.step {svc : UInt32} {before after : Answering} {op : ServiceOp}
    (good : before.Good svc) (step : op.Step svc before after) : after.Good svc := by
  cases op with
  | guest op =>
    obtain ⟨lives, rfl⟩ := step
    exact good.guest lives
  | reply env name rep =>
    obtain ⟨serves, lives, rfl⟩ := step
    have bound := good.bound serves name
    unfold Answering.reply
    dsimp only
    split
    · exact bound
    · exact bound.guest lives

theorem good_start {ops : List GuestOp}
    (booted : Run GuestOp.Step .boot ops machine) (svc : UInt32) :
    (⟨machine, fun _ => none⟩ : Answering).Good svc := by
  have sound : machine.ports.HandlesValid ∧ machine.ports.Dense := by
    refine @Run.invariant _ _ _ _ _ (fun reached : Machine =>
        reached.ports.HandlesValid ∧ reached.ports.Dense)
      _ booted ?_ ⟨portsInit_handlesValid, portsInit_dense⟩
    intro before op after sound step
    obtain ⟨valid, dense⟩ := sound
    obtain rfl : op.run before = after := step
    refine ⟨op.run_handlesValid valid, ?_⟩
    by_cases runs : op.Runs before
    · rw [run_ports runs]
      exact stateAfter_invariant Dense (fun _ port _ isDense => isDense.run port) dense
    unfold run
    rw [if_neg runs]
    exact dense
  exact ⟨sound.1, sound.2, nofun⟩

/-- The reply is queued on this port, with the owner of the service. -/
def Delivers (svc : UInt32) (env : SvcEnv) (name rep : Bytes) (index : Nat)
    (answering : Answering) : Prop :=
  (answering.reply svc env name rep).1 =
    .queued index ⟨svc, stampUid (answering.machine.sched.uidOf svc) rep⟩

end Answering

/--
A service delivers its reply to an inbox with room exactly if the inbox is in
its book or it has a free handle to bind it, and no routed file call waits
under the name of the inbox for a reply with this number.
-/
theorem replies_keep_flowing_iff {svc : UInt32} {ops : List GuestOp} {machine : Machine}
    {history : List ServiceOp} {answering : Answering} (booted : Run GuestOp.Step .boot ops machine)
    (served : Run (ServiceOp.Step svc) ⟨machine, fun _ => none⟩ history answering)
    (serves : answering.machine.serves svc) {env : SvcEnv} (memory : env.allocOk = true)
    {name rep : Bytes} (sendable : 0 < rep.length ∧ rep.length ≤ msgMax) {index : Nat}
    (inbox : answering.machine.ports.portByName name = some index)
    (client : (answering.machine.ports.ports index).kernelEndpoint = false)
    (room : (answering.machine.ports.ports index).qn < UInt32.ofNat maxQ) :
    answering.Delivers svc env name rep index ↔ answering.CanBind svc name ∧
      (answering.machine.ports.fsrouteIntercept name rep).1 = false := by
  have good : answering.Good svc :=
    served.invariant (fun good step => good.step step) (Answering.good_start booted svc)
  have positive := (Sched.alive_iff _ _).mp serves.2.1
  have notKernel : svc ≠ 0 := by
    rintro rfl
    exact absurd positive.1 (by decide)
  unfold Answering.Delivers Answering.reply
  by_cases can : answering.CanBind svc name
  swap
  · have failed := Answering.bind_of_not_canBind can
    refine ⟨fun delivered => ?_, fun both => absurd both.1 can⟩
    dsimp only at delivered
    rw [if_pos failed] at delivered
    cases delivered
  obtain ⟨g, handle, sched, ports, tab, leads⟩ := good.bind serves inbox can
  have named : (answering.machine.ports.ports index).name = name :=
    (portByName_eq_some_iff.mp inbox).1.2.2
  have valid : (answering.bind svc name).1 ≠ invalidHandle := by
    unfold invalidHandle
    omega
  have intercepts := fsrouteIntercept_fst_congr name rep tab
  dsimp only
  rw [if_neg valid, handle, sched]
  unfold Ports.portSend
  rw [leads]
  dsimp only
  rw [if_neg (by omega), ports, client, if_neg (by simp), named]
  rcases intercept : (answering.bind svc name).2.machine.ports.fsrouteIntercept name rep
    with ⟨taken, routed⟩
  rw [intercept] at intercepts
  rw [← intercepts]
  cases taken with
  | true => exact ⟨nofun, nofun⟩
  | false =>
    refine ⟨fun _ => ⟨can, rfl⟩, fun _ => ?_⟩
    unfold enqueueAt
    rw [ports, if_neg (UInt32.not_le.mpr room), if_neg (by rw [memory]; decide), if_pos notKernel]

/-! ## More clients than handles -/

instance (machine : Machine) (svc : UInt32) : Decidable (machine.serves svc) :=
  inferInstanceAs (Decidable (_ ∧ _))

def ServiceOp.next (svc : UInt32) (before : Answering) : ServiceOp → Answering
  | .guest op => { before with machine := op.run before.machine }
  | .reply env name rep => (before.reply svc env name rep).2

def ServiceOp.survived (svc : UInt32) (before : Answering) : ServiceOp → Bool
  | .guest op => !op.ends before.machine svc
  | .reply env name rep =>
    before.machine.serves svc && !(send env svc (before.bind svc name).1 rep).ends
      (before.bind svc name).2.machine svc

theorem run_of_survived {svc : UInt32} {before : Answering} {ops : List ServiceOp}
    (survived : admits (survived svc) (next svc) before ops = true) :
    Run (ServiceOp.Step svc) before ops (ops.foldl (next svc) before) := by
  refine (Run.of_admits survived).weaken ?_
  rintro before op _ ⟨first, rfl⟩
  cases op with
  | guest op => exact ⟨by simpa [ServiceOp.survived] using first, rfl⟩
  | reply env name rep =>
    rw [ServiceOp.survived, Bool.and_eq_true, decide_eq_true_eq] at first
    exact ⟨first.1, by simpa using first.2, rfl⟩

def fsServiceOps : List GuestOp :=
  [startOp (ascii "fs") capPortbind, .create 1 (ascii "fs"), startOp (ascii "app") 0]

def serviceStart : Answering := ⟨machineAfter fsServiceOps, fun _ => none⟩

theorem run_fsServiceOps : Run GuestOp.Step .boot fsServiceOps (machineAfter fsServiceOps) :=
  .cons rfl (.cons rfl (.cons rfl (.nil _)))

def plainReply : Bytes := replicate 28 0

def inboxOps (name : UInt8) : List ServiceOp :=
  [.guest (.create 2 [name]), .reply plainEnv [name] plainReply]

/-- The first inbox is answered. -/
theorem replies_keep_flowing_of_first : serviceStart.machine.serves 1 ∧
    ((guest (.create 2 [97])).next 1 serviceStart).Delivers 1 plainEnv [97] plainReply 4 := by
  refine ⟨by decide +kernel, ?_⟩
  have history : Run (ServiceOp.Step 1) serviceStart [.guest (.create 2 [97])]
      ((guest (.create 2 [97])).next 1 serviceStart) :=
    run_of_survived (by decide +kernel)
  have exactly :=
    @replies_keep_flowing_iff _ _ _ _ _ run_fsServiceOps history
      (by decide +kernel) plainEnv rfl [97] plainReply (by decide) 4
      (by decide +kernel) (by decide +kernel) (by decide +kernel)
  exact exactly.mpr ⟨.inr (by decide +kernel), by decide +kernel⟩

def busyOps : List ServiceOp :=
  (range 15).flatMap (fun number => inboxOps (UInt8.ofNat (97 + number))) ++
    [.guest (startOp (ascii "late") 0), .guest (.create 3 (ascii "late"))]

def busyService : Answering := busyOps.foldl (next 1) serviceStart

/--
The service has used up its handles.  The session of the new inbox lives, and
its inbox is empty, but the reply is dropped.
-/
theorem late_client_not_answered : Run (ServiceOp.Step 1) serviceStart busyOps busyService ∧
    busyService.machine.serves 1 ∧ busyService.machine.sched.alive 3 = true ∧
    busyService.machine.ports.portByName (ascii "late") = some 19 ∧
    (busyService.machine.ports.ports 19).creator = 3 ∧ (busyService.machine.ports.ports 19).qn = 0 ∧
    (busyService.reply 1 plainEnv (ascii "late") plainReply).1 = .refused :=
  ⟨run_of_survived (by decide +kernel), by decide +kernel,
    by decide +kernel, by decide +kernel, by decide +kernel,
    by decide +kernel, by decide +kernel⟩

end KernelLane.Kern
