import KernelLane.KernSlots

namespace KernelLane.Kern

open GuestFrame List

/-!
# Handles, names and creators along port operations

Only three operations change which ports a session can reach: creating a port
and binding one fill a handle of the caller, and the death of a session empties
its handles.  Everything else leaves the handles alone, and with them the names
and the creators of the ports in use.
-/

namespace Ports

variable {state after : Ports} {sid : UInt32} {index : Nat}

/-- The handles, and the names and creators of the ports in use, stay. -/
structure SameDoors (state after : Ports) : Prop where
  htab : after.htab = state.htab
  used : ∀ index, (after.ports index).used = (state.ports index).used
  header : ∀ index, (state.ports index).used = true →
    (after.ports index).name = (state.ports index).name ∧
      (after.ports index).creator = (state.ports index).creator

namespace SameDoors

theorem refl (state : Ports) : SameDoors state state := ⟨rfl, fun _ => rfl, fun _ _ => ⟨rfl, rfl⟩⟩

theorem of_ports (handles : after.htab = state.htab) (ports : after.ports = state.ports) :
    SameDoors state after :=
  ⟨handles, fun _ => by rw [ports], fun _ _ => by rw [ports]; exact ⟨rfl, rfl⟩⟩

theorem setPort {port : Port} (used : port.used = (state.ports index).used) (header :
      (state.ports index).used = true →
      port.name = (state.ports index).name ∧ port.creator = (state.ports index).creator) :
    SameDoors state (state.setPort index port) where
  htab := rfl
  used := fun other => by
    by_cases same : other = index
    · subst same
      simp [Ports.setPort, used]
    · simp [Ports.setPort, same]
  header := fun other isUsed => by
    by_cases same : other = index
    · subst same
      simpa [Ports.setPort] using header isUsed
    · simp [Ports.setPort, same]

end SameDoors

/-- What an operation did to the handles and the ports behind them. -/
inductive DoorStep (state after : Ports) : PortOp → Prop where
  | same {op : PortOp} (spares : ∀ victim, op = .kill victim → maxSessions ≤ victim.toNat)
    (doors : SameDoors state after) :
    DoorStep state after op
  | opened {sid : UInt32} {name : Bytes} (h index : Nat) (notKernel : sid ≠ 0)
    (handle : state.freeHandle sid = some h) (inTable : index < maxPorts)
    (unused : (state.ports index).used = false)
    (handles : after.htab = (state.setHandle sid h index).htab)
    (used : (after.ports index).used = true) (named : (after.ports index).name = cstr name)
    (created : (after.ports index).creator = sid)
    (others : ∀ other, other ≠ index → after.ports other = state.ports other) :
    DoorStep state after (.create true sid name)
  | bound {sid : UInt32} {name : Bytes} (h index : Nat) (notKernel : sid ≠ 0)
    (handle : state.freeHandle sid = some h) (found : state.portByName name = some index)
    (bind : after = state.setHandle sid h index) :
    DoorStep state after (.bind true sid name)
  | cleared {sid : UInt32} (inTable : sid.toNat < maxSessions) (handles :
      after.htab = Function.update state.htab sid.toNat fun _ => none)
    (used : ∀ index, (after.ports index).used = (state.ports index).used)
    (name : ∀ index, (after.ports index).name = (state.ports index).name)
    (creator : ∀ index, (after.ports index).creator = (state.ports index).creator) :
    DoorStep state after (.kill sid)

theorem drainSession_header (sid : UInt32) (index : Nat) :
    ((state.drainSession sid).ports index).used = (state.ports index).used ∧
      ((state.drainSession sid).ports index).name = (state.ports index).name ∧
      ((state.drainSession sid).ports index).creator = (state.ports index).creator := by
  simp only [drainSession]
  split <;> exact ⟨rfl, rfl, rfl⟩

theorem kill_doorStep (sid : UInt32) :
    DoorStep state ((state.drainSession sid).clearSessionHandles sid) (.kill sid) := by
  have header := state.drainSession_header sid
  unfold clearSessionHandles
  split
  next outside =>
    refine .same ?_ ⟨rfl, fun index => (header index).1, fun index _ => (header index).2⟩
    rintro victim ⟨⟩
    exact outside
  next inTable =>
    exact .cleared (Nat.lt_of_not_le inTable) rfl (fun index => (header index).1)
      (fun index => (header index).2.1)
      (fun index => (header index).2.2)

end Ports

open Ports

theorem PortOp.doorStep (state : Ports) (op : PortOp) : DoorStep state (op.run state).2 op := by
  have change := op.change state
  generalize op.run state = result at change ⊢
  obtain ⟨event, after⟩ := result
  cases change with
  | kept spares => exact .same (fun victim kills => absurd kills (spares victim)) (.refl _)
  | @queued op index msg placed addressed =>
    refine .same ?_ (.setPort rfl fun _ => ⟨rfl, rfl⟩)
    rintro victim rfl
    cases addressed
  | @answered op entry name data placed answers =>
    refine .same ?_ (.of_ports rfl rfl)
    rintro victim rfl
    cases answers
  | @turned op entry pending turns =>
    refine .same ?_ (.of_ports rfl rfl)
    rintro victim rfl
    cases turns
  | taken =>
    refine .same ?_ (.setPort rfl fun _ => ⟨rfl, rfl⟩)
    rintro victim ⟨⟩
  | bound notKernel handle found => exact .bound _ _ notKernel handle found rfl
  | killed sid => exact kill_doorStep sid
  | @opened sid name h index notKernel handle free =>
    obtain ⟨inTable, unused⟩ := freePort_spec free
    refine .opened h index notKernel handle inTable unused rfl ?_ ?_ ?_ ?_
    · simp [Ports.setPort, Port.renamed]
    · simp [Ports.setPort, Port.renamed]
    · simp [Ports.setPort, Port.renamed]
    · intro other different
      simp [Ports.setPort, different]
  | @reset alive sid name index free =>
    have unused := (freePort_spec free).2
    refine .same ?_ (.setPort unused.symm fun used => ?_)
    · rintro victim ⟨⟩
    · exact absurd (used.symm.trans unused) (by decide)

theorem stateAfter_invariant (Good : Ports → Prop) {ops : List PortOp}
    (step : ∀ state, ∀ op ∈ ops, Good state → Good (op.run state).2) {state : Ports}
    (good : Good state) : Good (stateAfter state ops) := by
  induction ops generalizing state with
  | nil => exact good
  | cons op rest hypothesis =>
    refine hypothesis ?_ (step state op mem_cons_self good)
    intro middle other member
    exact step middle other (mem_cons_of_mem op member)

/-! ## Handles point at ports in use -/

namespace Ports

variable {state after : Ports} {sid : UInt32} {op : PortOp}

/-- Every handle lies in its table and points at a port in use. -/
def HandlesValid (state : Ports) : Prop :=
  ∀ slot h index, state.htab slot h = some index →
    h < hPerSess ∧ index < maxPorts ∧ (state.ports index).used = true

theorem portsInit_handlesValid : portsInit.HandlesValid := by rintro slot h index ⟨⟩

theorem DoorStep.handlesValid (step : DoorStep state after op) (valid : state.HandlesValid) :
    after.HandlesValid := by
  intro slot g stored pointed
  cases step with
  | same _ doors =>
    rw [doors.htab] at pointed
    rw [doors.used]
    exact valid _ _ _ pointed
  | opened h index notKernel handle inTable unused handles used named created others =>
    obtain ⟨free, inRange⟩ := freeHandle_spec handle
    rw [handles, htab_setHandle free] at pointed
    rcases pointed with old | ⟨_, rfl, rfl⟩
    · obtain ⟨range, inPorts, isUsed⟩ := valid _ _ _ old
      refine ⟨range, inPorts, ?_⟩
      rw [others stored]
      · exact isUsed
      · rintro rfl
        exact absurd (isUsed.symm.trans unused) (by decide)
    · exact ⟨inRange, inTable, used⟩
  | bound h index notKernel handle found bind =>
    subst bind
    obtain ⟨free, inRange⟩ := freeHandle_spec handle
    rw [htab_setHandle free] at pointed
    rcases pointed with old | ⟨_, rfl, rfl⟩
    · exact valid _ _ _ old
    · have isUsed := List.find?_some found
      have member := mem_of_find?_eq_some found
      rw [Bool.and_eq_true] at isUsed
      exact ⟨inRange, mem_range.mp member, isUsed.1⟩
  | @cleared victim inTable handles used name creator =>
    rw [handles] at pointed
    rw [used]
    by_cases same : slot = victim.toNat
    · subst same
      simp at pointed
    · rw [Function.update_of_ne same] at pointed
      exact valid _ _ _ pointed

theorem HandlesValid.portOf (valid : state.HandlesValid) (inTable : sid.toNat < maxSessions)
    {h index : Nat} (pointed : state.htab sid.toNat h = some index) :
    state.portOf sid h = some index := by
  obtain ⟨inRange, inPorts, used⟩ := valid _ _ _ pointed
  rw [portOf_eq_some_iff]
  refine ⟨⟨inTable, ?_, ?_⟩, ?_, inPorts, used⟩
  · exact Int.natCast_nonneg h
  · exact Int.ofNat_lt.mpr inRange
  · simpa using pointed

end Ports

/-! ## Who opens doors -/

def PortOp.opensDoor : PortOp → Bool
  | .create _ _ _ => true
  | .bind _ _ _ => true
  | _ => false

def PortOp.movesDatagrams : PortOp → Bool
  | .send _ _ _ _ _ => true
  | .enqueueByName _ _ _ => true
  | .kernelEnqueue _ _ _ _ => true
  | .kill _ => true
  | _ => false

variable {port : PortOp}

variable {kernel : Kernel} {env : SvcEnv}

theorem Kernel.movesDatagrams_of_mem_dispatchOps {endpoint frame : Bytes} {sid : UInt32} {h : Int}
    (member : port ∈ kernel.dispatchOps env endpoint sid h frame) : port.movesDatagrams = true := by
  unfold dispatchOps at member
  split at member
  · cases member
  rw [mem_append] at member
  rcases member with serving | replying
  · unfold serveOps at serving
    split at serving
    · rw [mem_singleton] at serving
      rw [serving]
      rfl
    · cases serving
  · unfold replyOps at replying
    split at replying
    · cases replying
    split at replying
    · rw [mem_singleton] at replying
      rw [replying]
      rfl
    split at replying
    · rw [mem_singleton] at replying
      rw [replying]
      rfl
    · cases replying

theorem KernOp.movesDatagrams_of_mem_send {sid : UInt32}
    {h : Int} {data : Bytes} (member : port ∈ (KernOp.send env sid h data).portOps kernel) :
    port.movesDatagrams = true := by
  unfold portOps at member
  split at member
  · cases member
  dsimp only at member
  split at member
  · exact Kernel.movesDatagrams_of_mem_dispatchOps member
  rw [mem_singleton] at member
  rw [member]
  rfl

/-- The port operations that a guest operation issues. -/
inductive GuestOp.Issues (machine : Machine) : GuestOp → PortOp → Prop where
  | create {sid : UInt32} {name : Bytes} :
    Issues machine (.create sid name) (.create (machine.sched.alive sid) sid name)
  | bind {sid : UInt32} {name : Bytes} (may : machine.mayBind sid name = true) :
    Issues machine (.bind sid name) (.bind (machine.sched.alive sid) sid name)
  | send {env : SvcEnv} {sid : UInt32} {h : Int} {data : Bytes} {port : PortOp}
    (sent : port ∈ (KernOp.send env sid h data).portOps machine.toKernel) :
    Issues machine (.send env sid h data) port
  | recv {sid : UInt32} {h : Int} : Issues machine (.recv sid h) (.recv sid h)
  | log {allocOk : Bool} {sid : UInt32} {h : Int} {text : Bytes} :
    Issues machine (.focusSet allocOk sid h) (.enqueueByName allocOk (ascii "console") text)
  | expect {allocOk : Bool} {sid : UInt32} {op seq : UInt16} {path payload name : Bytes} :
    Issues machine (.request allocOk sid op path payload) (.expect seq name)
  | request {allocOk : Bool} {sid : UInt32} {op : UInt16} {path payload text : Bytes} :
    Issues machine (.request allocOk sid op path payload)
      (.enqueueByName allocOk (ascii "fs") text)
  | poll {sid : UInt32} {seq : UInt16} : Issues machine (.collect sid) (.poll seq)
  | reclaim {sid : UInt32} {seq : UInt16} : Issues machine (.giveUp sid) (.reclaim seq)

variable {machine : Machine}

theorem GuestOp.issues {op : GuestOp} (member : port ∈ op.portOps machine) :
    op.Issues machine port := by
  cases op with
  | create sid name =>
    obtain ⟨-, rfl⟩ : _ ∧ port = _ := by simpa [portOps, KernOp.portOps] using member
    exact .create
  | bind sid name =>
    obtain ⟨may, -, rfl⟩ : _ ∧ _ ∧ port = _ := by simpa [portOps, KernOp.portOps] using member
    exact .bind may
  | send env sid h data => exact .send member
  | recv sid h =>
    obtain ⟨-, rfl⟩ : _ ∧ port = _ := by simpa [portOps, KernOp.portOps] using member
    exact .recv
  | focusSet allocOk sid h =>
    dsimp only [portOps] at member
    split at member
    · split at member
      · cases member
      · rw [mem_singleton.mp member]
        exact .log
    · cases member
  | request allocOk sid op path payload =>
    dsimp only [portOps] at member
    split at member
    · cases member
    · rw [mem_cons, mem_singleton] at member
      rcases member with rfl | rfl
      · exact .expect
      · exact .request
  | collect sid =>
    dsimp only [portOps] at member
    split at member
    · rw [mem_singleton.mp member]
      exact .poll
    · cases member
  | giveUp sid =>
    dsimp only [portOps] at member
    split at member
    · rw [mem_singleton.mp member]
      exact .reclaim
    · cases member
  | _ => cases member

/-- Handles are filled by the two imports that do so, for their caller. -/
theorem GuestOp.of_opensDoor {op : GuestOp}
    (member : port ∈ op.portOps machine) (opens : port.opensDoor = true) :
    (∃ sid name, op = .create sid name ∧ port = .create (machine.sched.alive sid) sid name) ∨
      ∃ sid name, op = .bind sid name ∧ machine.mayBind sid name = true ∧
        port = .bind (machine.sched.alive sid) sid name := by
  cases GuestOp.issues member with
  | create => exact .inl ⟨_, _, rfl, rfl⟩
  | bind may => exact .inr ⟨_, _, rfl, may, rfl⟩
  | send sent =>
    have moves := KernOp.movesDatagrams_of_mem_send sent
    cases port with
    | create | bind => cases moves
    | _ => cases opens
  | _ => cases opens

theorem GuestOp.run_handlesValid (op : GuestOp) (valid : machine.ports.HandlesValid) :
    (op.run machine).ports.HandlesValid := by
  by_cases runs : op.Runs machine
  · rw [GuestOp.run_ports runs]
    exact stateAfter_invariant HandlesValid
      (fun middle op _ isValid => (op.doorStep middle).handlesValid isValid) valid
  unfold GuestOp.run
  rw [if_neg runs]
  exact valid

end KernelLane.Kern
