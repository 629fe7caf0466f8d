import KernelLane.KernQueues
import KernelLane.KernServices

namespace KernelLane.Kern

open GuestFrame Ports PortOp

/-!
# Kernel operations on the ports

Every operation of the kernel changes the ports by a short list of port
operations: a request to an endpoint may kill a session and is then answered.
None of them hands a session a handle to an endpoint except a bind, and none
takes one away except the death of its session.
-/

/-! ## The port operations of a kernel operation -/

def Kernel.serveOps (kernel : Kernel) (endpoint : Bytes) (sid : UInt32) (op : UInt16)
    (payload : Bytes) : List PortOp :=
  if endpoint = ascii "registry" ∧ op = 3 ∧ 4 ≤ payload.length ∧
      (kernel.schedKill (get32 payload 0) sid).1 = 0 then
    [.kill (get32 payload 0)]
  else []

def replyOps (env : SvcEnv) (route : ReplyRoute) : Option Bytes → List PortOp
  | none => []
  | some answer =>
    if route.rname ≠ [] then [.enqueueByName env.allocOk route.rname answer]
    else if 0 ≤ route.replyH then [.kernelEnqueue env.allocOk route.fromSid route.replyH answer]
    else []

def Kernel.answerTo (kernel : Kernel) (env : SvcEnv) (endpoint : Bytes) (sid : UInt32)
    (frame : Bytes) : Option Bytes :=
  (kernel.serve env endpoint sid (get16 frame 0) (frame.drop 24)).1.frame env
    (get16 frame 0) (get16 frame 2)

def routeOf (sid : UInt32) (h : Int) (frame : Bytes) : ReplyRoute :=
  ⟨cstr ((frame.drop 8).take 16), sid, h⟩

def Kernel.dispatchOps (kernel : Kernel) (env : SvcEnv) (endpoint : Bytes) (sid : UInt32) (h : Int)
    (frame : Bytes) : List PortOp :=
  if frame.length < 24 then []
  else
    kernel.serveOps endpoint sid (get16 frame 0) (frame.drop 24) ++
      replyOps env (routeOf sid h frame) (kernel.answerTo env endpoint sid frame)

/-- What an operation does to the ports. -/
def KernOp.portOps (kernel : Kernel) (op : KernOp) : List PortOp :=
  if kernel.halted then []
  else
    match op with
    | .create sid name => [.create (kernel.sched.alive sid) sid name]
    | .bind sid name => [.bind (kernel.sched.alive sid) sid name]
    | .send env sid h data =>
      match (kernel.ports.portSend (kernel.sched.uidOf sid) env.allocOk sid h data).1 with
      | .dispatched endpoint frame => kernel.dispatchOps env endpoint sid h frame
      | _ => [.send (kernel.sched.uidOf sid) env.allocOk sid h data]
    | .recv sid h => [.recv sid h]
    | .expect seq name => [.expect seq name]
    | .poll seq => [.poll seq]
    | .reclaim seq => [.reclaim seq]
    | .exit _ => []
    | .reap => []
    | .preload _ => []

theorem stateAfter_append (state : Ports) (first second : List PortOp) :
    stateAfter state (first ++ second) = stateAfter (stateAfter state first) second := by
  induction first generalizing state with
  | nil => rfl
  | cons op rest hypothesis => exact hypothesis (op.run state).2

namespace Kernel

variable {kernel : Kernel}

theorem schedKill_ports (sid fromSid : UInt32) : (kernel.schedKill sid fromSid).2.ports =
    if (kernel.schedKill sid fromSid).1 = 0 then
      (kernel.ports.drainSession sid).clearSessionHandles sid
    else kernel.ports := by
  unfold schedKill
  split
  · rfl
  · split <;> rfl

theorem registry_ports (env : SvcEnv) (sid : UInt32) (op : UInt16) (payload : Bytes) :
    (kernel.registry env sid op payload).2.ports = stateAfter kernel.ports
      (kernel.serveOps (ascii "registry") sid op payload) := by
  have quiet (other : op ≠ 3) : stateAfter kernel.ports
      (kernel.serveOps (ascii "registry") sid op payload) =
      kernel.ports := by
    simp [serveOps, other, stateAfter]
  have registered := kernel.registry_registered env sid op payload
  generalize (kernel.registry env sid op payload).2 = after at registered ⊢
  cases registered with
  | kept calm => rw [serveOps, if_neg fun all => calm ⟨all.2.1, all.2.2.1⟩, stateAfter]
  | killed kills long =>
    rw [schedKill_ports]
    by_cases killed : (kernel.schedKill (get32 payload 0) sid).1 = 0
    · simp [serveOps, killed, stateAfter, run, kills, long]
    · simp [serveOps, killed, stateAfter]
  | spawned spawns => exact (quiet (by simp [spawns])).symm
  | labelled logs | minted logs => exact (quiet (by simp [logs])).symm
  | tuned tunes => exact (quiet (by rcases tunes with rfl | rfl <;> decide)).symm
  | recapped changes => exact (quiet (by simp [changes])).symm

theorem serve_ports (env : SvcEnv) (endpoint : Bytes) (sid : UInt32) (op : UInt16)
    (payload : Bytes) : (kernel.serve env endpoint sid op payload).2.ports = stateAfter kernel.ports
      (kernel.serveOps endpoint sid op payload) := by
  unfold serve
  by_cases registered : endpoint = ascii "registry"
  · subst registered
    rw [if_pos rfl]
    exact registry_ports env sid op payload
  rw [if_neg registered]
  have quiet : kernel.serveOps endpoint sid op payload = [] := if_neg fun all => registered all.1
  rw [quiet, stateAfter]
  split
  · rfl
  split
  · unfold power
    split
    · rfl
    · split <;> rfl
  · rfl

/-- A dispatched request touches the ports as it is served and answered. -/
theorem kernsvcDispatch_ports (env : SvcEnv) (endpoint : Bytes) (sid : UInt32) (h : Int)
    (frame : Bytes) :
    (kernel.kernsvcDispatch env endpoint sid h frame).ports = stateAfter kernel.ports
      (kernel.dispatchOps env endpoint sid h frame) := by
  unfold kernsvcDispatch dispatchOps
  by_cases short : frame.length < 24
  · rw [if_pos short, if_pos short, stateAfter]
  rw [if_neg short, if_neg short, stateAfter_append, ← serve_ports env]
  dsimp only [answerTo, routeOf]
  cases Reply.frame env (get16 frame 0) (get16 frame 2)
    (kernel.serve env endpoint sid (get16 frame 0) (frame.drop 24)).1 with
  | none => rfl
  | some answer =>
    dsimp only [replyOps, kernsvcReply]
    split
    · rfl
    · split <;> rfl

end Kernel

theorem KernOp.run_ports (kernel : Kernel) (op : KernOp) :
    (op.run kernel).ports = stateAfter kernel.ports (op.portOps kernel) := by
  unfold KernOp.run KernOp.portOps
  by_cases halted : kernel.halted
  · rw [if_pos halted, if_pos halted, stateAfter]
  rw [if_neg halted, if_neg halted]
  cases op with
  | send env sid h data =>
    dsimp only [Kernel.send]
    cases sent : kernel.ports.portSend (kernel.sched.uidOf sid) env.allocOk sid h data with
    | mk outcome ports =>
      cases outcome with
      | dispatched endpoint frame => exact Kernel.kernsvcDispatch_ports env endpoint sid h frame
      | refused | wouldBlock | intercepted | queued => simp [stateAfter, PortOp.run, sent]
  | exit sid =>
    dsimp only
    split <;> rfl
  | create | bind | recv | expect | poll | reclaim | reap | preload => rfl

/-! ## Who holds an endpoint -/

namespace Ports

/-- A used port of the table that belongs to the kernel. -/
def IsEndpoint (state : Ports) (index : Nat) : Prop :=
  (state.ports index).used = true ∧ (state.ports index).kernelEndpoint = true

/-- A session has a working handle to a port. -/
def Holder (state : Ports) (index : Nat) (sid : UInt32) : Prop :=
  ∃ h, state.portOf sid h = some index

variable {state after : Ports} {index : Nat} {sid : UInt32}

/-- The endpoints and their holders are the same. -/
structure SameHolders (state after : Ports) : Prop where
  endpoint : ∀ index, after.IsEndpoint index ↔ state.IsEndpoint index
  handle : ∀ index sid h, state.IsEndpoint index →
    (after.portOf sid h = some index ↔ state.portOf sid h = some index)
  kernel : after.htab 0 = state.htab 0

theorem SameHolders.refl (state : Ports) : SameHolders state state :=
  ⟨fun _ => Iff.rfl, fun _ _ _ _ => Iff.rfl, rfl⟩

theorem SameHolders.holder (same : SameHolders state after) (endpoint : state.IsEndpoint index)
    (sid : UInt32) : after.Holder index sid ↔ state.Holder index sid :=
  exists_congr fun h => same.handle index sid h endpoint

theorem SameHolders.of_headers (used : ∀ index, (after.ports index).used = (state.ports index).used)
    (owned : ∀ index, (after.ports index).kernelEndpoint = (state.ports index).kernelEndpoint)
    (handles : after.htab = state.htab) : SameHolders state after where
  endpoint := fun index => by rw [IsEndpoint, IsEndpoint, used, owned]
  handle := fun index sid h _ => by simp only [portOf_eq_some_iff, handles, used]
  kernel := by rw [handles]

theorem SameHolders.setPort {port : Port} (used : port.used = (state.ports index).used)
    (owned : port.kernelEndpoint = (state.ports index).kernelEndpoint) :
    SameHolders state (state.setPort index port) := by
  refine .of_headers ?_ ?_ rfl
  · intro other
    by_cases same : other = index
    · subst same
      simpa [setPort] using used
    · simp [Ports.setPort, same]
  · intro other
    by_cases same : other = index
    · subst same
      simpa [setPort] using owned
    · simp [Ports.setPort, same]

theorem htab_setHandle {h : Nat} (free : state.htab sid.toNat h = none)
    (target slot g stored : Nat) :
    (state.setHandle sid h target).htab slot g = some stored ↔ state.htab slot g = some stored ∨
      slot = sid.toNat ∧ g = h ∧ stored = target := by
  by_cases sameSlot : slot = sid.toNat
  · subst sameSlot
    by_cases sameHandle : g = h
    · subst sameHandle
      simp [setHandle, free, eq_comm]
    · simp [setHandle, sameHandle]
  · simp [setHandle, sameSlot]

theorem SameHolders.trans {last : Ports} (first : SameHolders state after)
    (second : SameHolders after last) : SameHolders state last where
  endpoint := fun index => (second.endpoint index).trans (first.endpoint index)
  handle := fun index sid h endpoint =>
    (second.handle index sid h ((first.endpoint index).mpr endpoint)).trans
      (first.handle index sid h endpoint)
  kernel := second.kernel.trans first.kernel

/-- Reusing a free port for a guest keeps the endpoints and their holders. -/
theorem SameHolders.reuse (unused : (state.ports index).used = false) {port : Port}
    (guest : port.kernelEndpoint = false) : SameHolders state (state.setPort index port) where
  endpoint := fun other => by
    by_cases same : other = index
    · subst same
      simp [IsEndpoint, Ports.setPort, guest, unused]
    · simp [IsEndpoint, Ports.setPort, same]
  handle := fun other sid h endpoint => by
    have different : other ≠ index := by
      rintro rfl
      exact absurd (endpoint.1.symm.trans unused) (by decide)
    simp [portOf_eq_some_iff, Ports.setPort, different]
  kernel := rfl

theorem SameHolders.setHandle {h target : Nat} (guest : ¬ state.IsEndpoint target)
    (free : state.htab sid.toNat h = none) (notKernel : sid.toNat ≠ 0) :
    SameHolders state (state.setHandle sid h target) where
  endpoint := fun _ => Iff.rfl
  handle := fun index other g endpoint => by
    simp only [portOf_eq_some_iff, htab_setHandle free]
    have different : index ≠ target := by
      rintro rfl
      exact guest endpoint
    simp [different, Ports.setHandle]
  kernel := by
    funext g
    simp [Ports.setHandle, Function.update_of_ne notKernel.symm]

theorem holder_setHandle {h target : Nat} {other : UInt32} (free : state.htab sid.toNat h = none)
    (holds : (state.setHandle sid h target).Holder index other) :
    state.Holder index other ∨ other = sid ∧ index = target := by
  simp only [Holder, portOf_eq_some_iff] at holds ⊢
  obtain ⟨g, range, stored, used⟩ := holds
  rw [htab_setHandle free] at stored
  rcases stored with old | ⟨sameSlot, _, sameTarget⟩
  · exact .inl ⟨g, range, old, used⟩
  · exact .inr ⟨UInt32.toNat_inj.mp sameSlot, sameTarget⟩

theorem portOf_setHandle {h target : Nat} {other : UInt32} {g : Int}
    (free : state.htab sid.toNat h = none) (found : state.portOf other g = some index) :
    (state.setHandle sid h target).portOf other g = some index := by
  rw [portOf_eq_some_iff] at found ⊢
  exact ⟨found.1, (htab_setHandle free _ _ _ _).mpr (.inl found.2.1), found.2.2⟩

theorem portOf_kill (victim other : UInt32) (h : Int) (index : Nat) :
    ((state.drainSession victim).clearSessionHandles victim).portOf other h = some index ↔
      state.portOf other h = some index ∧ other ≠ victim := by
  have drained : ∀ index, ((state.drainSession victim).ports index).used =
      (state.ports index).used := by
    intro index
    simp only [drainSession]
    split <;> rfl
  unfold clearSessionHandles
  by_cases outside : maxSessions ≤ victim.toNat
  · rw [if_pos outside]
    simp only [portOf_eq_some_iff, drained]
    constructor
    · intro found
      refine ⟨found, ?_⟩
      rintro rfl
      exact absurd found.1.1 (Nat.not_lt.mpr outside)
    · exact And.left
  · rw [if_neg outside]
    simp only [portOf_eq_some_iff, drained]
    by_cases same : other = victim
    · subst same
      simp
    · have slots : other.toNat ≠ victim.toNat := fun equal => same (UInt32.toNat_inj.mp equal)
      simp [same, slots, drainSession]

theorem isEndpoint_kill (victim : UInt32) (index : Nat) :
    ((state.drainSession victim).clearSessionHandles victim).IsEndpoint
      index ↔ state.IsEndpoint index := by
  unfold clearSessionHandles
  split <;>
  · simp only [IsEndpoint, drainSession]
    split <;> rfl

end Ports

/-! ## Handles to the endpoints along operations -/

section Handles

variable {state : Ports}

theorem PortOp.run_sameHolders (op : PortOp) (notBind : ∀ alive sid name, op ≠ .bind alive sid name)
    (notKill : ∀ sid, op ≠ .kill sid) : Ports.SameHolders state (op.run state).2 := by
  have change := op.change state
  generalize op.run state = result at change ⊢
  obtain ⟨event, after⟩ := result
  cases change with
  | kept => exact .refl _
  | queued | taken => exact .setPort rfl rfl
  | answered | turned => exact .of_headers (fun _ => rfl) (fun _ => rfl) rfl
  | reset free => exact .reuse (freePort_spec free).2 rfl
  | bound => exact absurd rfl (notBind _ _ _)
  | killed sid => exact absurd rfl (notKill sid)
  | @opened sid name h index notKernel handle free =>
    have unused := (freePort_spec free).2
    refine (Ports.SameHolders.reuse unused rfl).trans
      (.setHandle ?_ (freeHandle_spec handle).1 ?_)
    · simp [Ports.IsEndpoint, setPort, Port.renamed]
    · exact fun zero => notKernel (UInt32.toNat_inj.mp zero)

/-- The endpoints stay, and so do the handles of the sessions that live. -/
theorem PortOp.run_keeps (op : PortOp) {index : Nat} :
    ((op.run state).2.IsEndpoint index ↔ state.IsEndpoint index) ∧ ∀ {sid h},
      state.IsEndpoint index → state.portOf sid h = some index → op ≠ .kill sid →
      (op.run state).2.portOf sid h = some index := by
  by_cases binds : ∃ alive sid name, op = .bind alive sid name
  · obtain ⟨alive, sid, name, rfl⟩ := binds
    dsimp only [run]
    rcases state.portBind_cases alive sid name with same | ⟨_, _, h, target, handle, _, same⟩
    · rw [same]
      exact ⟨Iff.rfl, fun _ found _ => found⟩
    · rw [same]
      exact ⟨Iff.rfl, fun _ found _ => portOf_setHandle (freeHandle_spec handle).1 found⟩
  by_cases kills : ∃ victim, op = .kill victim
  · obtain ⟨victim, rfl⟩ := kills
    refine ⟨isEndpoint_kill victim index, ?_⟩
    intro sid h _ found other
    refine (portOf_kill victim sid h index).mpr ⟨found, ?_⟩
    rintro rfl
    exact other rfl
  have same : Ports.SameHolders state (op.run state).2 := by
    refine op.run_sameHolders ?_ ?_
    · rintro alive sid name rfl
      exact binds ⟨alive, sid, name, rfl⟩
    · rintro sid rfl
      exact kills ⟨sid, rfl⟩
  refine ⟨same.endpoint index, ?_⟩
  intro sid h endpoint found _
  exact (same.handle index sid h endpoint).mpr found

theorem stateAfter_keeps (state : Ports) (ops : List PortOp) {index : Nat} :
    ((stateAfter state ops).IsEndpoint index ↔ state.IsEndpoint index) ∧ ∀ {sid h},
      state.IsEndpoint index → state.portOf sid h = some index → kill sid ∉ ops →
      (stateAfter state ops).portOf sid h = some index := by
  induction ops generalizing state with
  | nil => exact ⟨Iff.rfl, fun _ found _ => found⟩
  | cons op rest hypothesis =>
    obtain ⟨endpoint, handle⟩ := op.run_keeps
    obtain ⟨restEndpoint, restHandle⟩ := hypothesis (op.run state).2
    refine ⟨restEndpoint.trans endpoint, ?_⟩
    intro sid h isEndpoint found lives
    rw [List.mem_cons, not_or] at lives
    exact restHandle (endpoint.mpr isEndpoint) (handle isEndpoint found (Ne.symm lives.1)) lives.2

end Handles

def KernOp.ends (kernel : Kernel) (op : KernOp) (sid : UInt32) : Bool :=
  match op with
  | .exit gone => !kernel.halted && kernel.sched.occupied gone && gone = sid
  | _ => (op.portOps kernel).contains (.kill sid)

theorem KernOp.not_kill_of_lives {kernel : Kernel} {op : KernOp} {sid : UInt32}
    (lives : op.ends kernel sid = false) : kill sid ∉ op.portOps kernel := by
  cases op with
  | exit gone =>
    unfold portOps
    split <;> simp
  | _ => simpa [ends] using lives

theorem KernOp.isEndpoint_run (kernel : Kernel) (op : KernOp) (index : Nat) :
    (op.run kernel).ports.IsEndpoint index ↔ kernel.ports.IsEndpoint index := by
  rw [op.run_ports]
  exact (stateAfter_keeps _ _).1

theorem KernOp.portOf_run {kernel : Kernel} {op : KernOp} {index : Nat} {sid : UInt32} {h : Int}
    (endpoint : kernel.ports.IsEndpoint index) (found : kernel.ports.portOf sid h = some index)
    (lives : op.ends kernel sid = false) : (op.run kernel).ports.portOf sid h = some index := by
  rw [op.run_ports]
  exact (stateAfter_keeps _ _).2 endpoint found (not_kill_of_lives lives)

end KernelLane.Kern
