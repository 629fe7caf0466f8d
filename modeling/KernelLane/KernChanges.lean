import KernelLane.KernPorts

namespace KernelLane.Kern

open GuestFrame List

/-!
# What one operation does to the ports

Every operation queues a datagram, takes one, answers a waiting routed call,
opens, binds or resets a port, empties a session's handles, changes a waiting
call, or does nothing.  Invariants of the ports are checked against this list
and not against the operations themselves.
-/

/-- One operation on the ports. -/
inductive PortOp where
  | create (alive : Bool) (sid : UInt32) (name : Bytes)
  | bind (alive : Bool) (sid : UInt32) (name : Bytes)
  | send (uid : UInt32) (allocOk : Bool) (sid : UInt32) (h : Int) (data : Bytes)
  | enqueueByName (allocOk : Bool) (name data : Bytes)
  | kernelEnqueue (allocOk : Bool) (sid : UInt32) (h : Int) (data : Bytes)
  | recv (sid : UInt32) (h : Int)
  | kill (sid : UInt32)
  | expect (seq : UInt16) (name : Bytes)
  | poll (seq : UInt16)
  | reclaim (seq : UInt16)
  deriving DecidableEq, Repr

/-- What an operation did to the queue of a port. -/
inductive PortEvent where
  | quiet
  | accepted (index : Nat) (msg : Msg)
  | received (index : Nat) (msg : Msg)
  deriving DecidableEq, Repr

def SendOutcome.event : SendOutcome → PortEvent
  | .queued index msg => .accepted index msg
  | _ => .quiet

def RecvOutcome.event : RecvOutcome → PortEvent
  | .received index msg => .received index msg
  | _ => .quiet

/-- Run one operation. -/
def PortOp.run (state : Ports) : PortOp → PortEvent × Ports
  | .create alive sid name => (.quiet, (state.portCreate alive sid name).2)
  | .bind alive sid name => (.quiet, (state.portBind alive sid name).2)
  | .send uid allocOk sid h data =>
    let (outcome, next) := state.portSend uid allocOk sid h data
    (outcome.event, next)
  | .enqueueByName allocOk name data =>
    let (outcome, next) := state.enqueueByName allocOk name data
    (outcome.event, next)
  | .kernelEnqueue allocOk sid h data =>
    let (outcome, next) := state.kernelEnqueue allocOk sid h data
    (outcome.event, next)
  | .recv sid h =>
    let (outcome, next) := state.portRecv sid h
    (outcome.event, next)
  | .kill sid => (.quiet, (state.drainSession sid).clearSessionHandles sid)
  | .expect seq name => (.quiet, (state.fsrouteExpect seq name).2)
  | .poll seq => (.quiet, (state.fsroutePoll seq).2)
  | .reclaim seq => (.quiet, state.fsrouteReclaim seq)

/-- Where a datagram is kept until it is received. -/
inductive Place where
  | queue (index slot : Nat)
  | reply (entry : Nat)
  deriving DecidableEq, Repr

def Ports.landing (state : Ports) (name data : Bytes) : SendOutcome → Option Place
  | .queued index _ => some (.queue index (state.ports index).qt)
  | .intercepted => (state.awaitedBy name data).map .reply
  | _ => none

/-- Where the datagram of an operation goes. -/
def PortOp.landing (state : Ports) : PortOp → Option Place
  | .send uid allocOk sid h data =>
    match state.portOf sid h with
    | none => none
    | some index =>
      state.landing (state.ports index).name data (state.portSend uid allocOk sid h data).1
  | .enqueueByName allocOk name data =>
    state.landing name data (state.enqueueByName allocOk name data).1
  | .kernelEnqueue allocOk sid h data =>
    state.landing [] data (state.kernelEnqueue allocOk sid h data).1
  | _ => none

namespace PortOp

variable (state : Ports)

/-- The operation has this datagram for the queue of this port. -/
def Addresses (index : Nat) (msg : Msg) : PortOp → Prop
  | .send uid _ sid h data =>
    state.portOf sid h = some index ∧ ((state.ports index).kernelEndpoint = true → sid = 0) ∧
      msg = ⟨sid, if sid ≠ 0 then stampUid uid data else data⟩
  | .enqueueByName _ name data => state.portByName name = some index ∧ msg = ⟨0, data.take msgMax⟩
  | .kernelEnqueue _ sid h data => state.portOf sid h = some index ∧ msg = ⟨sid, data⟩
  | _ => False

/-- The operation has this datagram for a call that waits under this name. -/
def Answers (name data : Bytes) : PortOp → Prop
  | .send _ _ sid h sent =>
    sent = data ∧ ∃ index, state.portOf sid h = some index ∧
      ((state.ports index).kernelEndpoint = true → sid = 0) ∧ (state.ports index).name = name
  | .enqueueByName _ target sent => target = name ∧ sent = data
  | _ => False

def turnsCalls : PortOp → Bool
  | .expect _ _ => true
  | .poll _ => true
  | .reclaim _ => true
  | _ => false

end PortOp

def Port.renamed (port : Port) (used : Bool) (creator : UInt32) (name : Bytes) : Port :=
  { port with
    used := used
    kernelEndpoint := false
    creator := creator
    name := cstr name
    qn := 0
    qh := 0
    qt := 0 }

namespace Ports

variable {state : Ports} {op : PortOp}

def reply (state : Ports) (entry : Nat) (data : Bytes) : Ports :=
  { state with
    tab := Function.update state.tab entry
      { state.tab entry with resp := data.take respMax, done := true } }

def freePort (state : Ports) : Option Nat :=
  (range maxPorts).find? fun index => !(state.ports index).used

/-- What an operation does to the ports, and its event. -/
inductive Change (state : Ports) : PortOp → PortEvent → Ports → Prop
  | kept {op : PortOp} (spares : ∀ sid, op ≠ .kill sid) (unplaced : op.landing state = none) :
    Change state op .quiet state
  | queued {op : PortOp} {index : Nat} {msg : Msg}
    (placed : op.landing state = some (.queue index (state.ports index).qt))
    (addressed : op.Addresses state index msg)
    (room : ¬ UInt32.ofNat maxQ ≤ (state.ports index).qn) :
    Change state op (.accepted index msg) (state.setPort index ((state.ports index).enqueue msg))
  | answered {op : PortOp} {entry : Nat} {name data : Bytes}
    (placed : op.landing state = some (.reply entry)) (answers : op.Answers state name data)
    (long : 4 ≤ data.length) (awaited : state.awaitedBy name data = some entry) :
    Change state op .quiet (state.reply entry data)
  | taken {sid : UInt32} {h : Int} {index : Nat} {msg : Msg}
    (found : state.portOf sid h = some index) (filled : (state.ports index).qn ≠ 0)
    (front : (state.ports index).ring (state.ports index).qh = some msg) :
    Change state (.recv sid h) (.received index msg)
      (state.setPort index (state.ports index).dequeue)
  | opened {sid : UInt32} {name : Bytes} {h index : Nat} (notKernel : sid ≠ 0)
    (handle : state.freeHandle sid = some h) (free : state.freePort = some index) :
    Change state (.create true sid name) .quiet
      ((state.setPort index ((state.ports index).renamed true sid name)).setHandle sid h index)
  | reset {alive : Bool} {sid : UInt32} {name : Bytes} {index : Nat}
    (free : state.freePort = some index) :
    Change state (.create alive sid name) .quiet
      (state.setPort index ((state.ports index).renamed false sid name))
  | bound {sid : UInt32} {name : Bytes} {h index : Nat} (notKernel : sid ≠ 0)
    (handle : state.freeHandle sid = some h) (found : state.portByName name = some index) :
    Change state (.bind true sid name) .quiet (state.setHandle sid h index)
  | killed (sid : UInt32) :
    Change state (.kill sid) .quiet ((state.drainSession sid).clearSessionHandles sid)
  | turned {op : PortOp} (entry : Nat) {pending : Pending} (turns : op.turnsCalls = true)
    (unfinished : ¬ (pending.used = true ∧ pending.done = true)) :
    Change state op .quiet { state with tab := Function.update state.tab entry pending }

variable {sid : UInt32} {index : Nat}

theorem portOf_eq_some_iff {h : Int} :
    state.portOf sid h = some index ↔ (sid.toNat < maxSessions ∧ 0 ≤ h ∧ h < hPerSess) ∧
      state.htab sid.toNat h.toNat = some index ∧ index < maxPorts ∧
      (state.ports index).used = true := by
  unfold portOf
  constructor
  · intro found
    split at found
    next inRange =>
      split at found
      · cases found
      next target stored =>
        split at found
        next used =>
          cases found
          exact ⟨inRange, stored, used⟩
        · cases found
    · cases found
  · rintro ⟨inRange, stored, used⟩
    rw [if_pos inRange, stored]
    exact if_pos used

variable {name : Bytes}

theorem portByName_spec (found : state.portByName name = some index) :
    index < maxPorts ∧ (state.ports index).used = true ∧ (state.ports index).name = name := by
  have matched := find?_some found
  rw [Bool.and_eq_true, decide_eq_true_eq] at matched
  exact ⟨mem_range.mp (mem_of_find?_eq_some found), matched⟩

theorem freePort_spec (free : state.freePort = some index) :
    index < maxPorts ∧ (state.ports index).used = false := by
  have unused := find?_some free
  exact ⟨mem_range.mp (mem_of_find?_eq_some free), by simpa using unused⟩

theorem freeHandle_spec {h : Nat} (found : state.freeHandle sid = some h) :
    state.htab sid.toNat h = none ∧ h < hPerSess := by
  have free := find?_some found
  have member := mem_of_find?_eq_some found
  exact ⟨Option.isNone_iff_eq_none.mp free, mem_range.mp member⟩

theorem portBind_cases (state : Ports) (alive : Bool) (sid : UInt32) (name : Bytes) :
    (state.portBind alive sid name).2 = state ∨ alive = true ∧ sid ≠ 0 ∧ ∃ h index,
      state.freeHandle sid = some h ∧ state.portByName name = some index ∧
        (state.portBind alive sid name).2 = state.setHandle sid h index := by
  unfold portBind
  split
  · exact .inl rfl
  next valid =>
  rw [not_or, Bool.not_eq_false] at valid
  split
  · exact .inl rfl
  next index found =>
  split
  next h handle => exact .inr ⟨valid.2, valid.1, h, index, handle, found, rfl⟩
  · exact .inl rfl

theorem kill_tab (sid : UInt32) :
    ((state.drainSession sid).clearSessionHandles sid).tab = state.tab := by
  unfold clearSessionHandles
  split <;> rfl

theorem used_of_addresses {msg : Msg} (addressed : op.Addresses state index msg) :
    (state.ports index).used = true := by
  cases op with
  | send | kernelEnqueue => exact (portOf_eq_some_iff.mp addressed.1).2.2.2
  | enqueueByName => exact (portByName_spec addressed.1).2.1
  | _ => cases addressed

namespace Change

theorem of_enqueueAt {allocOk : Bool} {msg : Msg} {data : Bytes}
    (spares : ∀ sid, op ≠ .kill sid) (addressed : op.Addresses state index msg) (landing :
      op.landing state = state.landing name data (state.enqueueAt allocOk index msg).1) :
    state.Change op (state.enqueueAt allocOk index msg).1.event
      (state.enqueueAt allocOk index msg).2 := by
  unfold enqueueAt at landing ⊢
  by_cases full : UInt32.ofNat maxQ ≤ (state.ports index).qn
  · rw [if_pos full] at landing ⊢
    exact .kept spares landing
  rw [if_neg full] at landing ⊢
  cases allocOk with
  | false => exact .kept spares landing
  | true => exact .queued landing addressed full

theorem of_intercept {routed : Ports} {data : Bytes}
    (intercepted : state.fsrouteIntercept name data = (true, routed))
    (landing : op.landing state = state.landing name data .intercepted)
    (answers : op.Answers state name data) : state.Change op .quiet routed := by
  unfold fsrouteIntercept at intercepted
  split at intercepted
  · cases intercepted
  next long =>
  split at intercepted
  · cases intercepted
  next entry awaited =>
  cases intercepted
  refine .answered (landing.trans ?_) answers (Nat.le_of_not_lt long) awaited
  exact congrArg (Option.map Place.reply) awaited

end Change

end Ports

namespace PortOp

open Ports

variable (state : Ports)

theorem send_change (uid : UInt32) (allocOk : Bool) (sid : UInt32) (h : Int) (data : Bytes) :
    state.Change (.send uid allocOk sid h data) (state.portSend uid allocOk sid h data).1.event
      (state.portSend uid allocOk sid h data).2 := by
  cases found : state.portOf sid h with
  | none =>
    rw [portSend, found]
    exact .kept nofun (by simp [landing, found])
  | some index =>
    have landing : (PortOp.send uid allocOk sid h data).landing state =
        state.landing (state.ports index).name data (state.portSend uid allocOk sid h data).1 := by
      simp only [PortOp.landing, found]
    generalize result : state.portSend uid allocOk sid h data = after at landing ⊢
    rw [portSend, found] at result
    dsimp only at result
    split at result
    · subst result
      exact .kept nofun landing
    split at result
    · subst result
      exact .kept nofun landing
    next guest =>
    have kernelOnly : (state.ports index).kernelEndpoint = true → sid = 0 := by
      intro endpoint
      by_contra notKernel
      exact guest ⟨endpoint, notKernel⟩
    split at result
    next routed intercepted =>
      subst result
      exact .of_intercept intercepted landing ⟨rfl, index, found, kernelOnly, rfl⟩
    · subst result
      exact .of_enqueueAt nofun ⟨found, kernelOnly, rfl⟩ landing

theorem enqueueByName_change (allocOk : Bool) (name data : Bytes) :
    state.Change (.enqueueByName allocOk name data) (state.enqueueByName allocOk name data).1.event
      (state.enqueueByName allocOk name data).2 := by
  have landing : (PortOp.enqueueByName allocOk name data).landing state =
    state.landing name data (state.enqueueByName allocOk name data).1 := rfl
  generalize result : state.enqueueByName allocOk name data = after at landing ⊢
  unfold Ports.enqueueByName at result
  split at result
  next routed intercepted =>
    subst result
    exact .of_intercept intercepted landing ⟨rfl, rfl⟩
  split at result
  · subst result
    exact .kept nofun landing
  next index found =>
    subst result
    exact .of_enqueueAt nofun ⟨found, rfl⟩ landing

theorem kernelEnqueue_change (allocOk : Bool) (sid : UInt32) (h : Int) (data : Bytes) :
    state.Change (.kernelEnqueue allocOk sid h data)
      (state.kernelEnqueue allocOk sid h data).1.event
      (state.kernelEnqueue allocOk sid h data).2 := by
  have landing : (PortOp.kernelEnqueue allocOk sid h data).landing state =
    state.landing [] data (state.kernelEnqueue allocOk sid h data).1 := rfl
  generalize result : state.kernelEnqueue allocOk sid h data = after at landing ⊢
  unfold Ports.kernelEnqueue at result
  split at result
  · subst result
    exact .kept nofun landing
  next index found =>
  split at result
  · subst result
    exact .kept nofun landing
  · subst result
    exact .of_enqueueAt nofun ⟨found, rfl⟩ landing

theorem change (op : PortOp) : state.Change op (op.run state).1 (op.run state).2 := by
  cases op with
  | send uid allocOk sid h data => exact send_change state uid allocOk sid h data
  | enqueueByName allocOk name data => exact enqueueByName_change state allocOk name data
  | kernelEnqueue allocOk sid h data => exact kernelEnqueue_change state allocOk sid h data
  | kill sid => exact .killed sid
  | create alive sid name =>
    dsimp only [run]
    unfold portCreate
    split
    · exact .kept nofun rfl
    next valid =>
    rw [not_or, not_or, not_or, Bool.not_eq_false] at valid
    obtain ⟨_, _, notKernel, rfl⟩ := valid
    split
    · exact .kept nofun rfl
    split
    · exact .kept nofun rfl
    next index free =>
    split
    next h handle => exact .opened notKernel handle free
    · exact .reset free
  | bind alive sid name =>
    dsimp only [run]
    rcases state.portBind_cases alive sid name with same | ⟨rfl, notKernel, bound⟩
    · rw [same]
      exact .kept nofun rfl
    · obtain ⟨h, index, handle, found, same⟩ := bound
      rw [same]
      exact .bound notKernel handle found
  | recv sid h =>
    dsimp only [run]
    unfold portRecv
    split
    · exact .kept nofun rfl
    next index found =>
    split
    · exact .kept nofun rfl
    next filled =>
    split
    · exact .kept nofun rfl
    next msg front => exact .taken found filled front
  | expect seq name =>
    dsimp only [run]
    unfold fsrouteExpect
    split
    · exact .kept nofun rfl
    · exact .turned _ rfl nofun
  | poll seq =>
    dsimp only [run]
    unfold fsroutePoll
    split
    · exact .kept nofun rfl
    · exact .turned _ rfl nofun
  | reclaim seq =>
    dsimp only [run]
    unfold fsrouteReclaim
    split
    · exact .kept nofun rfl
    · exact .turned _ rfl nofun

variable {state}

theorem addresses_of_accepted {op : PortOp} {index : Nat} {msg : Msg}
    (accepted : (op.run state).1 = .accepted index msg) : op.Addresses state index msg := by
  have change := op.change state
  generalize op.run state = result at change accepted
  obtain ⟨event, after⟩ := result
  cases accepted
  cases change with
  | queued _ addressed => exact addressed

end PortOp

end KernelLane.Kern
