import KernelLane.KernDirect

namespace KernelLane.Kern

open RingQueue Function

/-!
# Private queues of the kernel endpoints

The queue of an endpoint is private while one session holds the endpoint and
everything queued there is addressed to that session.  Binding an endpoint
that nobody else holds, answering through a handle and the death of a session
without datagrams all keep the queues private.
-/

theorem Port.Queues.slot_of_mem {port : Port} {items : List Msg} (queued : port.Queues items)
    {msg : Msg} (member : msg ∈ items) : ∃ slot, slot < maxQ ∧ port.ring slot = some msg := by
  obtain ⟨offset, inside, rfl⟩ := List.getElem_of_mem member
  have short := queued.holds.short
  refine ⟨place maxQ port.qh offset, Nat.mod_lt _ (by decide), ?_⟩
  rw [queued.holds.cells offset (by omega)]
  exact List.getElem?_eq_getElem inside

theorem not_noneQueued_of_mem {state : Ports} {queues : Nat → List Msg}
    (are : state.QueuesAre queues) {index : Nat}
    (known : index < maxPorts ∧ (state.ports index).used = true) {msg : Msg}
    (member : msg ∈ queues index) : ¬ state.NoneQueued msg.fromSid := by
  intro none
  obtain ⟨slot, inside, stored⟩ := (are index).slot_of_mem member
  have empty := none index known.1 known.2 slot inside
  simp [Port.holdsFrom, stored] at empty

/--
Every endpoint has one holder, and what is queued on an endpoint was sent by
a session that holds it.
-/
structure Ports.Private (state : Ports) (queues : Nat → List Msg) : Prop where
  are : state.QueuesAre queues
  sole : ∀ {index sid other}, state.IsEndpoint index → state.Holder index sid →
    state.Holder index other →
    sid = other
  owned : ∀ {index msg}, state.IsEndpoint index → msg ∈ queues index →
    state.Holder index msg.fromSid
  kernel : ∀ h, state.htab 0 h = none

/-- Port operations that keep the queues of the endpoints private. -/
def PortOp.Solo (state : Ports) : PortOp → Prop
  | .bind _ sid name =>
    ∀ index, state.portByName name = some index → state.IsEndpoint index →
      ∀ other, state.Holder index other → other = sid
  | .enqueueByName _ name _ =>
    ∀ index, state.portByName name = some index → ¬ state.IsEndpoint index
  | .kill sid => state.NoneQueued sid
  | _ => True

theorem mem_advance {queues : Nat → List Msg} {event : PortEvent} {index : Nat} {msg : Msg}
    (member : msg ∈ advance queues event index) :
    msg ∈ queues index ∨ event = .accepted index msg := by
  cases event with
  | quiet => exact .inl member
  | accepted port new =>
    by_cases same : index = port
    · subst same
      simp only [advance, update_self, List.mem_append, List.mem_singleton] at member
      rcases member with old | rfl
      · exact .inl old
      · exact .inr rfl
    · simp only [advance, update_of_ne same] at member
      exact .inl member
  | received port taken =>
    by_cases same : index = port
    · subst same
      simp only [advance, update_self] at member
      exact .inl (List.mem_of_mem_tail member)
    · simp only [advance, update_of_ne same] at member
      exact .inl member

namespace Ports

variable {state after : Ports} {queues : Nat → List Msg}

variable {allocOk : Bool} {index : Nat} {msg : Msg} {sid : UInt32} {data : Bytes}

theorem portOf_kernel (kernel : ∀ h, state.htab 0 h = none) (h : Int) :
    state.portOf 0 h = none := by
  cases found : state.portOf 0 h with
  | none => rfl
  | some index =>
    have stored := (portOf_eq_some_iff.mp found).2.1
    exact absurd (stored.symm.trans (kernel _)) (by simp)

theorem portSend_accepted (kernel : ∀ h, state.htab 0 h = none) {uid : UInt32} {h : Int}
    (accepted : (state.portSend uid allocOk sid h data).1.event = .accepted index msg) :
    ¬ state.IsEndpoint index := by
  intro endpoint
  obtain ⟨found, kernelOnly, _⟩ :=
    @PortOp.addresses_of_accepted state (.send uid allocOk sid h data) index msg accepted
  rw [kernelOnly endpoint.2, portOf_kernel kernel] at found
  cases found

section

variable (priv : state.Private queues)
include priv

/-- A solitary operation queues answers for a holder of the endpoint only. -/
theorem Private.holder_of_accepted {op : PortOp} (solo : op.Solo state)
    (endpoint : state.IsEndpoint index) (accepted : (op.run state).1 = .accepted index msg) :
    state.Holder index msg.fromSid := by
  have addressed := PortOp.addresses_of_accepted accepted
  cases op with
  | send => exact absurd endpoint (portSend_accepted priv.kernel accepted)
  | enqueueByName => exact absurd endpoint (solo index addressed.1)
  | kernelEnqueue allocOk sid h data =>
    obtain ⟨found, rfl⟩ := addressed
    exact ⟨h, found⟩
  | _ => cases addressed

theorem Private.of_sameHolders {next : Nat → List Msg}
    (same : SameHolders state after) (are : after.QueuesAre next)
    (added : ∀ {index msg}, state.IsEndpoint index → msg ∈ next index →
      state.Holder index msg.fromSid) : after.Private next where
  are := are
  sole := by
    intro index sid other endpoint first second
    have before := (same.endpoint index).mp endpoint
    rw [same.holder before] at first second
    exact priv.sole before first second
  owned := by
    intro index msg endpoint member
    have before := (same.endpoint index).mp endpoint
    rw [same.holder before]
    exact added before member
  kernel := by
    intro h
    rw [same.kernel]
    exact priv.kernel h

theorem Private.setHandle {h target : Nat} (notKernel : sid ≠ 0)
    (free : state.htab sid.toNat h = none)
    (solo : state.IsEndpoint target → ∀ other, state.Holder target other → other = sid) :
    (state.setHandle sid h target).Private queues where
  are := priv.are
  sole := by
    intro index first second endpoint firstHolds secondHolds
    rcases holder_setHandle free firstHolds with firstOld | ⟨rfl, rfl⟩ <;>
    rcases holder_setHandle free secondHolds with secondOld | ⟨rfl, sameTarget⟩
    · exact priv.sole endpoint firstOld secondOld
    · subst sameTarget
      exact solo endpoint first firstOld
    · exact (solo endpoint second secondOld).symm
    · rfl
  owned := by
    intro index msg endpoint member
    obtain ⟨g, found⟩ := priv.owned endpoint member
    exact ⟨g, portOf_setHandle free found⟩
  kernel := by
    intro g
    have apart : 0 ≠ sid.toNat := fun zero => notKernel (UInt32.toNat_inj.mp zero.symm)
    simpa [Ports.setHandle, apart] using priv.kernel g

/-- The death of a session without datagrams keeps the endpoints private. -/
theorem Private.kill (none : state.NoneQueued sid) :
    ((state.drainSession sid).clearSessionHandles sid).Private queues := by
  refine ⟨priv.are.of_same_ports (kill_ports none), ?_, ?_, ?_⟩
  · intro index first second endpoint firstHolds secondHolds
    obtain ⟨firstHandle, firstFound⟩ := firstHolds
    obtain ⟨secondHandle, secondFound⟩ := secondHolds
    rw [portOf_kill] at firstFound secondFound
    rw [IsEndpoint, kill_ports none] at endpoint
    exact priv.sole endpoint ⟨firstHandle, firstFound.1⟩ ⟨secondHandle, secondFound.1⟩
  · intro index msg endpoint member
    rw [IsEndpoint, kill_ports none] at endpoint
    obtain ⟨h, found⟩ := priv.owned endpoint member
    refine ⟨h, (portOf_kill sid _ h index).mpr ⟨found, ?_⟩⟩
    rintro rfl
    have known := (portOf_eq_some_iff.mp found).2.2
    exact absurd none (not_noneQueued_of_mem priv.are known member)
  · intro h
    unfold clearSessionHandles
    split
    · exact priv.kernel h
    by_cases zero : sid.toNat = 0
    · simp [zero]
    · simpa [drainSession, update_of_ne (Ne.symm zero)] using priv.kernel h

theorem Private.run {op : PortOp} (solo : op.Solo state) :
    (op.run state).2.Private (advance queues (op.run state).1) ∧
      FirstReceived queues (op.run state).1 := by
  have allowed : op.Allowed state := by
    cases op with
    | kill sid => exact solo
    | _ => trivial
  have step : PortOp.AllowedStep state (op, (op.run state).1) (op.run state).2 := ⟨allowed, rfl⟩
  obtain ⟨are, first⟩ := step_queues priv.are step
  refine ⟨?_, first⟩
  by_cases binds : ∃ alive sid name, op = .bind alive sid name
  · obtain ⟨alive, sid, name, rfl⟩ := binds
    dsimp only [PortOp.run]
    rcases state.portBind_cases alive sid name with
      same | ⟨_, notKernel, h, target, handle, found, same⟩
    · rw [same]
      exact priv
    · rw [same]
      exact priv.setHandle notKernel (freeHandle_spec handle).1 (solo target found)
  by_cases kills : ∃ sid, op = .kill sid
  · obtain ⟨sid, rfl⟩ := kills
    exact priv.kill solo
  refine priv.of_sameHolders (op.run_sameHolders ?_ ?_) are ?_
  · rintro alive sid name rfl
    exact binds ⟨alive, sid, name, rfl⟩
  · rintro sid rfl
    exact kills ⟨sid, rfl⟩
  · intro index msg endpoint member
    rcases mem_advance member with old | accepted
    · exact priv.owned endpoint old
    · exact priv.holder_of_accepted solo endpoint accepted

end

end Ports

end KernelLane.Kern
