import KernelLane.KernChanges
import KernelLane.RingQueue
import KernelLane.Runs

namespace KernelLane.Kern

open RingQueue Function List UInt32 Ports

/-!
# Port queues

Each port's ring represents a queue of datagrams: an accepted send appends to
it and a receive takes its first datagram.  The exception is the death of a
session, which clears the session's datagrams in the middle of the ring and
leaves head and tail where they were.  Over histories in which no session
dies while one of its datagrams is queued, everything accepted is received,
once and in order.
-/

/-! ## Operations and what they do to the queues -/

/-- No used port holds a datagram of this session. -/
def Ports.NoneQueued (state : Ports) (sid : UInt32) : Prop :=
  ∀ index, index < maxPorts → (state.ports index).used →
    ∀ slot, slot < maxQ → (state.ports index).holdsFrom sid slot = false

/-- A session may only die when none of its datagrams is queued. -/
def PortOp.Allowed (state : Ports) : PortOp → Prop
  | .kill sid => state.NoneQueued sid
  | _ => True

/-- A step of the ports, labelled by the operation and its event. -/
def PortOp.Step (before : Ports) (label : PortOp × PortEvent) (after : Ports) : Prop :=
  label.1.run before = (label.2, after)

/-- A step whose operation is allowed in the state it starts from. -/
def PortOp.AllowedStep (before : Ports) (label : PortOp × PortEvent) (after : Ports) : Prop :=
  label.1.Allowed before ∧ PortOp.Step before label after

def acceptedAt (index : Nat) (labels : List (PortOp × PortEvent)) : List Msg :=
  labels.filterMap fun label =>
    match label.2 with
    | .accepted port msg => if port = index then some msg else none
    | _ => none

def receivedAt (index : Nat) (labels : List (PortOp × PortEvent)) : List Msg :=
  labels.filterMap fun label =>
    match label.2 with
    | .received port msg => if port = index then some msg else none
    | _ => none

/-! ## Ports as queues -/

/-- A port's ring and count represent this queue. -/
structure Port.Queues (port : Port) (items : List Msg) : Prop where
  holds : Holds maxQ port.ring port.qh port.qt items
  count : port.qn.toNat = items.length
  unusedEmpty : port.used = false → items = []

/-- Every port of the table represents its queue. -/
def Ports.QueuesAre (state : Ports) (queues : Nat → List Msg) : Prop :=
  ∀ index, (state.ports index).Queues (queues index)

def advance (queues : Nat → List Msg) : PortEvent → Nat → List Msg
  | .quiet => queues
  | .accepted index msg => update queues index (queues index ++ [msg])
  | .received index _ => update queues index (queues index).tail

/-- A received datagram was the first of its queue. -/
def FirstReceived (queues : Nat → List Msg) (event : PortEvent) : Prop :=
  ∀ index msg, event = .received index msg → queues index = msg :: (queues index).tail

namespace Port.Queues

variable {port : Port} {items : List Msg}

theorem room (queued : port.Queues items) (notFull : ¬ ofNat maxQ ≤ port.qn) :
    items.length < maxQ := by
  rw [le_iff_toNat_le, queued.count] at notFull
  have size : (ofNat maxQ).toNat = maxQ := by decide
  omega

theorem enqueue (queued : port.Queues items) (isUsed : port.used = true)
    (room : items.length < maxQ) (msg : Msg) : (port.enqueue msg).Queues (items ++ [msg]) where
  holds := queued.holds.push room
  count := by
    have count := queued.count
    simp only [Port.enqueue, UInt32.toNat_add, count, length_append, length_singleton]
    have one : (1 : UInt32).toNat = 1 := by decide
    simp only [maxQ] at room
    omega
  unusedEmpty := by
    intro unused
    exact absurd (isUsed.symm.trans unused) (by decide)

theorem dequeue {msg : Msg} (queued : port.Queues (msg :: items)) (isUsed : port.used = true) :
    port.dequeue.Queues items where
  holds := queued.holds.pop
  count := by
    have count := queued.count
    have one : (1 : UInt32).toNat = 1 := by decide
    have bound : port.qn.toNat < 2 ^ 32 := port.qn.toNat_lt
    simp only [Port.dequeue, UInt32.toNat_sub, count, length_cons] at bound ⊢
    rw [one]
    omega
  unusedEmpty := by
    intro unused
    exact absurd (isUsed.symm.trans unused) (by decide)

theorem drain_none {sid : UInt32} (none : ∀ slot, slot < maxQ → port.holdsFrom sid slot = false) :
    port.drain sid = port := by
  have noneCounted : (range maxQ).countP (port.holdsFrom sid) = 0 := by
    rw [countP_eq_zero]
    intro slot member
    rw [none slot (mem_range.mp member)]
    decide
  have sameRing : (fun slot =>
      if slot < maxQ ∧ port.holdsFrom sid slot then Option.none
      else port.ring slot) = port.ring := by
    funext slot
    by_cases inRing : slot < maxQ
    · simp [none slot inRing]
    · simp [inRing]
  simp only [Port.drain, noneCounted, sameRing]
  simp

/-- A slot that was never used, or whose creation failed, can be reset. -/
theorem renamed (queued : port.Queues items) (unused : port.used = false) (used : Bool)
    (creator : UInt32) (name : Bytes) : (port.renamed used creator name).Queues items := by
  obtain rfl := queued.unusedEmpty unused
  refine ⟨.empty (show 0 < maxQ by decide) ?_, rfl, fun _ => rfl⟩
  intro slot inRing
  exact queued.holds.slot_of_nil inRing

end Port.Queues

/-! ## One operation -/

namespace Ports

theorem kill_ports {state : Ports} {sid : UInt32} (none : state.NoneQueued sid) :
    ((state.drainSession sid).clearSessionHandles sid).ports = state.ports := by
  have sameDrained : (state.drainSession sid).ports = state.ports := by
    funext index
    simp only [drainSession]
    split
    · rename_i used
      exact Port.Queues.drain_none (none index used.1 used.2)
    · rfl
  rw [← sameDrained]
  unfold clearSessionHandles
  split <;> rfl

namespace QueuesAre

variable {state : Ports} {queues : Nat → List Msg} (are : state.QueuesAre queues)
include are

theorem of_same_ports {after : Ports} (same : after.ports = state.ports) :
    after.QueuesAre queues := by
  intro index
  rw [same]
  exact are index

theorem setPort (index : Nat) {port : Port} {items : List Msg} (queued : port.Queues items) :
    (state.setPort index port).QueuesAre (update queues index items) := by
  intro other
  by_cases same : other = index
  · subst same
    simpa [Ports.setPort] using queued
  · simpa [Ports.setPort, update_of_ne same] using are other

theorem portRecv_eq {sid : UInt32} {h : Int} {index : Nat}
    (found : state.portOf sid h = some index) : state.portRecv sid h =
      match queues index with
      | [] => (.empty, state)
      | msg :: _ =>
        (.received index msg, state.setPort index (state.ports index).dequeue) := by
  have queued := are index
  unfold portRecv
  simp only [found]
  cases shape : queues index with
  | nil =>
    rw [shape] at queued
    have zero : (state.ports index).qn = 0 := UInt32.toNat_inj.mp queued.count
    rw [if_pos zero]
  | cons msg rest =>
    rw [shape] at queued
    have positive : (state.ports index).qn ≠ 0 := by
      intro zero
      have count := queued.count
      rw [zero] at count
      simp at count
    rw [if_neg positive]
    simp only [queued.holds.front]

/-- The datagram at the head of a filled ring is the first of its queue. -/
theorem first {index : Nat} {msg : Msg} (filled : (state.ports index).qn ≠ 0)
    (front : (state.ports index).ring (state.ports index).qh = some msg) :
    queues index = msg :: (queues index).tail := by
  have queued := are index
  cases shape : queues index with
  | nil =>
    rw [shape] at queued
    exact absurd (UInt32.toNat_inj.mp queued.count) filled
  | cons head rest =>
    rw [shape] at queued
    cases queued.holds.front.symm.trans front
    rfl

theorem renamed {index : Nat} (free : state.freePort = some index)
    (used : Bool) (sid : UInt32) (name : Bytes) :
    (state.setPort index ((state.ports index).renamed used sid name)).QueuesAre queues := by
  have replaced := are.setPort index ((are index).renamed (freePort_spec free).2 used sid name)
  rwa [update_eq_self] at replaced

end QueuesAre

end Ports

variable {label : PortOp × PortEvent} {labels : List (PortOp × PortEvent)}

theorem step_queues {before after : Ports} {queues : Nat → List Msg}
    (are : before.QueuesAre queues) (step : PortOp.AllowedStep before label after) :
    after.QueuesAre (advance queues label.2) ∧ FirstReceived queues label.2 := by
  obtain ⟨op, event⟩ := label
  obtain ⟨allowed, ran⟩ := step
  have change := op.change before
  rw [show op.run before = (event, after) from ran] at change
  have quiet : FirstReceived queues .quiet := nofun
  cases change with
  | kept | answered | bound | turned => exact ⟨are, quiet⟩
  | opened notKernel handle free => exact ⟨are.renamed free true _ _, quiet⟩
  | reset free => exact ⟨are.renamed free false _ _, quiet⟩
  | killed sid => exact ⟨are.of_same_ports (kill_ports allowed), quiet⟩
  | @queued _ index msg _ addressed room =>
    have queued := are index
    have used := used_of_addresses addressed
    exact ⟨are.setPort index (queued.enqueue used (queued.room room) msg), nofun⟩
  | @taken sid h index msg found filled front =>
    have shape := are.first filled front
    have queued := are index
    rw [shape] at queued
    have used := (portOf_eq_some_iff.mp found).2.2.2
    refine ⟨are.setPort index (queued.dequeue used), ?_⟩
    rintro other received ⟨⟩
    exact shape

/-! ## Whole histories -/

theorem advance_accounts {queues : Nat → List Msg} (first : FirstReceived queues label.2)
    (index : Nat) : queues index ++ acceptedAt index [label] =
      receivedAt index [label] ++ advance queues label.2 index := by
  obtain ⟨op, event⟩ := label
  cases event with
  | quiet => simp [acceptedAt, receivedAt, advance]
  | accepted port msg =>
    by_cases same : port = index
    · subst same
      simp [acceptedAt, receivedAt, advance]
    · simp [acceptedAt, receivedAt, advance, same, update_of_ne (Ne.symm same)]
  | received port msg =>
    by_cases same : port = index
    · subst same
      have shape := first port msg rfl
      simp only [acceptedAt, receivedAt, advance, filterMap_cons, filterMap_nil, append_nil,
        ↓reduceIte, update_self, singleton_append]
      exact shape
    · simp [acceptedAt, receivedAt, advance, same, update_of_ne (Ne.symm same)]

theorem run_queues {before after : Ports} {queues : Nat → List Msg}
    (are : before.QueuesAre queues) (run : Run PortOp.AllowedStep before labels after) :
    ∃ final, after.QueuesAre final ∧ ∀ index, queues index ++ acceptedAt index labels =
      receivedAt index labels ++ final index := by
  induction run generalizing queues with
  | nil state => exact ⟨queues, are, by simp [acceptedAt, receivedAt]⟩
  | @cons initial middle final label rest first _ hypothesis =>
    obtain ⟨middleAre, received⟩ := step_queues are first
    obtain ⟨last, lastAre, accounts⟩ := hypothesis middleAre
    refine ⟨last, lastAre, ?_⟩
    intro index
    have head := advance_accounts received index
    have tail := accounts index
    have acceptedSplit : acceptedAt index (label :: rest) =
        acceptedAt index [label] ++ acceptedAt index rest := by
      simp [acceptedAt, filterMap_cons]
      split <;> simp
    have receivedSplit : receivedAt index (label :: rest) =
        receivedAt index [label] ++ receivedAt index rest := by
      simp [receivedAt, filterMap_cons]
      split <;> simp
    calc
      queues index ++ acceptedAt index (label :: rest)
        = (queues index ++ acceptedAt index [label]) ++ acceptedAt index rest := by
          rw [acceptedSplit, append_assoc]
      _ = receivedAt index [label] ++ (advance queues label.2 index ++ acceptedAt index rest) := by
        rw [head, append_assoc]
      _ = receivedAt index (label :: rest) ++ last index := by
        rw [tail, receivedSplit, append_assoc]

theorem portsInit_queues : portsInit.QueuesAre fun _ => [] := by
  intro index
  have blank : ∀ slot, (portsInit.ports index).ring slot = none := by
    intro slot
    unfold portsInit
    dsimp only
    split <;> rfl
  refine ⟨?_, ?_, fun _ => rfl⟩
  · have atZero : (portsInit.ports index).qh = 0 ∧ (portsInit.ports index).qt = 0 := by
      unfold portsInit
      dsimp only
      split <;> exact ⟨rfl, rfl⟩
    rw [atZero.1, atZero.2]
    exact .empty (by decide) fun slot _ => blank slot
  · unfold portsInit
    dsimp only
    split <;> rfl

/--
In every history in which no session dies while one of its datagrams is
queued, the datagrams accepted by a port are the received ones followed by
the queued ones, in order; the count is the number of queued ones; and a
receive through any handle to the port returns the first queued one.
-/
theorem queues_lossless_fifo {final : Ports} (run : Run PortOp.AllowedStep portsInit labels final)
    (index : Nat) : ∃ queued, acceptedAt index labels = receivedAt index labels ++ queued ∧
      (final.ports index).qn.toNat = queued.length ∧
      ∀ sid h, final.portOf sid h = some index → (final.portRecv sid h).1 =
        match queued with
        | [] => .empty
        | msg :: _ => .received index msg := by
  obtain ⟨queues, are, accounts⟩ := run_queues portsInit_queues run
  refine ⟨queues index, ?_, (are index).count, ?_⟩
  · simpa using accounts index
  · intro sid h found
    rw [are.portRecv_eq found]
    cases queues index <;> rfl

/-! ## Two senders on one port -/

def twoSenders : List PortOp :=
  [.create true 1 (ascii "q"), .bind true 2 (ascii "q"), .bind true 3 (ascii "q"),
    .send 7 true 2 0 [1],
    .send 8 true 3 0 [2]]

def labelsFrom (state : Ports) : List PortOp → List (PortOp × PortEvent)
  | [] => []
  | op :: rest => (op, (op.run state).1) :: labelsFrom (op.run state).2 rest

def stateAfter (state : Ports) : List PortOp → Ports
  | [] => state
  | op :: rest => stateAfter (op.run state).2 rest

theorem run_labelsFrom (state : Ports) (ops : List PortOp) :
    Run PortOp.Step state (labelsFrom state ops) (stateAfter state ops) := by
  induction ops generalizing state with
  | nil => exact .nil state
  | cons op rest hypothesis => exact .cons rfl (hypothesis _)

/--
Session 2 dies before its datagram is received.  The count still says that a
datagram is queued, the one of session 3, and no receive returns it.
-/
theorem drained_port_is_stuck :
    Run PortOp.Step portsInit (labelsFrom portsInit (twoSenders ++ [.kill 2]))
        (stateAfter portsInit (twoSenders ++ [.kill 2])) ∧
      acceptedAt 3 (labelsFrom portsInit (twoSenders ++ [.kill 2])) = [⟨2, [1]⟩, ⟨3, [2]⟩] ∧
      (stateAfter portsInit (twoSenders ++ [.kill 2])).portOf 1 0 = some 3 ∧
      ((stateAfter portsInit (twoSenders ++ [.kill 2])).ports 3).qn = 1 ∧
      ((stateAfter portsInit (twoSenders ++ [.kill 2])).portRecv 1 0).1 = .empty :=
  ⟨run_labelsFrom _ _, by decide +kernel, by decide +kernel, by decide +kernel, by decide +kernel⟩

/-- Without a death the two datagrams are queued in the order accepted. -/
theorem queues_lossless_two_senders :
    Run PortOp.AllowedStep portsInit (labelsFrom portsInit twoSenders)
        (stateAfter portsInit twoSenders) ∧
      ∃ queued, acceptedAt 3 (labelsFrom portsInit twoSenders) =
          receivedAt 3 (labelsFrom portsInit twoSenders) ++ queued ∧
        ((stateAfter portsInit twoSenders).ports 3).qn.toNat = queued.length ∧
        ∀ sid h, (stateAfter portsInit twoSenders).portOf sid h = some 3 →
          ((stateAfter portsInit twoSenders).portRecv sid h).1 =
            match queued with
            | [] => .empty
            | msg :: _ => .received 3 msg := by
  have run : Run PortOp.AllowedStep portsInit (labelsFrom portsInit twoSenders)
      (stateAfter portsInit twoSenders) := by
    repeat (first | exact .nil _ | refine .cons ⟨trivial, rfl⟩ ?_)
  exact ⟨run, queues_lossless_fifo run 3⟩

end KernelLane.Kern
