import KernelLane.TcpConn

namespace KernelLane.Tcp

open Relation

/-!
# The acts of an endpoint

Whatever an endpoint does with an arriving segment, and whatever it sends on
its own account, is a sequence of a few acts.  A property that each act keeps
is kept by every call.
-/

namespace TCPConn

/-- One act of an endpoint, and the segment that it answers. -/
inductive Act : Option TCPSegment → TCPConn → TCPConn → Prop where
  | cut {cause c} (able : c.CanSend) : Act cause c c.cutSegment
  | fin {cause c state} (pending : c.finPending = true) (drained : c.sndBuf = [])
      (closing : c.state = .established ∧ state = .finWait ∨
        c.state = .closeWait ∧ state = .lastAck) :
    Act cause c ({ c with state := state }.sendLocked tcpFin [])
  | pend {c} (going : c.state = .established ∨ c.state = .closeWait) :
    Act none c { c with finPending := true }
  | bind {c seg} (src : IP4) : Act (some seg) c { c with remoteIP := src, remotePort := seg.srcPort }
  | ack {c seg} (new : c.acknowledges seg = true) : Act (some seg) c (c.openWindow seg.ack)
  | payload {c seg} (streaming : c.state = .established ∨ c.state = .finWait)
      (inOrder : c.PayloadInOrder seg) :
    Act (some seg) c
      ({ c with
        rcvBuf := c.rcvBuf ++ seg.payload
        rcvNXT := c.rcvNXT + UInt32.ofNat seg.payload.length }.sendLocked tcpAck [])
  | takeFin {c seg} (streaming : c.state = .established ∨ c.state = .finWait)
      (inOrder : c.finInOrder seg = true) :
    Act (some seg) c ({ c with rcvNXT := c.rcvNXT + 1 }.sendLocked tcpAck [])
  | listen {c seg} (listens : c.state = .listen) (syn : seg.has tcpSyn = true)
      (first : ¬ seg.has tcpAck) :
    Act (some seg) c
      ({ c with rcvNXT := seg.seq + 1, state := .synRcvd }.sendLocked (tcpSyn ||| tcpAck) [])
  | answer {c seg} (waiting : c.state = .synSent) (syn : seg.has tcpSyn = true)
      (ack : seg.has tcpAck = true) :
    Act (some seg) c
      ({ c with
        rcvNXT := seg.seq + 1
        sndUNA := seg.ack
        inFlight := []
        state := .established }.sendLocked tcpAck [])
  | complete {c seg} (waiting : c.state = .synRcvd) (ack : seg.has tcpAck = true)
      (settled : c.acknowledges seg = false) (acceptQueue : Option Nat) :
    Act (some seg) c { c with state := .established, acceptQueue }
  | leave {c seg} (streaming : c.state = .established) :
    Act (some seg) c { c with state := .closeWait, err := some .remoteClosed }
  | note {c seg} (ending : c.state = .finWait) :
    Act (some seg) c { c with finAckedTheirFin := seg.has tcpFin || c.finAckedTheirFin }
  | finish {c seg} (ending : c.state = .lastAck ∨ c.state = .finWait ∧ c.finAckedTheirFin = true) :
    Act (some seg) c { c with state := .closed, err := some .closed }
  | reset {c seg} (reset : seg.has tcpRst = true) (begun : c.state ≠ .listen) :
    Act (some seg) c { c with state := .closed, err := some .connReset }

/-- A sequence of acts. -/
abbrev Acts (cause : Option TCPSegment) : TCPConn → TCPConn → Prop := ReflTransGen (Act cause)

variable {cause : Option TCPSegment} {c after : TCPConn} {seg : TCPSegment}

theorem Acts.invariant (acts : Acts cause c after) (holds : TCPConn → Prop)
    (keeps : ∀ {c after}, Act cause c after → holds c → holds after) (start : holds c) :
    holds after := by
  induction acts with
  | refl => exact start
  | tail _ act hypothesis => exact keeps act hypothesis

theorem flushLocked_acts (c : TCPConn) : Acts cause c c.flushLocked :=
  flushLocked_invariant (fun after => Acts cause c after)
    (fun able acts => acts.tail (.cut able)) .refl

theorem trySendFinLocked_acts (c : TCPConn) : Acts cause c c.trySendFinLocked := by
  unfold trySendFinLocked
  split
  · exact .refl
  next ready =>
  simp only [not_or, Nat.not_lt, Nat.le_zero_eq, List.length_eq_zero_iff, Bool.not_eq_false] at ready
  split
  next streaming => exact .single (.fin ready.1 ready.2.1 (.inl ⟨streaming, rfl⟩))
  next waiting => exact .single (.fin ready.1 ready.2.1 (.inr ⟨waiting, rfl⟩))
  · exact .refl

theorem processAck_acts (c : TCPConn) (seg : TCPSegment) : Acts (some seg) c (c.processAck seg) := by
  unfold processAck
  split
  next new =>
    refine .head (.ack new) ?_
    dsimp only
    split
    · exact (flushLocked_acts _).trans (trySendFinLocked_acts _)
    · exact trySendFinLocked_acts _
  · exact .refl

theorem processAck_of_not (none : c.acknowledges seg = false) : c.processAck seg = c := by
  simp [processAck, none]

theorem processAck_sndUNA (acknowledged : c.acknowledges seg = true) :
    (c.processAck seg).sndUNA = seg.ack := by
  unfold processAck
  rw [if_pos acknowledged, (trySendFinLocked_frame _).sndUNA]
  split
  · exact (flushLocked_frame _).1.sndUNA
  · rfl

theorem processAck_settled (c : TCPConn) (seg : TCPSegment) :
    (c.processAck seg).acknowledges seg = false := by
  cases new : c.acknowledges seg with
  | false => rwa [processAck_of_not new]
  | true => simp [acknowledges, processAck_sndUNA new, seqGT]

/-- Besides an acknowledgement, only the answer to a SYN moves `sndUNA`. -/
theorem Act.sndUNA (act : Act (some seg) c after) (acked : c.sndUNA = seg.ack) :
    after.sndUNA = seg.ack := by
  cases act with
  | ack | answer => rfl
  | _ => exact acked

section

variable (streaming : c.state = .established ∨ c.state = .finWait) (seg : TCPSegment)
include streaming

theorem acceptPayload_acts : Acts (some seg) c (c.acceptPayload seg) := by
  unfold acceptPayload
  split
  next inOrder => exact .single (.payload streaming inOrder)
  · exact .refl

theorem acceptFin_acts : Acts (some seg) c (c.acceptFin seg) := by
  unfold acceptFin
  split
  next inOrder => exact .single (.takeFin streaming inOrder)
  · exact .refl

theorem accept_acts : Acts (some seg) c ((c.acceptPayload seg).acceptFin seg) := by
  refine (acceptPayload_acts streaming seg).trans (acceptFin_acts ?_ seg)
  rwa [acceptPayload_state]

end

theorem handleState_acts (settled : c.acknowledges seg = false) :
    Acts (some seg) c (c.handleState seg) := by
  unfold handleState
  cases state : c.state with
  | listen =>
    unfold handleListen
    dsimp only
    split
    next syn => exact .single (.listen state syn.1 syn.2)
    · exact .refl
  | synSent =>
    unfold handleSynSent
    dsimp only
    split
    next answer => exact .head (.answer state answer.1 answer.2) (flushLocked_acts _)
    · exact .refl
  | synRcvd =>
    unfold handleSynRcvd
    dsimp only
    split
    next ack => exact .single (.complete state ack settled _)
    · exact .refl
  | established =>
    unfold handleEstablished
    dsimp only
    split
    · refine (accept_acts (.inl state) seg).tail (.leave ?_)
      rw [acceptFin_state, acceptPayload_state, state]
    · exact acceptPayload_acts (.inl state) seg
  | finWait =>
    have ending : ((c.acceptPayload seg).acceptFin seg).state = .finWait := by
      rw [acceptFin_state, acceptPayload_state, state]
    have noted := (accept_acts (.inr state) seg).tail (.note ending)
    unfold handleFinWait
    dsimp only
    split
    next both => exact noted.tail (.finish (.inr ⟨ending, (Bool.and_eq_true_iff.mp both).2⟩))
    · exact noted
  | lastAck =>
    unfold handleLastAck
    dsimp only
    split
    · exact .single (.finish (.inl state))
    · exact .refl
  | closeWait | closed => exact .refl

theorem receive_acts (c : TCPConn) (src : IP4) (seg : TCPSegment) :
    Acts (some seg) c (c.receive src seg) := by
  have bound : Acts (some seg) c (c.bindPeer src seg) := by
    unfold bindPeer
    split
    · exact .single (.bind src)
    · exact .refl
  refine bound.trans ?_
  unfold receive handle
  split
  next reset => exact .single (.reset reset.1 reset.2.2)
  have moved := (processAck_acts (c.bindPeer src seg) seg).trans
    (handleState_acts (processAck_settled _ seg))
  dsimp only
  split
  next streaming => exact moved.trans (acceptPayload_acts (.inl streaming) seg)
  · exact moved

theorem close_acts (closed : c.close = some after) : Acts none c after := by
  unfold close at closed
  split at closed
  next streaming =>
    cases closed
    refine ((flushLocked_acts c).tail (.pend (.inl ?_))).trans (trySendFinLocked_acts _)
    rw [(flushLocked_frame c).2, streaming]
  next waiting =>
    cases closed
    exact .head (.pend (.inr waiting)) (trySendFinLocked_acts _)
  · cases closed
    exact .refl
  · cases closed

theorem write_acts {data : Bytes} (written : c.write data = some after) :
    c.state = .established ∧ Acts none { c with sndBuf := c.sndBuf ++ data } after := by
  unfold write at written
  split at written
  · cases written
  next ready =>
    cases written
    rw [not_or, Decidable.not_not] at ready
    exact ⟨ready.1, flushLocked_acts _⟩

end TCPConn

end KernelLane.Tcp
