import KernelLane.TcpActs

namespace KernelLane.Tcp

open TCPConn

/-!
# Whose segments move an endpoint

The stack finds an endpoint by the destination port alone and the endpoint
never looks at the source of a segment.  A segment from anywhere therefore
moves an endpoint exactly when a segment of its peer with the same fields
would.
-/

namespace TCPConn

/-- State, receive stream and acknowledgement variables are the same. -/
structure Untouched (before after : TCPConn) : Prop where
  state : after.state = before.state
  rcvBuf : after.rcvBuf = before.rcvBuf
  sndUNA : after.sndUNA = before.sndUNA
  rcvNXT : after.rcvNXT = before.rcvNXT
  finAckedTheirFin : after.finAckedTheirFin = before.finAckedTheirFin

/-- The segment comes from the recorded peer; a reset has the expected
sequence number. -/
def Authentic (c : TCPConn) (src : IP4) (seg : TCPSegment) : Prop :=
  src = c.remoteIP ∧ seg.srcPort = c.remotePort ∧ (seg.has tcpRst = true → seg.seq = c.rcvNXT)

def finAcked (c : TCPConn) : Bool := seqGE c.sndUNA (c.finSeq + 1)

/-- A segment without anything that its endpoint would act on. -/
def Inert (c : TCPConn) (seg : TCPSegment) : Prop :=
  c.acknowledges seg = false ∧ (seg.has tcpRst = true → c.state = .closed) ∧
    match c.state with
    | .synSent => ¬ (seg.has tcpSyn = true ∧ seg.has tcpAck = true)
    | .synRcvd => seg.has tcpAck = false
    | .established => ¬ c.PayloadInOrder seg ∧ c.finInOrder seg = false
    | .finWait =>
      ¬ c.PayloadInOrder seg ∧ c.finInOrder seg = false ∧
        (seg.has tcpFin = true → c.finAckedTheirFin = true) ∧
        ¬ ((c.finSent = false ∨ c.finAcked = true) ∧ c.finAckedTheirFin = true)
    | .lastAck => ¬ (seg.has tcpAck = true ∧ c.finSent = true ∧ c.finAcked = true)
    | .closed => True
    | .listen => True
    | .closeWait => True

variable {c : TCPConn} {seg : TCPSegment}

theorem acceptPayload_of_not (none : ¬ c.PayloadInOrder seg) : c.acceptPayload seg = c :=
  if_neg none

theorem acceptFin_of_not (none : c.finInOrder seg = false) : c.acceptFin seg = c := by
  simp [acceptFin, none]

theorem handle_of_inert (past : c.state ≠ .listen) (inert : c.Inert seg) : c.handle seg = c := by
  obtain ⟨unacknowledged, reset, rest⟩ := inert
  have alive : ¬ (seg.has tcpRst = true ∧ c.state ≠ .closed ∧ c.state ≠ .listen) :=
    fun all => all.2.1 (reset all.1)
  rw [handle, if_neg alive, processAck_of_not unacknowledged]
  cases current : c.state with
  | listen => exact absurd current past
  | closed | closeWait => simp [handleState, current]
  | synSent =>
    rw [current] at rest
    simp [handleState, current, handleSynSent, rest]
  | synRcvd =>
    rw [current] at rest
    simp [handleState, current, handleSynRcvd, rest]
  | established =>
    rw [current] at rest
    simp [handleState, current, handleEstablished, acceptPayload_of_not rest.1, rest.2]
  | finWait =>
    rw [current] at rest
    obtain ⟨payload, fin, seen, open_⟩ := rest
    have noted : (seg.has tcpFin || c.finAckedTheirFin) = c.finAckedTheirFin := by
      cases flag : seg.has tcpFin with
      | false => simp
      | true => simp [seen flag]
    have stays : ((!c.finSent || seqGE c.sndUNA (c.finSeq + 1)) && c.finAckedTheirFin) = false := by
      by_contra closes
      apply open_
      simpa [finAcked] using closes
    have same : c.handleFinWait seg = c := by
      simp only [handleFinWait, acceptPayload_of_not payload,
        acceptFin_of_not fin, noted, stays, Bool.false_eq_true, if_false]
    simp [handleState, current, same]
  | lastAck =>
    rw [current] at rest
    have stays : ¬ (seg.has tcpAck = true ∧ c.finSent = true ∧
      seqGE c.sndUNA (c.finSeq + 1) = true) := rest
    simp [handleState, current, handleLastAck, stays]

/-! ## What a segment moves -/

theorem acceptPayload_sndUNA : (c.acceptPayload seg).sndUNA = c.sndUNA := by
  unfold acceptPayload
  split <;> rfl

theorem ack_ne_of_acknowledges (acknowledged : c.acknowledges seg = true) : seg.ack ≠ c.sndUNA := by
  intro same
  simp [acknowledges, seqGT, same] at acknowledged

/-- A segment that moves nothing acknowledges nothing and resets nothing. -/
theorem not_acknowledges_of_untouched (past : c.state ≠ .listen)
    (same : c.Untouched (c.handle seg)) :
    c.acknowledges seg = false ∧ (seg.has tcpRst = true → c.state = .closed) := by
  have reset : seg.has tcpRst = true → c.state = .closed := by
    intro flag
    by_contra alive
    have closed := same.state
    rw [handle, if_pos ⟨flag, alive, past⟩] at closed
    exact alive closed.symm
  refine ⟨?_, reset⟩
  by_contra acknowledged
  rw [Bool.not_eq_false] at acknowledged
  have alive : ¬ (seg.has tcpRst = true ∧ c.state ≠ .closed ∧ c.state ≠ .listen) :=
    fun all => all.2.1 (reset all.1)
  have moved : (c.handle seg).sndUNA = seg.ack := by
    rw [handle, if_neg alive]
    dsimp only
    have inner : ((c.processAck seg).handleState seg).sndUNA = seg.ack :=
      (handleState_acts (processAck_settled c seg)).invariant (fun after => after.sndUNA = seg.ack)
        Act.sndUNA (processAck_sndUNA acknowledged)
    split
    · rw [acceptPayload_sndUNA, inner]
    · exact inner
  exact ack_ne_of_acknowledges acknowledged (moved.symm.trans same.sndUNA)

theorem acceptPayload_rcvBuf (accepted : c.PayloadInOrder seg) :
    (c.acceptPayload seg).rcvBuf = c.rcvBuf ++ seg.payload := by
  unfold acceptPayload
  rw [if_pos accepted]
  rfl

theorem acceptFin_rcvBuf : (c.acceptFin seg).rcvBuf = c.rcvBuf := by
  unfold acceptFin
  split <;> rfl

theorem acceptPayload_rcvBuf_length : c.rcvBuf.length ≤ (c.acceptPayload seg).rcvBuf.length := by
  by_cases accepted : c.PayloadInOrder seg
  · rw [acceptPayload_rcvBuf accepted, List.length_append]
    omega
  · rw [acceptPayload_of_not accepted]

theorem not_payload_of_untouched {moved : TCPConn}
    (stream : moved.rcvBuf = (c.acceptPayload seg).rcvBuf)
    (same : c.Untouched (if moved.state = .established then moved.acceptPayload seg
      else moved)) :
    ¬ c.PayloadInOrder seg := by
  intro accepted
  have grown : moved.rcvBuf.length ≤ (if moved.state = .established then moved.acceptPayload seg
      else moved).rcvBuf.length := by
    split
    · exact acceptPayload_rcvBuf_length
    · exact Nat.le_refl _
  have some := accepted.1
  rw [same.rcvBuf, stream, acceptPayload_rcvBuf accepted, List.length_append] at grown
  omega

theorem inert_of_untouched (past : c.state ≠ .listen) (same : c.Untouched (c.handle seg)) :
    c.Inert seg := by
  obtain ⟨unacknowledged, reset⟩ := not_acknowledges_of_untouched past same
  refine ⟨unacknowledged, reset, ?_⟩
  have alive : ¬ (seg.has tcpRst = true ∧ c.state ≠ .closed ∧ c.state ≠ .listen) :=
    fun all => all.2.1 (reset all.1)
  have handled : c.handle seg =
      if (c.handleState seg).state = .established then (c.handleState seg).acceptPayload seg
      else c.handleState seg := by
    rw [handle, if_neg alive, processAck_of_not unacknowledged]
  rw [handled] at same
  have kept : (c.handleState seg).state = c.state := by
    have final := same.state
    split at final
    · rwa [acceptPayload_state] at final
    · exact final
  cases current : c.state with
  | listen => exact absurd current past
  | closed => trivial
  | closeWait => trivial
  | synSent =>
    rintro ⟨syn, ack⟩
    have answered : (c.handleState seg).state = .established := by
      simp only [handleState, current, handleSynSent, syn, ack, and_self, if_true]
      exact (flushLocked_frame _).2
    rw [answered, current] at kept
    cases kept
  | synRcvd =>
    by_contra ack
    rw [Bool.not_eq_false] at ack
    have opened : (c.handleState seg).state = .established := by
      simp [handleState, current, handleSynRcvd, ack]
    rw [opened, current] at kept
    cases kept
  | established =>
    have inner : c.handleState seg = c.handleEstablished seg := by rw [handleState, current]
    have stream : (c.handleState seg).rcvBuf = (c.acceptPayload seg).rcvBuf := by
      rw [inner, handleEstablished]
      split
      · exact acceptFin_rcvBuf
      · rfl
    have none := not_payload_of_untouched stream same
    refine ⟨none, ?_⟩
    by_contra fin
    rw [Bool.not_eq_false] at fin
    have left : (c.handleState seg).state = .closeWait := by
      rw [inner, handleEstablished, acceptPayload_of_not none]
      simp [fin]
    rw [left, current] at kept
    cases kept
  | finWait =>
    have inner : c.handleState seg = c.handleFinWait seg := by rw [handleState, current]
    have stream : (c.handleState seg).rcvBuf = (c.acceptPayload seg).rcvBuf := by
      rw [inner, handleFinWait]
      split <;> exact acceptFin_rcvBuf
    have none := not_payload_of_untouched stream same
    rw [if_neg (by rw [kept, current]; decide)] at same
    have noFin : c.finInOrder seg = false := by
      by_contra fin
      rw [Bool.not_eq_false] at fin
      have moved := same.rcvNXT
      have stepped : (c.handleState seg).rcvNXT = c.rcvNXT + 1 := by
        rw [inner, handleFinWait, acceptPayload_of_not none]
        split <;> simp [acceptFin, fin, sendLocked]
      rw [stepped] at moved
      simp at moved
    have unclosed : c.handleState seg =
        if (!c.finSent || seqGE c.sndUNA (c.finSeq + 1)) &&
            (seg.has tcpFin || c.finAckedTheirFin) then
          { c with
            finAckedTheirFin := seg.has tcpFin || c.finAckedTheirFin
            state := .closed
            err := some .closed }
        else
          { c with
            finAckedTheirFin := seg.has tcpFin || c.finAckedTheirFin } := by
      rw [inner, handleFinWait, acceptPayload_of_not none, acceptFin_of_not noFin]
    have noted : (seg.has tcpFin || c.finAckedTheirFin) = c.finAckedTheirFin := by
      have seen := same.finAckedTheirFin
      rw [unclosed] at seen
      split at seen <;> exact seen
    refine ⟨none, noFin, ?_, ?_⟩
    · intro fin
      rw [← noted, fin]
      rfl
    · rintro ⟨acked, seen⟩
      have closes : ((!c.finSent || seqGE c.sndUNA (c.finSeq + 1)) &&
          (seg.has tcpFin || c.finAckedTheirFin)) = true := by
        rw [noted, seen]
        simpa [finAcked] using acked
      rw [unclosed, if_pos closes, current] at kept
      cases kept
  | lastAck =>
    rintro ⟨ack, sent, acked⟩
    have ended : (c.handleState seg).state = .closed := by
      have closes : seqGE c.sndUNA (c.finSeq + 1) = true := acked
      simp [handleState, current, handleLastAck, ack, sent, closes]
    rw [ended, current] at kept
    cases kept

end TCPConn

/--
For an endpoint past LISTEN: an arriving segment moves its state, its receive
stream or its acknowledgement variables only if it comes from the recorded
peer, with the expected sequence number in a reset, exactly when it does come
from there or is inert.
-/
theorem moved_by_peer_only_iff {t : TCPStack} {src : IP4} {payload : Bytes} {seg : TCPSegment}
    (parsed : parseTCP payload = some seg) {c : TCPConn} (found : t.conns seg.dstPort = some c)
    (past : c.state ≠ .listen) :
    (∀ after, (t.handle src payload).conns seg.dstPort = some after → ¬ c.Untouched after →
        c.Authentic src seg) ↔ c.Authentic src seg ∨ c.Inert seg := by
  have handled : (t.handle src payload).conns seg.dstPort = some (c.handle seg) := by
    have unbound : c.bindPeer src seg = c := if_neg fun listens => past listens.1
    simp [TCPStack.handle, parsed, found, TCPStack.setConn, receive, unbound]
  constructor
  · intro moved
    by_cases untouched : c.Untouched (c.handle seg)
    · exact .inr (inert_of_untouched past untouched)
    · exact .inl (moved _ handled untouched)
  · rintro (authentic | inert) after reached touched
    · exact authentic
    · rw [handled, Option.some.injEq] at reached
      rw [← reached, handle_of_inert past inert] at touched
      exact absurd ⟨rfl, rfl, rfl, rfl, rfl⟩ touched

/-! ## A stranger's reset -/

def synAnswer : TCPSegment := ⟨80, 49152, 7, 1001, tcpSyn ||| tcpAck, 1024, []⟩

def openConn : TCPConn := (dialed 49152 2 80).receive 2 synAnswer

def openStack : TCPStack where
  conns := fun port => if port = 49152 then some openConn else none
  nextEphemeral := 49153

def strangerReset : TCPSegment := ⟨9, 49152, 12345, 0, tcpRst, 0, []⟩

/-- Host 3 closes the stream between two others. -/
theorem reset_by_stranger : parseTCP strangerReset.build = some strangerReset ∧
    openStack.conns strangerReset.dstPort = some openConn ∧ openConn.state = .established ∧
    openConn.remoteIP = 2 ∧ openConn.remotePort = 80 ∧ openConn.rcvNXT = 8 ∧
    ((openStack.handle 3 strangerReset.build).conns
      strangerReset.dstPort).map state = some .closed := by
  decide +kernel

def peerByte : TCPSegment := ⟨80, 49152, 8, 1001, tcpAck, 1024, [42]⟩

/-- A segment of the peer moves the endpoint. -/
theorem moved_by_peer : (¬ openConn.Untouched (openConn.handle peerByte)) ∧ ∀ after,
    (openStack.handle 2 peerByte.build).conns peerByte.dstPort = some after →
    ¬ openConn.Untouched after → openConn.Authentic 2 peerByte := by
  refine ⟨?_, (moved_by_peer_only_iff (by decide +kernel) (by decide +kernel)
    (by decide +kernel)).mpr (.inl ?_)⟩
  · intro same
    have stream := same.rcvBuf
    revert stream
    decide +kernel
  · exact ⟨by decide +kernel, by decide +kernel, by decide +kernel⟩

end KernelLane.Tcp
