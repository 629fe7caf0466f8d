import KernelLane.TcpActs
import Mathlib.Data.List.Infix

namespace KernelLane.Tcp

open List TCPConn

/-!
# What an endpoint hands to the link

The payloads on the wire, one behind the other, are the stream bytes that have
left the queue.  Every segment carries its place in that stream as its
sequence number, counted from the initial one; SYN stands before the stream
and FIN behind it, and nothing is sent after FIN.
-/

def payloads (packets : List (IP4 × Bytes)) : Bytes :=
  packets.flatMap fun packet => ((parseTCP packet.2).map TCPSegment.payload).getD []

/-- A segment of a stream that begins behind this initial number. -/
structure TCPSegment.Fits (iss : UInt32) (sent : Bytes) (ended : Bool)
    (seg : TCPSegment) : Prop where
  data : seg.payload ≠ [] → ∃ position, seg.seq = iss + 1 + UInt32.ofNat position ∧
    seg.payload <+: sent.drop position
  syn : seg.has tcpSyn = true → seg.seq = iss
  fin : seg.has tcpFin = true → seg.payload = [] ∧ ended = true ∧
    seg.seq = iss + 1 + UInt32.ofNat sent.length

/-- A stream only grows, and not behind its end. -/
structure Grows (sent : Bytes) (ended : Bool) (sentLater : Bytes) (endedLater : Bool) : Prop where
  longer : sent <+: sentLater
  final : ended = true → endedLater = true ∧ sentLater = sent

theorem Grows.refl (sent : Bytes) (ended : Bool) : Grows sent ended sent ended :=
  ⟨prefix_rfl, fun last => ⟨last, rfl⟩⟩

theorem Grows.trans {first second third : Bytes} {firstEnded secondEnded thirdEnded : Bool}
    (left : Grows first firstEnded second secondEnded)
    (right : Grows second secondEnded third thirdEnded) :
    Grows first firstEnded third thirdEnded where
  longer := left.longer.trans right.longer
  final := by
    intro last
    obtain ⟨still, same⟩ := left.final last
    obtain ⟨stillLater, sameLater⟩ := right.final still
    exact ⟨stillLater, sameLater.trans same⟩

theorem TCPSegment.Fits.grow {iss : UInt32} {sent sentLater : Bytes} {ended endedLater : Bool}
    {seg : TCPSegment} (fits : seg.Fits iss sent ended)
    (grows : Grows sent ended sentLater endedLater) : seg.Fits iss sentLater endedLater where
  data := by
    intro filled
    obtain ⟨position, seq, within⟩ := fits.data filled
    exact ⟨position, seq, within.trans (grows.longer.drop position)⟩
  syn := fits.syn
  fin := by
    intro flag
    obtain ⟨empty, last, seq⟩ := fits.fin flag
    obtain ⟨still, same⟩ := grows.final last
    exact ⟨empty, still, by rw [seq, same]⟩

/-- A FIN stands behind these stream bytes on the wire. -/
def FinBehind (stream : Bytes) (wire : List (IP4 × Bytes)) : Prop :=
  ∃ earlier packet rest seg, wire = earlier ++ packet :: rest ∧ parseTCP packet.2 = some seg ∧
    seg.has tcpFin = true ∧
    payloads earlier = stream

theorem FinBehind.append {stream : Bytes} {wire : List (IP4 × Bytes)}
    (behind : FinBehind stream wire) (more : List (IP4 × Bytes)) :
    FinBehind stream (wire ++ more) := by
  obtain ⟨earlier, packet, rest, seg, split, parsed, flag, whole⟩ := behind
  refine ⟨earlier, packet, rest ++ more, seg, ?_, parsed, flag, whole⟩
  rw [split, append_assoc, cons_append]

namespace TCPConn

def sent (c : TCPConn) : Bytes := payloads c.wire

def accepted (c : TCPConn) : Bytes := c.sent ++ c.sndBuf

def sentSegment (c : TCPConn) (flags : UInt8) (payload : Bytes) : TCPSegment :=
  { c.segment flags payload with flags := (c.segment flags payload).flags &&& flagBits }

theorem sent_sendLocked (c : TCPConn) (flags : UInt8) (payload : Bytes) :
    (c.sendLocked flags payload).sent = c.sent ++ payload := by
  simp [sent, sendLocked, payloads, parseTCP_build, segment]

/-- The flags that endpoints send. -/
def Sendable (flags : UInt8) : Prop :=
  flags = 0 ∨ flags = tcpAck ∨ flags = tcpFin ∨ flags = tcpSyn ∨ flags = tcpSyn ||| tcpAck

variable {flags : UInt8}

theorem sentSegment_flags (sendable : Sendable flags) (c : TCPConn) (payload : Bytes) :
    ((c.sentSegment flags payload).has tcpSyn = decide (flags &&& tcpSyn ≠ 0)) ∧
      (c.sentSegment flags payload).has tcpFin = decide (flags &&& tcpFin ≠ 0) := by
  simp only [sentSegment, segment, TCPSegment.has]
  rcases sendable with rfl | rfl | rfl | rfl | rfl <;>
  split <;>
  decide

/-- The send side of an endpoint, with its initial sequence number. -/
structure Sends (iss : UInt32) (c : TCPConn) : Prop where
  /-- A listener has not sent anything. -/
  fresh : c.state = .listen → c.wire = [] ∧
    c.sndNXT = iss ∧ c.finSent = false ∧ c.finPending = false
  next : c.state ≠ .listen → c.sndNXT =
    iss + 1 + UInt32.ofNat c.sent.length + if c.finSent then 1 else 0
  /-- After its FIN an endpoint has nothing left to send. -/
  done : c.finSent = true → c.sndBuf = [] ∧
    (c.state = .finWait ∨ c.state = .lastAck ∨ c.state = .closed)
  packets : ∀ {packet}, packet ∈ c.wire → ∃ seg,
    parseTCP packet.2 = some seg ∧ seg.Fits iss c.sent c.finSent
  /-- The FIN was sent behind the whole stream. -/
  last : c.finSent = true → FinBehind c.sent c.wire

/-- One step of the send side keeps everything accepted. -/
structure Moves (iss : UInt32) (before after : TCPConn) : Prop where
  sends : after.Sends iss
  grows : Grows before.sent before.finSent after.sent after.finSent
  accepted : after.accepted = before.accepted

variable {iss : UInt32} {cause : Option TCPSegment} {c after last : TCPConn}

theorem Moves.trans (first : Moves iss c after) (second : Moves iss after last) :
    Moves iss c last :=
  ⟨second.sends, first.grows.trans second.grows, second.accepted.trans first.accepted⟩

section

variable (sends : c.Sends iss)
include sends

theorem Sends.of_same (wire : after.wire = c.wire)
    (sndNXT : after.sndNXT = c.sndNXT) (finSent : after.finSent = c.finSent)
    (sndBuf : after.sndBuf = c.sndBuf) (opened : after.state = .listen → c.state = .listen)
    (left : c.state = .listen → after.state = .listen)
    (pending : after.state = .listen → after.finPending = c.finPending)
    (ended : c.finSent = true → after.state = .finWait ∨ after.state = .lastAck ∨
      after.state = .closed) : Moves iss c after := by
  have same : after.sent = c.sent := by rw [sent, sent, wire]
  refine ⟨⟨?_, ?_, ?_, ?_, ?_⟩, ?_, ?_⟩
  · intro listens
    obtain ⟨blank, start, unsent, unpending⟩ := sends.fresh (opened listens)
    exact ⟨wire.trans blank, sndNXT.trans start, finSent.trans unsent,
      (pending listens).trans unpending⟩
  · intro active
    rw [sndNXT, finSent, same]
    exact sends.next fun listens => active (left listens)
  · intro sentFin
    rw [finSent] at sentFin
    exact ⟨sndBuf.trans (sends.done sentFin).1, ended sentFin⟩
  · intro packet member
    rw [wire] at member
    rw [same, finSent]
    exact sends.packets member
  · intro sentFin
    rw [finSent] at sentFin
    rw [same, wire]
    exact sends.last sentFin
  · rw [same, finSent]
    exact .refl _ _
  · rw [accepted, accepted, same, sndBuf]

theorem Sends.aside (wire : after.wire = c.wire) (sndNXT : after.sndNXT = c.sndNXT)
    (finSent : after.finSent = c.finSent) (sndBuf : after.sndBuf = c.sndBuf)
    (state : after.state = c.state) (finPending : after.finPending = c.finPending) :
    Moves iss c after :=
  sends.of_same wire sndNXT finSent sndBuf (state ▸ id) (state ▸ id) (fun _ => finPending)
    fun ended => state ▸ (sends.done ended).2

theorem Sends.openEnd (going : ¬ (c.state = .finWait ∨ c.state = .lastAck ∨ c.state = .closed)) :
    c.finSent = false :=
  Bool.eq_false_iff.mpr fun ended => going (sends.done ended).2

theorem Sends.sendPlain (active : c.state ≠ .listen)
    (plain : flags = 0 ∨ flags = tcpAck) (payload : Bytes)
    (openEnd : payload ≠ [] → c.finSent = false) : (c.sendLocked flags payload).Sends iss ∧
      Grows c.sent c.finSent (c.sendLocked flags payload).sent
        (c.sendLocked flags payload).finSent := by
  have sendable : Sendable flags := plain.imp_right .inl
  obtain ⟨synFlag, finFlag⟩ := sentSegment_flags sendable c payload
  have bits : flags &&& (tcpSyn ||| tcpFin) = 0 ∧ flags &&& tcpSyn = 0 ∧ flags &&& tcpFin = 0 := by
    rcases plain with rfl | rfl <;> decide
  have stream := sent_sendLocked c flags payload
  have sameFin : (c.sendLocked flags payload).finSent = c.finSent := by
    simp [sendLocked, bits.2.2]
  have number := sends.next active
  have empty (ended : c.finSent = true) : payload = [] := by
    by_contra filled
    simp [openEnd filled] at ended
  have grows : Grows c.sent c.finSent (c.sendLocked flags payload).sent
      (c.sendLocked flags payload).finSent := by
    rw [stream, sameFin]
    exact ⟨prefix_append _ _, fun ended => ⟨ended, by simp [empty ended]⟩⟩
  refine ⟨⟨fun listens => absurd listens active, ?_, ?_, ?_, ?_⟩, grows⟩
  · intro _
    rw [stream, length_append]
    cases ended : c.finSent with
    | true =>
      rw [empty ended]
      simp [sendLocked, number, bits]
    | false => simp [sendLocked, number, bits, ended, UInt32.add_assoc]
  · rw [sameFin]
    exact sends.done
  · intro packet member
    simp only [sendLocked, mem_append, mem_singleton] at member
    rcases member with old | rfl
    · obtain ⟨seg, parsed, fits⟩ := sends.packets old
      exact ⟨seg, parsed, fits.grow grows⟩
    · refine ⟨c.sentSegment flags payload, parseTCP_build _, fun filled => ?_, ?_, ?_⟩
      · rw [openEnd filled] at number
        refine ⟨c.sent.length, by simpa [sentSegment, segment] using number, ?_⟩
        rw [stream, drop_left]
        exact prefix_rfl
      · simp [synFlag, bits]
      · simp [finFlag, bits]
  · rw [sameFin]
    intro ended
    rw [stream, empty ended, append_nil]
    exact (sends.last ended).append _

theorem Sends.sendFin (openEnd : c.finSent = false) (drained : c.sndBuf = [])
    (closing : c.state = .finWait ∨ c.state = .lastAck) : (c.sendLocked tcpFin []).Sends iss ∧
      Grows c.sent c.finSent (c.sendLocked tcpFin []).sent (c.sendLocked tcpFin []).finSent := by
  obtain ⟨synFlag, finFlag⟩ := sentSegment_flags (.inr (.inr (.inl rfl))) c []
  have active : c.state ≠ .listen := by rcases closing with state | state <;> simp [state]
  have stream := sent_sendLocked c tcpFin []
  rw [append_nil] at stream
  have nowEnded : (c.sendLocked tcpFin []).finSent = true := by
    rw [sendLocked, openEnd]
    rfl
  have number := sends.next active
  rw [openEnd] at number
  have grows : Grows c.sent c.finSent (c.sendLocked tcpFin []).sent
      (c.sendLocked tcpFin []).finSent := by
    rw [stream, openEnd]
    exact ⟨prefix_rfl, nofun⟩
  refine ⟨⟨fun listens => absurd listens active, ?_, ?_, ?_, ?_⟩, grows⟩
  · intro _
    have bits : tcpFin &&& (tcpSyn ||| tcpFin) ≠ 0 := by decide
    rw [stream, nowEnded]
    simp [sendLocked, number, bits]
  · exact fun _ => ⟨drained, closing.imp_right .inl⟩
  · intro packet member
    simp only [sendLocked, mem_append, mem_singleton] at member
    rcases member with old | rfl
    · obtain ⟨seg, parsed, fits⟩ := sends.packets old
      exact ⟨seg, parsed, fits.grow grows⟩
    · refine ⟨c.sentSegment tcpFin [], parseTCP_build _, fun filled => absurd rfl filled, ?_, ?_⟩
      · intro flag
        rw [synFlag] at flag
        exact absurd flag (by decide)
      · intro _
        refine ⟨rfl, nowEnded, ?_⟩
        rw [stream]
        simpa [sentSegment, segment] using number
  · intro _
    have flag : (c.sentSegment tcpFin []).has tcpFin = true := by
      rw [finFlag]
      decide
    rw [stream]
    exact ⟨c.wire, _, [], _, rfl, parseTCP_build _, flag, rfl⟩

/-! ## The operations of an endpoint -/

theorem Sends.sendAck (active : c.state ≠ .listen) : Moves iss c (c.sendLocked tcpAck []) := by
  obtain ⟨sendsAfter, grows⟩ := sends.sendPlain active (.inr rfl) [] fun filled => absurd rfl filled
  refine ⟨sendsAfter, grows, ?_⟩
  rw [accepted, sent_sendLocked, append_nil]
  rfl

theorem Sends.cutSegment (able : c.CanSend) : Moves iss c c.cutSegment := by
  have active : c.state ≠ .listen := by
    rw [able.1]
    decide
  have openEnd := sends.openEnd (by simp [able.1])
  have shortened : Sends iss { c with sndBuf := c.sndBuf.drop c.nextSize } :=
    ⟨sends.fresh, sends.next, by simp [openEnd], sends.packets, sends.last⟩
  obtain ⟨sendsAfter, grows⟩ :=
    shortened.sendPlain active (.inl rfl) (c.sndBuf.take c.nextSize) fun _ => openEnd
  refine ⟨sendsAfter, grows, ?_⟩
  rw [TCPConn.cutSegment, accepted, sent_sendLocked, accepted]
  simp [sendLocked, sent]

end

theorem Sends.opening (blank : c.wire = []) (start : c.sndNXT = iss) (unsent : c.finSent = false)
    (active : c.state ≠ .listen) (syn : flags = tcpSyn ∨ flags = tcpSyn ||| tcpAck) :
    (c.sendLocked flags []).Sends iss ∧ (c.sendLocked flags []).sent = [] := by
  have sendable : Sendable flags := by
    rcases syn with rfl | rfl
    · exact .inr (.inr (.inr (.inl rfl)))
    · exact .inr (.inr (.inr (.inr rfl)))
  have bits : flags &&& (tcpSyn ||| tcpFin) ≠ 0 := by rcases syn with rfl | rfl <;> decide
  have bit : flags &&& tcpFin = 0 := by rcases syn with rfl | rfl <;> decide
  have stream : (c.sendLocked flags []).sent = [] := by
    rw [sent_sendLocked, sent, blank]
    rfl
  have openEnd : (c.sendLocked flags []).finSent = false := by
    simp [sendLocked, unsent, bit]
  refine ⟨⟨?_, ?_, ?_, ?_, ?_⟩, stream⟩
  · intro listens
    exact absurd listens active
  · intro _
    rw [stream, openEnd]
    simp [sendLocked, start, bits]
  · intro ended
    exact absurd ended (by simp [openEnd])
  · intro packet member
    simp only [sendLocked, blank, nil_append, mem_singleton] at member
    subst member
    refine ⟨c.sentSegment flags [], parseTCP_build _, ?_, ?_, ?_⟩
    · intro filled
      exact absurd rfl filled
    · intro _
      exact start
    · intro flag
      rw [(sentSegment_flags sendable c []).2, bit] at flag
      simp at flag
  · intro ended
    exact absurd ended (by simp [openEnd])

theorem Sends.act (sends : c.Sends iss) (act : Act cause c after) : Moves iss c after := by
  have acked {turned : TCPConn} (moves : Moves iss c turned) (active : turned.state ≠ .listen) :
      Moves iss c (turned.sendLocked tcpAck []) :=
    moves.trans (moves.sends.sendAck active)
  cases act with
  | cut able => exact sends.cutSegment able
  | @fin _ _ state _ drained closing =>
    have final : state = .finWait ∨ state = .lastAck := closing.imp And.right And.right
    have openEnd : c.finSent = false := by
      refine sends.openEnd ?_
      rcases closing with ⟨current, _⟩ | ⟨current, _⟩ <;> simp [current]
    have turned : Moves iss c { c with state := state } := by
      refine sends.of_same rfl rfl rfl rfl ?_ ?_ (fun _ => rfl) (by simp [openEnd])
      · rcases final with rfl | rfl <;> simp
      · rcases closing with ⟨current, _⟩ | ⟨current, _⟩ <;> simp [current]
    obtain ⟨sendsAfter, grows⟩ := turned.sends.sendFin openEnd drained final
    refine turned.trans ⟨sendsAfter, grows, ?_⟩
    rw [accepted, sent_sendLocked, append_nil]
    rfl
  | pend going =>
    refine sends.of_same rfl rfl rfl rfl id id ?_ fun ended => (sends.done ended).2
    rcases going with state | state <;> simp [state]
  | bind | ack | note => exact sends.aside rfl rfl rfl rfl rfl rfl
  | payload streaming | takeFin streaming =>
    refine acked (sends.aside rfl rfl rfl rfl rfl rfl) ?_
    rcases streaming with state | state <;> simp [state]
  | @listen _ seg listens _ _ =>
    obtain ⟨blank, start, unsent, _⟩ := sends.fresh listens
    have nothing : c.sent = [] := by
      rw [sent, blank]
      rfl
    obtain ⟨opened, stream⟩ :=
      Sends.opening (c := { c with rcvNXT := seg.seq + 1, state := .synRcvd })
        blank start unsent (by simp) (.inr rfl)
    refine ⟨opened, ?_, ?_⟩
    · rw [stream, nothing]
      exact ⟨prefix_rfl, by simp [unsent]⟩
    · rw [accepted, accepted, stream, nothing]
      rfl
  | answer waiting _ _ =>
    have openEnd := sends.openEnd (by simp [waiting])
    exact acked (sends.of_same rfl rfl rfl rfl (by simp) (by simp [waiting]) (by simp)
      (by simp [openEnd])) (by simp)
  | complete waiting _ _ _ =>
    have openEnd := sends.openEnd (by simp [waiting])
    exact sends.of_same rfl rfl rfl rfl (by simp) (by simp [waiting]) (by simp) (by simp [openEnd])
  | leave streaming =>
    have openEnd := sends.openEnd (by simp [streaming])
    exact sends.of_same rfl rfl rfl rfl (by simp) (by simp [streaming]) (by simp) (by simp [openEnd])
  | finish ending =>
    refine sends.of_same rfl rfl rfl rfl (by simp) ?_ (by simp) (by simp)
    rcases ending with state | ⟨state, _⟩ <;> simp [state]
  | reset _ begun =>
    exact sends.of_same rfl rfl rfl rfl (by simp) (fun listens => absurd listens begun) (by simp)
      (by simp)

theorem Sends.acts (sends : c.Sends iss) (acts : Acts cause c after) : Moves iss c after :=
  acts.invariant (Moves iss c) (fun act moves => moves.trans (moves.sends.act act)) ⟨sends, .refl _ _, rfl⟩

theorem Sends.write (sends : c.Sends iss) {data : Bytes} (written : c.write data = some after) :
    after.Sends iss ∧ Grows c.sent c.finSent after.sent after.finSent ∧
      after.accepted = c.accepted ++ data := by
  obtain ⟨streaming, acts⟩ := write_acts written
  have openEnd := sends.openEnd (by simp [streaming])
  have queued : Sends iss { c with sndBuf := c.sndBuf ++ data } :=
    ⟨sends.fresh, sends.next, by simp [openEnd], sends.packets, sends.last⟩
  have moves := queued.acts acts
  refine ⟨moves.sends, moves.grows, moves.accepted.trans ?_⟩
  rw [accepted, accepted, append_assoc]
  rfl

theorem sends_listening (port : UInt16) : (listening port).Sends 0 := by
  refine ⟨fun _ => ⟨rfl, rfl, rfl, rfl⟩, ?_, ?_, ?_, ?_⟩
  · intro active
    exact absurd rfl active
  · intro ended
    cases ended
  · intro packet member
    cases member
  · intro ended
    cases ended

theorem sends_dialed (port : UInt16) (raddr : IP4) (rport : UInt16) :
    (dialed port raddr rport).Sends 1000 ∧ (dialed port raddr rport).sent = [] := by
  refine Sends.opening ?_ ?_ ?_ ?_ (.inl rfl)
  · rfl
  · rfl
  · rfl
  · intro listens
    cases listens

end TCPConn

/-! ## An end and its owner -/

/-- One end of a connection and what its owner has done with it. -/
structure Side where
  conn : TCPConn
  /-- The bytes that writes have accepted. -/
  written : Bytes
  /-- The bytes that reads have returned. -/
  returned : Bytes
  deriving DecidableEq, Repr

/-- What may happen to one end. -/
inductive SideOp where
  | write (data : Bytes)
  | recv (count : Nat)
  | close
  | segment (src : IP4) (seg : TCPSegment)
  deriving DecidableEq, Repr

/-- One step of one end; a call that fails changes nothing. -/
def SideOp.run (side : Side) : SideOp → Side
  | .write data =>
    match side.conn.write data with
    | none => side
    | some conn => { side with conn, written := side.written ++ data }
  | .recv count =>
    let (data, conn) := side.conn.recv count
    { side with conn, returned := side.returned ++ data }
  | .close =>
    match side.conn.close with
    | none => side
    | some conn => { side with conn }
  | .segment src seg => { side with conn := side.conn.receive src seg }

/-- An end that has just been opened, actively or passively. -/
def Side.Fresh (side : Side) : Prop :=
  side.written = [] ∧ side.returned = [] ∧ ((∃ port, side.conn = .listening port) ∨
    ∃ port raddr rport, side.conn = .dialed port raddr rport)

/-- The send side is in order and holds everything that was written. -/
structure Side.Keeps (iss : UInt32) (side : Side) : Prop where
  sends : side.conn.Sends iss
  accepted : side.conn.accepted = side.written

variable {side : Side}

theorem Side.Keeps.sent_le {iss : UInt32} (keeps : side.Keeps iss) :
    side.conn.sent <+: side.written := by
  rw [← keeps.accepted]
  exact prefix_append _ _

theorem Side.Keeps.run {iss : UInt32} (keeps : side.Keeps iss) (op : SideOp) :
    (op.run side).Keeps iss ∧ Grows side.conn.sent side.conn.finSent (op.run side).conn.sent
      (op.run side).conn.finSent := by
  have of_moves {conn : TCPConn} (returned : Bytes) (moves : TCPConn.Moves iss side.conn conn) :
      Side.Keeps iss ⟨conn, side.written, returned⟩ :=
    ⟨moves.sends, moves.accepted.trans keeps.accepted⟩
  cases op with
  | write data =>
    rw [SideOp.run]
    cases written : side.conn.write data with
    | none => exact ⟨keeps, .refl _ _⟩
    | some conn =>
      obtain ⟨sends, grows, accepted⟩ := keeps.sends.write written
      refine ⟨⟨sends, ?_⟩, grows⟩
      rw [accepted, keeps.accepted]
  | recv count =>
    have unchanged : TCPConn.Moves iss side.conn (side.conn.recv count).2 :=
      keeps.sends.aside rfl rfl rfl rfl rfl rfl
    exact ⟨of_moves _ unchanged, unchanged.grows⟩
  | close =>
    rw [SideOp.run]
    cases closed : side.conn.close with
    | none => exact ⟨keeps, .refl _ _⟩
    | some conn =>
      have moves := keeps.sends.acts (close_acts closed)
      exact ⟨of_moves _ moves, moves.grows⟩
  | segment src seg =>
    have moves := keeps.sends.acts (receive_acts _ src seg)
    exact ⟨of_moves _ moves, moves.grows⟩

theorem SideOp.written_run (op : SideOp) (side : Side) :
    side.written <+: (op.run side).written := by
  cases op with
  | write data =>
    rw [SideOp.run]
    cases side.conn.write data with
    | none => exact prefix_rfl
    | some conn => exact prefix_append _ _
  | recv | segment => exact prefix_rfl
  | close =>
    rw [SideOp.run]
    cases side.conn.close with
    | none | some => exact prefix_rfl

/-- A freshly opened end waits for the acknowledgement of its first number. -/
theorem Side.Fresh.keeps (fresh : side.Fresh) : ∃ iss, side.Keeps iss ∧ side.conn.sndUNA = iss := by
  obtain ⟨nothing, _, opened⟩ := fresh
  rcases opened with ⟨port, opened⟩ | ⟨port, raddr, rport, opened⟩
  · refine ⟨0, ⟨?_, ?_⟩, ?_⟩
    · rw [opened]
      exact sends_listening port
    · rw [opened, nothing]
      rfl
    · rw [opened]
      rfl
  · obtain ⟨sends, unsent⟩ := sends_dialed port raddr rport
    refine ⟨1000, ⟨?_, ?_⟩, ?_⟩
    · rw [opened]
      exact sends
    · rw [opened, nothing, accepted, unsent]
      rfl
    · rw [opened]
      rfl

end KernelLane.Tcp
