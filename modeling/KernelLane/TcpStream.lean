import KernelLane.TcpSender

namespace KernelLane.Tcp

open Function List TCPConn

/-!
# Two endpoints over a lossy link

Every segment that an endpoint has ever sent may arrive at the other at any
time, any number of times and in any order.  What an endpoint has received is
all the same a prefix of what its peer has sent: its receive number names the
place in the peer's stream where its own ends.
-/

/-! ## Places in a stream -/

theorem place_eq {base : UInt32} {first second : Nat}
    (same : base + UInt32.ofNat first = base + UInt32.ofNat second) (firstBound : first < 2 ^ 32)
    (secondBound : second < 2 ^ 32) : first = second := by
  rw [UInt32.add_right_inj] at same
  have numbers := congrArg UInt32.toNat same
  simp only [UInt32.toNat_ofNat'] at numbers
  omega

theorem continue_stream {stream part whole : Bytes} (arrived : stream <+: whole)
    (next : part <+: whole.drop stream.length) : stream ++ part <+: whole := by
  obtain ⟨rest, rfl⟩ := arrived
  rw [drop_left] at next
  exact (prefix_append_right_inj stream).mpr next

namespace TCPConn

/-- The stream number of an endpoint counts what it has received. -/
def Counts (c : TCPConn) : Prop := c.state = .synRcvd ∨ c.state = .established ∨ c.state = .finWait

/-- No peer has been found yet. -/
def Unopened (c : TCPConn) : Prop := c.state = .listen ∨ c.state = .synSent

/--
The receive side of an endpoint: what has been returned and what is still
buffered is a prefix of the peer's stream, and the next expected number is its
end.
-/
structure Receives (peerIss : UInt32) (sent : Bytes) (ended : Bool) (returned : Bytes)
    (c : TCPConn) : Prop where
  arrived : returned ++ c.rcvBuf <+: sent
  unopened : c.Unopened → returned ++ c.rcvBuf = []
  next : c.Counts → ∃ past : Bool, c.rcvNXT = peerIss + 1 +
      UInt32.ofNat ((returned ++ c.rcvBuf).length + past.toNat) ∧
    (past = true → ended = true ∧ returned ++ c.rcvBuf = sent)

variable {peerIss : UInt32} {sent sentLater returned : Bytes} {ended endedLater : Bool}
  {cause : Option TCPSegment} {c after : TCPConn} {seg : TCPSegment}

section

variable (receives : c.Receives peerIss sent ended returned)
include receives

theorem Receives.grow (grows : Grows sent ended sentLater endedLater) :
    c.Receives peerIss sentLater endedLater returned where
  arrived := receives.arrived.trans grows.longer
  unopened := receives.unopened
  next := by
    intro counts
    obtain ⟨past, number, last⟩ := receives.next counts
    refine ⟨past, number, fun isPast => ?_⟩
    obtain ⟨isEnded, whole⟩ := last isPast
    obtain ⟨still, same⟩ := grows.final isEnded
    exact ⟨still, whole.trans same.symm⟩

theorem Receives.of_same (rcvBuf : after.rcvBuf = c.rcvBuf) (rcvNXT : after.rcvNXT = c.rcvNXT)
    (unopened : after.Unopened → c.Unopened) (counts : after.Counts → c.Counts) :
    after.Receives peerIss sent ended returned where
  arrived := by
    rw [rcvBuf]
    exact receives.arrived
  unopened := by
    rw [rcvBuf]
    exact fun current => receives.unopened (unopened current)
  next := by
    rw [rcvBuf, rcvNXT]
    exact fun current => receives.next (counts current)

theorem Receives.stop (rcvBuf : after.rcvBuf = c.rcvBuf)
    (stopped : after.state = .closeWait ∨ after.state = .lastAck ∨ after.state = .closed) :
    after.Receives peerIss sent ended returned where
  arrived := by
    rw [rcvBuf]
    exact receives.arrived
  unopened := by rcases stopped with state | state | state <;> simp [Unopened, state]
  next := by rcases stopped with state | state | state <;> simp [Counts, state]

/--
Payload in order is the next part of the peer's stream: the segment and the
receive number name the same place.
-/
theorem Receives.acceptPayload
    (fits : seg.Fits peerIss sent ended) (bound : sent.length < 2 ^ 31) (counts : c.Counts)
    (inOrder : c.PayloadInOrder seg) : Receives peerIss sent ended returned ({ c with
        rcvBuf := c.rcvBuf ++ seg.payload
        rcvNXT := c.rcvNXT + UInt32.ofNat seg.payload.length }.sendLocked tcpAck []) := by
  obtain ⟨filled, seq⟩ := inOrder
  obtain ⟨position, place, part⟩ := fits.data (ne_nil_of_length_pos filled)
  obtain ⟨past, number, last⟩ := receives.next counts
  have within := part.length_le
  rw [length_drop] at within
  have short := receives.arrived.length_le
  have past_lt : past.toNat < 2 := Bool.toNat_lt past
  have here : position = (returned ++ c.rcvBuf).length + past.toNat :=
    place_eq (place.symm.trans (seq.trans number)) (by omega) (by omega)
  have notPast : past = false := by
    by_contra isPast
    rw [Bool.not_eq_false] at isPast
    have whole := (last isPast).2
    rw [whole] at here
    omega
  subst notPast
  rw [here] at part
  have longer := continue_stream receives.arrived part
  rw [append_assoc] at longer
  refine ⟨longer, ?_, ?_⟩
  · intro unopened
    rcases counts with state | state | state <;>
    simp [Unopened, TCPConn.sendLocked, state] at unopened
  · intro _
    refine ⟨false, ?_, by simp⟩
    simp only [TCPConn.sendLocked]
    rw [number]
    simp [UInt32.add_assoc]

theorem Receives.acceptFin
    (fits : seg.Fits peerIss sent ended) (bound : sent.length < 2 ^ 31) (counts : c.Counts)
    (inOrder : c.finInOrder seg = true) : Receives peerIss sent ended returned
      ({ c with rcvNXT := c.rcvNXT + 1 }.sendLocked tcpAck []) := by
  rw [finInOrder, Bool.and_eq_true, decide_eq_true_eq] at inOrder
  obtain ⟨flag, seq⟩ := inOrder
  obtain ⟨empty, isEnded, place⟩ := fits.fin flag
  obtain ⟨past, number, last⟩ := receives.next counts
  have short := receives.arrived.length_le
  have past_lt : past.toNat < 2 := Bool.toNat_lt past
  have here : sent.length = (returned ++ c.rcvBuf).length + past.toNat := by
    rw [empty] at seq
    simp only [length_nil, UInt32.reduceOfNat, UInt32.add_zero] at seq
    exact place_eq (place.symm.trans (seq.trans number)) (by omega) (by omega)
  have notPast : past = false := by
    by_contra isPast
    rw [Bool.not_eq_false] at isPast
    have whole := (last isPast).2
    rw [whole, isPast] at here
    simp at here
  subst notPast
  have whole : returned ++ c.rcvBuf = sent :=
    receives.arrived.eq_of_length (by simpa using here.symm)
  refine ⟨receives.arrived, ?_, ?_⟩
  · intro unopened
    rcases counts with state | state | state <;>
    simp [Unopened, TCPConn.sendLocked, state] at unopened
  · intro _
    refine ⟨true, ?_, fun _ => ⟨isEnded, whole⟩⟩
    simp only [TCPConn.sendLocked]
    rw [number]
    simp [UInt32.add_assoc]

/-! ## Arriving segments -/

theorem Receives.opened (unopened : c.Unopened)
    (rcvBuf : after.rcvBuf = c.rcvBuf) (rcvNXT : after.rcvNXT = peerIss + 1) :
    after.Receives peerIss sent ended returned := by
  have nothing := receives.unopened unopened
  refine ⟨?_, ?_, ?_⟩
  · rw [rcvBuf]
    exact receives.arrived
  · intro _
    rw [rcvBuf]
    exact nothing
  · intro _
    refine ⟨false, ?_, by simp⟩
    rw [rcvBuf, nothing, rcvNXT]
    simp

/-- Every act keeps the stream a prefix; the segments are those of the peer. -/
theorem Receives.act (fits : ∀ seg ∈ cause, seg.Fits peerIss sent ended)
    (bound : sent.length < 2 ^ 31) (act : Act cause c after) :
    after.Receives peerIss sent ended returned := by
  have opened {seg : TCPSegment} (caused : seg ∈ cause) (syn : seg.has tcpSyn = true) :
      seg.seq + 1 = peerIss + 1 := by rw [(fits seg caused).syn syn]
  cases act with
  | cut | pend | bind | ack | note => exact receives.of_same rfl rfl id id
  | fin _ _ closing =>
    rcases closing with ⟨streaming, rfl⟩ | ⟨_, rfl⟩
    · exact receives.of_same rfl rfl (by simp [Unopened, sendLocked]) fun _ => .inr (.inl streaming)
    · exact receives.stop rfl (.inr (.inl rfl))
  | payload streaming inOrder => exact receives.acceptPayload (fits _ rfl) bound (.inr streaming) inOrder
  | takeFin streaming inOrder => exact receives.acceptFin (fits _ rfl) bound (.inr streaming) inOrder
  | listen listens syn _ => exact receives.opened (.inl listens) rfl (opened rfl syn)
  | answer waiting syn _ => exact receives.opened (.inr waiting) rfl (opened rfl syn)
  | complete waiting _ _ _ =>
    exact receives.of_same rfl rfl (by simp [Unopened]) fun _ => .inl waiting
  | leave _ => exact receives.stop rfl (.inl rfl)
  | finish | reset => exact receives.stop rfl (.inr (.inr rfl))

theorem Receives.acts (fits : ∀ seg ∈ cause, seg.Fits peerIss sent ended)
    (bound : sent.length < 2 ^ 31) (acts : Acts cause c after) :
    after.Receives peerIss sent ended returned :=
  acts.invariant (Receives peerIss sent ended returned)
    (fun act current => current.act fits bound act) receives

theorem Receives.recv (count : Nat) :
    (c.recv count).2.Receives peerIss sent ended (returned ++ (c.recv count).1) := by
  have same : returned ++ (c.recv count).1 ++ (c.recv count).2.rcvBuf = returned ++ c.rcvBuf := by
    simp [TCPConn.recv]
  refine ⟨?_, ?_, ?_⟩
  · rw [same]
    exact receives.arrived
  · rw [same]
    exact receives.unopened
  · rw [same]
    exact receives.next

end

end TCPConn

/-! ## The two ends -/

/-- Both ends. -/
abbrev Ends := Bool → Side

/-- What may happen to two ends. -/
inductive EndOp where
  | write (who : Bool) (data : Bytes)
  | recv (who : Bool) (count : Nat)
  | close (who : Bool)
  /-- The link delivers something that the other end has sent at some time,
  from some address. -/
  | deliver (who : Bool) (src : IP4) (index : Nat)
  deriving DecidableEq, Repr

/-- The end that an operation is about and what happens there; a delivery of
something that was never sent is none. -/
def EndOp.target (ends : Ends) : EndOp → Option (Bool × SideOp)
  | .write who data => some (who, .write data)
  | .recv who count => some (who, .recv count)
  | .close who => some (who, .close)
  | .deliver who src index =>
    ((ends !who).conn.wire[index]?.bind fun packet =>
      parseTCP packet.2).map fun seg => (who, .segment src seg)

def EndOp.run (ends : Ends) (op : EndOp) : Ends :=
  match op.target ends with
  | none => ends
  | some (who, step) => update ends who (step.run (ends who))

def Ends.after (ends : Ends) (ops : List EndOp) : Ends := ops.foldl EndOp.run ends

/-- Both ends are in order. -/
structure Ends.Joined (iss : Bool → UInt32) (ends : Ends) : Prop where
  keeps : ∀ who, (ends who).Keeps (iss who)
  receives : ∀ who, (ends who).conn.Receives (iss !who) (ends !who).conn.sent
    (ends !who).conn.finSent (ends who).returned

variable {iss : Bool → UInt32} {ends : Ends}

theorem Ends.Joined.update (joined : ends.Joined iss) {who : Bool} {side : Side}
    (keeps : side.Keeps (iss who))
    (grows : Grows (ends who).conn.sent (ends who).conn.finSent side.conn.sent side.conn.finSent)
    (receives : side.conn.Receives (iss !who) (ends !who).conn.sent
      (ends !who).conn.finSent side.returned) : Ends.Joined iss (update ends who side) := by
  have other : (!who) ≠ who := by simp
  refine ⟨fun which => ?_, fun which => ?_⟩
  · by_cases same : which = who
    · subst same
      rw [update_self]
      exact keeps
    · rw [update_of_ne same]
      exact joined.keeps which
  · by_cases same : which = who
    · subst same
      rw [update_self, update_of_ne other]
      exact receives
    have opposite : (!which) = who := by cases which <;> cases who <;> simp_all
    rw [update_of_ne same, opposite, update_self]
    have current := joined.receives which
    rw [opposite] at current
    exact current.grow grows

theorem Ends.Joined.segment_fits (joined : ends.Joined iss) {op : EndOp} {who : Bool} {src : IP4}
    {seg : TCPSegment} (targeted : op.target ends = some (who, .segment src seg)) :
    seg.Fits (iss !who) (ends !who).conn.sent (ends !who).conn.finSent := by
  cases op with
  | write | recv | close => simp [EndOp.target] at targeted
  | deliver which src index =>
    rw [EndOp.target, Option.map_eq_some_iff] at targeted
    obtain ⟨found, arrived, same⟩ := targeted
    cases same
    rw [Option.bind_eq_some_iff] at arrived
    obtain ⟨packet, onWire, parsed⟩ := arrived
    obtain ⟨sentSeg, parsedSent, fits⟩ := (joined.keeps !who).sends.packets (mem_of_getElem? onWire)
    rw [parsed, Option.some.injEq] at parsedSent
    rw [parsedSent]
    exact fits

theorem Ends.Joined.run (joined : ends.Joined iss)
    (short : ∀ who, (ends who).written.length < 2 ^ 31) (op : EndOp) :
    (op.run ends).Joined iss := by
  rw [EndOp.run]
  cases targeted : op.target ends with
  | none => exact joined
  | some step =>
    obtain ⟨who, step⟩ := step
    obtain ⟨keeps, grows⟩ := (joined.keeps who).run step
    refine joined.update keeps grows ?_
    have receives := joined.receives who
    have bound : (ends !who).conn.sent.length < 2 ^ 31 :=
      (joined.keeps !who).sent_le.length_le.trans_lt (short !who)
    cases step with
    | write data =>
      rw [SideOp.run]
      cases written : (ends who).conn.write data with
      | none => exact receives
      | some conn =>
        have queued : TCPConn.Receives (iss !who) (ends !who).conn.sent (ends !who).conn.finSent
            (ends who).returned
            { (ends who).conn with sndBuf := (ends who).conn.sndBuf ++ data } :=
          receives.of_same rfl rfl id id
        exact queued.acts (by simp) bound (write_acts written).2
    | recv count => exact receives.recv count
    | close =>
      rw [SideOp.run]
      cases closed : (ends who).conn.close with
      | none => exact receives
      | some conn => exact receives.acts (by simp) bound (close_acts closed)
    | segment src seg =>
      have fits := joined.segment_fits targeted
      exact receives.acts (by simpa using fits) bound (receive_acts _ src seg)

theorem EndOp.written_run (op : EndOp) (ends : Ends) (who : Bool) :
    (ends who).written <+: (op.run ends who).written := by
  rw [EndOp.run]
  cases op.target ends with
  | none => exact prefix_rfl
  | some step =>
    by_cases same : who = step.1
    · subst same
      simp only [update_self]
      exact step.2.written_run _
    · simp only [update_of_ne same]
      exact prefix_rfl

theorem Ends.written_after (ops : List EndOp) (ends : Ends) (who : Bool) :
    (ends who).written <+: (ends.after ops who).written := by
  induction ops generalizing ends with
  | nil => exact prefix_rfl
  | cons op ops hypothesis => exact (op.written_run ends who).trans (hypothesis _)

theorem Ends.Joined.after (joined : ends.Joined iss) (ops : List EndOp)
    (short : ∀ who, (ends.after ops who).written.length < 2 ^ 31) :
    (ends.after ops).Joined iss := by
  induction ops generalizing ends with
  | nil => exact joined
  | cons op ops hypothesis =>
    have shortNow (who : Bool) : (ends who).written.length < 2 ^ 31 :=
      (ends.written_after (op :: ops) who).length_le.trans_lt (short who)
    exact hypothesis (joined.run shortNow op) short

theorem Side.Fresh.receives {side : Side} (fresh : side.Fresh) (peerIss : UInt32) (sent : Bytes)
    (ended : Bool) : side.conn.Receives peerIss sent ended side.returned := by
  obtain ⟨_, nothing, opened⟩ := fresh
  rw [nothing]
  rcases opened with ⟨port, opened⟩ | ⟨port, raddr, rport, opened⟩
  · rw [opened]
    refine ⟨List.nil_prefix, fun _ => rfl, ?_⟩
    simp [TCPConn.Counts, listening]
  · rw [opened]
    refine ⟨List.nil_prefix, fun _ => rfl, ?_⟩
    simp [TCPConn.Counts, dialed, sendLocked]

theorem Ends.joined_of_fresh (fresh : ∀ who, (ends who).Fresh) : ∃ iss, ends.Joined iss := by
  choose iss keeps _ using fun who => (fresh who).keeps
  exact ⟨iss, keeps, fun who => (fresh who).receives _ _ _⟩

/--
Whatever the link does with the segments of two ends, and whatever their
owners do, an end has at every moment returned a prefix of what was written to
the other.
-/
theorem returned_within_written (fresh : ∀ who, (ends who).Fresh) (ops : List EndOp)
    (short : ∀ who, (ends.after ops who).written.length < 2 ^ 31) (who : Bool) :
    (ends.after ops who).returned <+: (ends.after ops !who).written := by
  obtain ⟨iss, start⟩ := Ends.joined_of_fresh fresh
  have joined := start.after ops short
  calc
    (ends.after ops who).returned
    _ <+: (ends.after ops who).returned ++ (ends.after ops who).conn.rcvBuf := prefix_append _ _
    _ <+: (ends.after ops !who).conn.sent := (joined.receives who).arrived
    _ <+: (ends.after ops !who).written := (joined.keeps !who).sent_le

def freshEnds : Ends := fun who =>
  if who then ⟨.listening 80, [], []⟩ else ⟨.dialed 49152 2 80, [], []⟩

/-- A handshake, two writes, and their segments in the wrong order and
repeatedly. -/
def reordered : List EndOp :=
  [.deliver true 1 0, .deliver false 2 0, .deliver true 1 1, .write false [7, 8, 9],
    .write false [10], .deliver true 1 3, .deliver true 1 2, .deliver true 1 2, .deliver true 1 3,
    .recv true 2, .close false]

/-- The reader of such a run has the first two bytes. -/
theorem reordered_returned : (freshEnds.after reordered true).returned = [7, 8] ∧
    (freshEnds.after reordered false).written = [7, 8, 9, 10] ∧
    (freshEnds.after reordered true).returned <+: (freshEnds.after reordered !true).written := by
  refine ⟨by decide +kernel, by decide +kernel, ?_⟩
  refine returned_within_written ?_ reordered ?_ true
  · intro who
    refine ⟨by cases who <;> rfl, by cases who <;> rfl, ?_⟩
    cases who with
    | false => exact .inr ⟨49152, 2, 80, rfl⟩
    | true => exact .inl ⟨80, rfl⟩
  · intro who
    cases who <;> decide +kernel

end KernelLane.Tcp
