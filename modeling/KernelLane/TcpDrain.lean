import KernelLane.TcpWindow

namespace KernelLane.Tcp

open List TCPConn SideOp

/-!
# Draining the queue

What a step does to the queue of an end, its bytes in flight and its FIN.  An
open stream whose window is full sends more at the next acknowledgement; a
stream whose queue is empty sends a requested FIN when everything in flight is
acknowledged.  A peer that closes its own direction takes the end to
CLOSE-WAIT, where the queue is not flushed any more.
-/

namespace TCPConn

variable {c after : TCPConn} {seg : TCPSegment}

theorem trySendFinLocked_queue (c : TCPConn) : c.trySendFinLocked.sndBuf = c.sndBuf ∧
    c.trySendFinLocked.sent = c.sent := by
  unfold trySendFinLocked
  split
  · exact ⟨rfl, rfl⟩
  split
  · refine ⟨rfl, ?_⟩
    rw [sent_sendLocked, append_nil]
    rfl
  · refine ⟨rfl, ?_⟩
    rw [sent_sendLocked, append_nil]
    rfl
  · exact ⟨rfl, rfl⟩

theorem processAck_state_of_filled (filled : (c.processAck seg).sndBuf ≠ []) :
    (c.processAck seg).state = c.state := by
  unfold processAck at filled ⊢
  split at filled
  next new =>
    rw [if_pos new]
    rw [(trySendFinLocked_queue _).1] at filled
    rw [trySendFinLocked, if_pos (.inr (.inl (length_pos_iff.mpr filled)))]
    split
    · exact (flushLocked_frame _).2
    · rfl
  next old => rw [if_neg old]

/-- Once the handshake is under way a segment first acts as an
acknowledgement, and the rest of it is quiet. -/
theorem handle_quiet (steady : seg.has tcpRst = false) (begun : c.state ≠ .listen)
    (answered : c.state ≠ .synSent) : Quiet (c.processAck seg) (c.handle seg) ∧
      Turns (c.processAck seg).state (c.handle seg).state := by
  have ackBegun : (c.processAck seg).state ≠ .listen ∧ (c.processAck seg).state ≠ .synSent := by
    rcases processAck_state c seg with same | ⟨_, final | final⟩
    · rw [same]
      exact ⟨begun, answered⟩
    · simp [final]
    · simp [final]
  obtain ⟨quiet, turns⟩ := handleState_quiet (c.processAck seg) seg ackBegun.1 ackBegun.2
  unfold handle
  rw [if_neg (by simp [steady])]
  dsimp only
  split
  · refine ⟨quiet.trans (quiet_acceptPayload _ seg), ?_⟩
    rw [acceptPayload_state]
    exact turns
  · exact ⟨quiet, turns⟩

theorem Open.begun (open_ : c.Open) : c.state ≠ .listen ∧ c.state ≠ .synSent := by
  rcases open_ with state | state <;> simp [state]

theorem late_of_turns (turns : Turns c.state after.state) (late : c.Late) : after.Late := by
  rcases turns with turn | ⟨was, _⟩ | ⟨was, _⟩ | ⟨_, turn⟩
  · rwa [Late, turn]
  · simp [Late, was] at late
  · simp [Late, was] at late
  · exact .inr (.inr turn)

theorem open_of_turns (turns : Turns c.state after.state) (open_ : c.Open) : after.Open := by
  rcases turns with turn | ⟨_, turn⟩ | ⟨_, turn⟩ | ⟨was, _⟩
  · rwa [Open, turn]
  · exact .inl turn
  · exact .inr turn
  · rcases was with was | was <;> simp [Open, was] at open_

theorem handle_closeWait_iff (steady : seg.has tcpRst = false)
    (streaming : c.state = .established) :
    (c.handle seg).state = .closeWait ↔ (c.processAck seg).state = .established ∧
      ((c.processAck seg).acceptPayload seg).finInOrder seg = true := by
  rcases processAck_state c seg with same | ⟨_, final⟩
  · have still := same.trans streaming
    unfold handle
    rw [if_neg (by simp [steady])]
    unfold handleState handleEstablished
    simp only [still]
    by_cases fin : ((c.processAck seg).acceptPayload seg).finInOrder seg
    · simp [fin]
    · simp [fin, acceptPayload_state, still]
  · obtain ⟨_, turns⟩ := handle_quiet (c := c) steady (by simp [streaming]) (by simp [streaming])
    rcases final with final | final <;>
    rw [final] at turns ⊢ <;>
    simp only [Turns, reduceCtorEq, false_and, false_or] at turns <;>
    rcases turns with turn | turn <;>
    simp [turn]

/-- A segment with a FIN that is next in order, with its payload or after
it. -/
theorem finInOrder_acceptPayload (c : TCPConn) (seg : TCPSegment) :
    (c.acceptPayload seg).finInOrder seg = true ↔ seg.has tcpFin = true ∧ (seg.seq = c.rcvNXT ∨
      seg.seq + UInt32.ofNat seg.payload.length = c.rcvNXT) := by
  rw [finInOrder, Bool.and_eq_true, decide_eq_true_eq, and_congr_right_iff]
  intro _
  unfold acceptPayload
  by_cases inOrder : c.PayloadInOrder seg
  · rw [if_pos inOrder]
    simp [sendLocked, inOrder.2]
  rw [if_neg inOrder]
  constructor
  · exact .inr
  · rintro (here | later)
    · have empty : seg.payload = [] := by
        by_contra filled
        exact inOrder ⟨length_pos_iff.mpr filled, here⟩
      simpa [empty] using here
    · exact later

/-- The queue stays filled when an acknowledgement arrives. -/
def StaysFilled (c : TCPConn) (seg : TCPSegment) : Prop :=
  c.sndBuf ≠ [] ∧ (c.acknowledges seg = true → tcpWindowCap < c.sndBuf.length +
    (c.inFlight.length - (seg.ack - c.sndUNA).toNat))

/-- Acknowledgements on an open stream leave a part of the queue exactly when
it does not fit into the opened window. -/
theorem Windowed.processAck_filled_iff (windowed : c.Windowed)
    (streaming : c.state = .established) : (c.processAck seg).sndBuf ≠ [] ↔ c.StaysFilled seg := by
  unfold TCPConn.processAck StaysFilled
  by_cases new : c.acknowledges seg = true
  · obtain ⟨flying, flight, _, _⟩ := windowed.flying.openWindow new
    have still : (c.openWindow seg.ack).state = .established := streaming
    rw [if_pos new]
    dsimp only
    rw [if_pos still, (trySendFinLocked_queue _).1, ne_eq,
      flushLocked_empty_iff flying still, Nat.not_le, flight]
    have queue : (c.openWindow seg.ack).sndBuf = c.sndBuf := rfl
    have room := windowed.flying.room
    rw [queue]
    constructor
    · intro exceeds
      refine ⟨?_, fun _ => exceeds⟩
      intro empty
      rw [empty, length_nil] at exceeds
      omega
    · exact fun filled => filled.2 new
  · simp [new]

theorem processAck_queue (notStreaming : c.state ≠ .established) (seg : TCPSegment) :
    (c.processAck seg).sndBuf = c.sndBuf ∧ (c.processAck seg).sent = c.sent := by
  unfold processAck
  split
  · have still : (c.openWindow seg.ack).state ≠ .established := notStreaming
    dsimp only
    rw [if_neg still]
    exact trySendFinLocked_queue _
  · exact ⟨rfl, rfl⟩

theorem Windowed.processAck_sends (windowed : c.Windowed) (streaming : c.state = .established)
    (filled : c.sndBuf ≠ []) (new : c.acknowledges seg = true) :
    c.sent.length < (c.processAck seg).sent.length := by
  obtain ⟨_, flight, _, positive⟩ := windowed.flying.openWindow new
  have room := windowed.flying.room
  have queued := length_pos_iff.mpr filled
  have still : (c.openWindow seg.ack).state = .established := streaming
  have able : (c.openWindow seg.ack).CanSend := by
    refine ⟨still, queued, ?_⟩
    have cap : 0 < tcpWindowCap := by decide
    omega
  have sends := flushLocked_sends able
  unfold TCPConn.processAck
  rw [if_pos new]
  dsimp only
  rw [if_pos still, (trySendFinLocked_queue _).2]
  exact sends

theorem processAck_of_empty (empty : c.sndBuf = []) (new : c.acknowledges seg = true) :
    c.processAck seg = (c.openWindow seg.ack).trySendFinLocked := by
  have unable : ¬ (c.openWindow seg.ack).CanSend := by
    intro able
    have queued := able.2.1
    have queue : (c.openWindow seg.ack).sndBuf = c.sndBuf := rfl
    rw [queue, empty] at queued
    simp at queued
  unfold processAck
  rw [if_pos new]
  dsimp only
  rw [flushLocked_of_idle unable, ite_self]

theorem processAck_drained (empty : c.sndBuf = []) (seg : TCPSegment) : (c.processAck seg).Late ∨
    (c.processAck seg).sndNXT = c.sndNXT ∧ (c.processAck seg).state = c.state ∧
      (c.processAck seg).sndBuf = [] ∧ (c.processAck seg).finPending = c.finPending := by
  by_cases new : c.acknowledges seg = true
  · rw [processAck_of_empty empty new]
    rcases trySendFinLocked_state (c.openWindow seg.ack) with
      kept | ⟨_, final | final⟩
    · rw [kept]
      exact .inr ⟨rfl, rfl, empty, rfl⟩
    · exact .inl (.inl final)
    · exact .inl (.inr (.inl final))
  · unfold processAck
    rw [if_neg new]
    exact .inr ⟨rfl, rfl, empty, rfl⟩

theorem Windowed.processAck_sendsFin (windowed : c.Windowed) (open_ : c.Open)
    (empty : c.sndBuf = []) (pending : c.finPending = true) (flag : seg.has tcpAck = true)
    (next : seg.ack = c.sndNXT) : (c.processAck seg).Late := by
  have flight : c.inFlight ≠ [] := by
    rcases windowed.closing pending open_ with filled | flight
    · exact absurd empty filled
    · exact flight
  have least := windowed.flying.least
  have out : 0 < c.outstanding := (length_pos_iff.mpr flight).trans_le least
  have new := acknowledges_next out (windowed.flying.short.trans (by decide)) flag next
  obtain ⟨_, left, sum, _⟩ := windowed.flying.openWindow new
  have landed : (c.openWindow seg.ack).inFlight = [] := by
    have none : (c.openWindow seg.ack).outstanding = 0 := by
      rw [next]
      change (c.sndNXT - c.sndNXT).toNat = 0
      rw [UInt32.sub_self]
      rfl
    rw [← length_eq_zero_iff]
    omega
  have free : ¬ ((c.openWindow seg.ack).finPending = false ∨
      0 < (c.openWindow seg.ack).sndBuf.length ∨
      0 < (c.openWindow seg.ack).inFlight.length) := by
    rw [landed]
    simp [openWindow, pending, empty]
  rw [processAck_of_empty empty new]
  unfold trySendFinLocked
  rw [if_neg free]
  rcases open_ with state | state
  · have same : (c.openWindow seg.ack).state = .established := state
    rw [same]
    exact .inl rfl
  · have same : (c.openWindow seg.ack).state = .closeWait := state
    rw [same]
    exact .inr (.inl rfl)

theorem handle_early (steady : seg.has tcpRst = false)
    (early : c.state = .listen ∨ c.state = .synSent) : (c.handle seg).state ≠ .closeWait := by
  have same : (c.processAck seg).state = c.state := by
    rcases processAck_state c seg with same | ⟨open_, _⟩
    · exact same
    · rcases early with state | state <;> simp [Open, state] at open_
  have moved : ((c.processAck seg).handleState seg).state ≠ .closeWait := by
    unfold handleState
    rcases early with state | state
    · rw [same, state]
      dsimp only
      unfold handleListen
      split
      · simp [sendLocked]
      · simp [same, state]
    · rw [same, state]
      dsimp only
      unfold handleSynSent
      split
      · rw [(flushLocked_frame _).2]
        simp [sendLocked]
      · simp [same, state]
  unfold handle
  rw [if_neg (by simp [steady])]
  dsimp only
  split
  · rw [acceptPayload_state]
    exact moved
  · exact moved

theorem close_of_open (open_ : c.Open) (idle : ¬ c.CanSend) :
    c.close = some { c with finPending := true }.trySendFinLocked := by
  unfold close
  split
  · rw [flushLocked_of_idle idle]
  · rfl
  next state => simp [Open, state] at open_
  next notStreaming notWaiting _ =>
    rcases open_ with state | state
    · exact absurd state notStreaming
    · exact absurd state notWaiting

theorem close_pending (pending : c.finPending = true) (closed : c.close = some after) :
    after.finPending = true := by
  unfold close at closed
  split at closed
  · cases closed
    rw [(trySendFinLocked_frame _).finPending]
  · cases closed
    rw [(trySendFinLocked_frame _).finPending]
  · cases closed
    exact pending
  · cases closed

theorem Windowed.begun_of_pending (windowed : c.Windowed) (pending : c.finPending = true) :
    c.state ≠ .listen ∧ c.state ≠ .synSent := by
  constructor
  · intro state
    simp [windowed.early (.inl state)] at pending
  · intro state
    simp [windowed.early (.inr (.inl state))] at pending

theorem processAck_kept (c : TCPConn) (seg : TCPSegment) : (c.processAck seg).rcvNXT = c.rcvNXT ∧
    (c.processAck seg).finPending = c.finPending := by
  unfold processAck
  split
  · have frame := trySendFinLocked_frame
    rw [(frame _).rcvNXT, (frame _).finPending]
    split
    · have flushed := (flushLocked_frame (c.openWindow seg.ack)).1
      exact ⟨flushed.rcvNXT, flushed.finPending⟩
    · exact ⟨rfl, rfl⟩
  · exact ⟨rfl, rfl⟩

theorem receive_of_begun (begun : c.state ≠ .listen) (src : IP4) :
    c.receive src seg = c.handle seg := by
  have unbound : c.bindPeer src seg = c := if_neg fun listens => begun listens.1
  rw [receive, unbound]

/-- A step takes an open stream with a filled queue to CLOSE-WAIT: the FIN of
the peer is next in order and the queue does not fit into the window. -/
def Strands (c : TCPConn) : SideOp → Prop
  | .segment _ seg =>
    c.state = .established ∧ seg.has tcpFin = true ∧ (seg.seq = c.rcvNXT ∨
        seg.seq + UInt32.ofNat seg.payload.length = c.rcvNXT) ∧
      c.StaysFilled seg
  | _ => False

theorem Windowed.strands_iff (windowed : c.Windowed) (streaming : c.state = .established)
    (steady : seg.has tcpRst = false) (src : IP4) : c.Strands (.segment src seg) ↔
      (c.handle seg).state = .closeWait ∧ (c.handle seg).sndBuf ≠ [] := by
  have quiet := (handle_quiet (c := c) steady (by simp [streaming]) (by simp [streaming])).1
  rw [handle_closeWait_iff steady streaming, quiet.sndBuf, finInOrder_acceptPayload,
    (processAck_kept c seg).1, windowed.processAck_filled_iff streaming]
  constructor
  · rintro ⟨_, fin, inOrder, filled⟩
    have still := processAck_state_of_filled ((windowed.processAck_filled_iff streaming).mpr filled)
    exact ⟨⟨still.trans streaming, fin, inOrder⟩, filled⟩
  · rintro ⟨⟨_, fin, inOrder⟩, filled⟩
    exact ⟨streaming, fin, inOrder, filled⟩

end TCPConn

/-! ## Runs of one end -/

/-- What an honest peer and the owner of an end may do. -/
def SideOp.Honest (side : Side) : SideOp → Prop
  | .segment _ seg => side.conn.Honest seg
  | _ => True

/-- One step of an end whose peer is honest. -/
def SideStep (before : Side) (op : SideOp) (after : Side) : Prop :=
  op.Honest before ∧ after = op.run before

/-- The send side and the window of an end are in order. -/
structure Side.Sound (iss : UInt32) (side : Side) : Prop where
  keeps : side.Keeps iss
  windowed : side.conn.Windowed

theorem Side.Sound.step {iss : UInt32} {before after : Side} {op : SideOp}
    (sound : before.Sound iss) (step : SideStep before op after) : after.Sound iss := by
  obtain ⟨honest, rfl⟩ := step
  refine ⟨(sound.keeps.run op).1, ?_⟩
  have windowed := sound.windowed
  cases op with
  | write data =>
    rw [run]
    cases written : before.conn.write data with
    | none => exact windowed
    | some conn => exact windowed.write written
  | recv count => exact windowed.quiet ⟨rfl, rfl, rfl, rfl, rfl, rfl, rfl⟩ (.inl rfl)
  | close =>
    rw [run]
    cases closed : before.conn.close with
    | none => exact windowed
    | some conn => exact windowed.close closed
  | segment src seg => exact windowed.receive honest src

theorem Side.Fresh.sound {side : Side} (fresh : side.Fresh) : ∃ iss, side.Sound iss := by
  obtain ⟨iss, keeps, _⟩ := fresh.keeps
  refine ⟨iss, keeps, ?_⟩
  obtain ⟨_, _, ⟨port, opened⟩ | ⟨port, raddr, rport, opened⟩⟩ := fresh
  · rw [opened]
    exact windowed_listening port
  · rw [opened]
    exact windowed_dialed port raddr rport

theorem Side.Sound.late {iss : UInt32} {side : Side} (sound : side.Sound iss)
    (late : side.conn.Late) : side.conn.sndBuf = [] ∧ FinBehind side.written side.conn.wire := by
  have ended := sound.windowed.late.mpr late
  have empty := (sound.keeps.sends.done ended).1
  refine ⟨empty, ?_⟩
  rw [← sound.keeps.accepted, accepted, empty, append_nil]
  exact sound.keeps.sends.last ended

/-! ## What one step does -/

section Steps

variable {iss : UInt32} {before after : Side} {op : SideOp}

theorem SideOp.write_refused (data : Bytes)
    (refused : before.conn.state ≠ .established ∨ before.conn.finPending = true) :
    (write data).run before = before := by
  rw [SideOp.run, TCPConn.write, if_pos refused]

/-- A request to close is noted while something is queued or in flight. -/
theorem SideOp.close_held (open_ : before.conn.Open) (idle : ¬ before.conn.CanSend)
    (held : before.conn.sndBuf ≠ [] ∨ before.conn.inFlight ≠ []) :
    close.run before = { before with conn := { before.conn with finPending := true } } := by
  have waits : ({ before.conn with finPending := true } : TCPConn).trySendFinLocked =
      { before.conn with finPending := true } :=
    if_pos (.inr (held.imp length_pos_iff.mpr length_pos_iff.mpr))
  rw [run, close_of_open open_ idle, waits]

theorem SideOp.segment_begun (begun : before.conn.state ≠ .listen) (src : IP4) (seg : TCPSegment) :
    (segment src seg).run before = { before with conn := before.conn.handle seg } := by
  rw [run, receive_of_begun begun]

theorem Side.stranded_step (waiting : before.conn.state = .closeWait)
    (filled : before.conn.sndBuf ≠ []) (step : SideStep before op after) :
    after.conn.state = .closeWait ∧ after.conn.sndBuf = before.conn.sndBuf ∧
      after.conn.sent = before.conn.sent := by
  obtain ⟨honest, rfl⟩ := step
  cases op with
  | write data =>
    rw [write_refused data (.inl (by simp [waiting]))]
    exact ⟨waiting, rfl, rfl⟩
  | recv count => exact ⟨waiting, rfl, rfl⟩
  | close =>
    have idle : ¬ before.conn.CanSend := by
      rintro ⟨streaming, _⟩
      simp [waiting] at streaming
    rw [close_held (.inr waiting) idle (.inl filled)]
    exact ⟨waiting, rfl, rfl⟩
  | segment src seg =>
    have open_ : before.conn.Open := .inr waiting
    obtain ⟨begun, answered⟩ := open_.begun
    obtain ⟨quiet, turns⟩ := handle_quiet honest.1 begun answered
    obtain ⟨queue, sent⟩ := processAck_queue (c := before.conn) (by simp [waiting]) seg
    have state : (before.conn.processAck seg).state = .closeWait := by
      rw [processAck_state_of_filled (by rwa [queue]), waiting]
    rw [state] at turns
    rw [segment_begun begun]
    refine ⟨?_, quiet.sndBuf.trans queue, quiet.sent.trans sent⟩
    rcases turns with turn | ⟨was, _⟩ | ⟨was, _⟩ | ⟨was, _⟩
    · exact turn
    · cases was
    · cases was
    · simp at was

/-- An open stream with a filled queue. -/
def Side.Filled (side : Side) : Prop := side.conn.state = .established ∧ side.conn.sndBuf ≠ []

variable (sound : before.Sound iss)
include sound

theorem Side.Sound.full (filled : before.Filled) : tcpWindowCap ≤ before.conn.inFlight.length := by
  by_contra room
  exact sound.windowed.idle ⟨filled.1, length_pos_iff.mpr filled.2, by omega⟩

theorem Side.Sound.outstanding_pos (flight : 0 < before.conn.inFlight.length) :
    0 < before.conn.outstanding :=
  flight.trans_le sound.windowed.flying.least

/--
A step that does not strand the queue either sends more of the stream or
leaves it as it was.
-/
theorem Side.Sound.filled_step (filled : before.Filled)
    (step : SideStep before op after) (unstranded : ¬ before.conn.Strands op) :
    before.conn.sent.length < after.conn.sent.length ∨ after.Filled ∧
      after.conn.sent = before.conn.sent ∧ after.conn.sndNXT = before.conn.sndNXT := by
  have full := sound.full filled
  obtain ⟨streaming, queue⟩ := filled
  obtain ⟨honest, rfl⟩ := step
  cases op with
  | write data =>
    rw [SideOp.run, TCPConn.write]
    split
    · exact .inr ⟨⟨streaming, queue⟩, rfl, rfl⟩
    next conn written =>
    split at written
    · cases written
    cases written
    have unable : ¬ TCPConn.CanSend { before.conn with sndBuf := before.conn.sndBuf ++ data } :=
      fun able => absurd able.2.2 (Nat.not_lt.mpr full)
    rw [flushLocked_of_idle unable]
    exact .inr ⟨⟨streaming, by simp [queue]⟩, rfl, rfl⟩
  | recv count => exact .inr ⟨⟨streaming, queue⟩, rfl, rfl⟩
  | close =>
    rw [close_held (.inl streaming) sound.windowed.idle (.inl queue)]
    exact .inr ⟨⟨streaming, queue⟩, rfl, rfl⟩
  | segment src seg =>
    have begun : before.conn.state ≠ .listen := by simp [streaming]
    obtain ⟨quiet, turns⟩ := handle_quiet honest.1 begun (by simp [streaming])
    rw [segment_begun begun, quiet.sent]
    by_cases new : before.conn.acknowledges seg = true
    · exact .inl (sound.windowed.processAck_sends streaming queue new)
    have same : before.conn.processAck seg = before.conn := by rw [processAck, if_neg new]
    rw [sound.windowed.strands_iff streaming honest.1 src] at unstranded
    rw [same] at quiet turns ⊢
    have still : (before.conn.handle seg).sndBuf ≠ [] := by
      rw [quiet.sndBuf]
      exact queue
    rw [streaming] at turns
    refine .inr ⟨⟨?_, still⟩, rfl, quiet.sndNXT⟩
    rcases turns with turn | ⟨was, _⟩ | ⟨_, turn⟩ | ⟨was, _⟩
    · exact turn
    · cases was
    · exact absurd ⟨turn, still⟩ unstranded
    · simp at was

theorem Side.Sound.filled_acked (filled : before.Filled) {src : IP4}
    {seg : TCPSegment} (step : SideStep before (.segment src seg) after)
    (flag : seg.has tcpAck = true) (next : seg.ack = before.conn.sndNXT) :
    before.conn.sent.length < after.conn.sent.length := by
  have full := sound.full filled
  have cap : 0 < tcpWindowCap := by decide
  have out := sound.outstanding_pos (cap.trans_le full)
  obtain ⟨streaming, queue⟩ := filled
  obtain ⟨honest, rfl⟩ := step
  have begun : before.conn.state ≠ .listen := by simp [streaming]
  obtain ⟨quiet, _⟩ := handle_quiet honest.1 begun (by simp [streaming])
  have new := acknowledges_next out (sound.windowed.flying.short.trans (by decide)) flag next
  rw [segment_begun begun, quiet.sent]
  exact sound.windowed.processAck_sends streaming queue new

/-- An open stream whose FIN only waits for acknowledgements. -/
def Side.Draining (side : Side) : Prop :=
  side.conn.Open ∧ side.conn.sndBuf = [] ∧ side.conn.finPending = true

section

variable (draining : before.Draining)
include draining

theorem Side.Sound.flight : before.conn.inFlight ≠ [] := by
  obtain ⟨open_, empty, pending⟩ := draining
  rcases sound.windowed.closing pending open_ with filled | flight
  · exact absurd empty filled
  · exact flight

theorem Side.Sound.draining_step (step : SideStep before op after) :
    after.conn.Late ∨ after.Draining ∧ after.conn.sndNXT = before.conn.sndNXT := by
  have flight := sound.flight draining
  obtain ⟨open_, empty, pending⟩ := draining
  obtain ⟨honest, rfl⟩ := step
  cases op with
  | write data =>
    rw [write_refused data (.inr pending)]
    exact .inr ⟨⟨open_, empty, pending⟩, rfl⟩
  | recv count => exact .inr ⟨⟨open_, empty, pending⟩, rfl⟩
  | close =>
    rw [close_held open_ sound.windowed.idle (.inr flight)]
    exact .inr ⟨⟨open_, empty, rfl⟩, rfl⟩
  | segment src seg =>
    obtain ⟨begun, answered⟩ := open_.begun
    obtain ⟨quiet, turns⟩ := handle_quiet honest.1 begun answered
    have late := late_of_turns turns
    rw [segment_begun begun]
    rcases processAck_drained empty seg with
      sentFin | ⟨number, state, drained, requested⟩
    · exact .inl (late sentFin)
    · have still : (before.conn.processAck seg).Open := by
        rw [TCPConn.Open, state]
        exact open_
      refine .inr ⟨⟨open_of_turns turns still, ?_, ?_⟩, ?_⟩
      · rw [quiet.sndBuf, drained]
      · rw [quiet.finPending, requested, pending]
      · rw [quiet.sndNXT, number]

theorem Side.Sound.draining_acked
    {src : IP4} {seg : TCPSegment} (step : SideStep before (.segment src seg) after)
    (flag : seg.has tcpAck = true) (next : seg.ack = before.conn.sndNXT) : after.conn.Late := by
  obtain ⟨open_, empty, pending⟩ := draining
  obtain ⟨honest, rfl⟩ := step
  obtain ⟨begun, answered⟩ := open_.begun
  obtain ⟨_, turns⟩ := handle_quiet honest.1 begun answered
  rw [segment_begun begun]
  exact late_of_turns turns (sound.windowed.processAck_sendsFin open_ empty pending flag next)

end

theorem Side.Sound.pending_step (pending : before.conn.finPending = true)
    (step : SideStep before op after) :
    after.conn.finPending = true ∧ after.written = before.written := by
  obtain ⟨honest, rfl⟩ := step
  cases op with
  | write data =>
    rw [write_refused data (.inr pending)]
    exact ⟨pending, rfl⟩
  | recv count => exact ⟨pending, rfl⟩
  | close =>
    rw [run]
    cases closed : before.conn.close with
    | none => exact ⟨pending, rfl⟩
    | some conn => exact ⟨close_pending pending closed, rfl⟩
  | segment src seg =>
    obtain ⟨begun, answered⟩ := sound.windowed.begun_of_pending pending
    obtain ⟨quiet, _⟩ := handle_quiet honest.1 begun answered
    refine ⟨?_, rfl⟩
    rw [segment_begun begun, quiet.finPending, (processAck_kept _ seg).2, pending]

theorem Side.Sound.drained_step (drained : before.conn.state = .closeWait → before.conn.sndBuf = [])
    (step : SideStep before op after) (unstranded : ¬ before.conn.Strands op) :
    after.conn.state = .closeWait → after.conn.sndBuf = [] := by
  intro waiting
  obtain ⟨honest, rfl⟩ := step
  have calls {first last : TCPConn} (acts : TCPConn.Acts none first last)
      (start : first.state = .closeWait → first.sndBuf = []) :
      last.state = .closeWait → last.sndBuf = [] := by
    refine acts.invariant (fun c => c.state = .closeWait → c.sndBuf = []) ?_ start
    intro _ _ act earlier
    cases act with
    | cut able => simp [cutSegment, sendLocked, able.1]
    | fin _ empty _ => exact fun _ => empty
    | pend _ => exact earlier
  cases op with
  | write data =>
    rw [run] at waiting ⊢
    cases written : before.conn.write data with
    | none =>
      rw [written] at waiting
      exact drained waiting
    | some conn =>
      rw [written] at waiting
      obtain ⟨streaming, acts⟩ := write_acts written
      exact calls acts (by simp [streaming]) waiting
  | recv count => exact drained waiting
  | close =>
    rw [run] at waiting ⊢
    cases closed : before.conn.close with
    | none =>
      rw [closed] at waiting
      exact drained waiting
    | some conn =>
      rw [closed] at waiting
      exact calls (close_acts closed) drained waiting
  | segment src seg =>
    by_cases early : before.conn.state = .listen ∨ before.conn.state = .synSent
    · have bound : (before.conn.bindPeer src seg).state = before.conn.state := by
        unfold bindPeer
        split <;> rfl
      rw [← bound] at early
      exact absurd waiting (handle_early honest.1 early)
    rw [not_or] at early
    rw [segment_begun early.1] at waiting ⊢
    by_cases streaming : before.conn.state = .established
    · by_contra filled
      exact unstranded ((sound.windowed.strands_iff streaming honest.1 src).mpr ⟨waiting, filled⟩)
    obtain ⟨quiet, turns⟩ := handle_quiet honest.1 early.1 early.2
    rw [quiet.sndBuf, (processAck_queue streaming seg).1]
    refine drained ?_
    have still : (before.conn.processAck seg).state = .closeWait := by
      rcases turns with turn | ⟨_, turn⟩ | ⟨was, _⟩ | ⟨_, turn⟩
      · exact turn.symm.trans waiting
      · simp [turn] at waiting
      · rcases processAck_state before.conn seg with
          same | ⟨_, final | final⟩
        · exact absurd (same.symm.trans was) streaming
        · simp [final] at was
        · simp [final] at was
      · simp [turn] at waiting
    rcases processAck_state before.conn seg with
      same | ⟨_, final | final⟩
    · exact same.symm.trans still
    · simp [final] at still
    · simp [final] at still

end Steps

end KernelLane.Tcp
