import KernelLane.Runs
import KernelLane.TcpAuthentic
import KernelLane.TcpWindow

namespace KernelLane.Tcp

open List TCPConn

/-!
# What a peer may confirm

Two books that an endpoint keeps about its peer.  The bytes in flight are the
ones sent and not yet acknowledged, as long as the segments of the handshake
acknowledge our SYN.  And an endpoint that has sent its FIN is closed only when
the peer's FIN has been taken in order, as long as no FIN comes out of turn.
-/

namespace TCPConn

/-! ## Bytes in flight -/

def numbers (c : TCPConn) : Nat :=
  if c.state = .listen then 0 else 1 + c.sent.length + c.finSent.toNat

/-- So many numbers are acknowledged, and the bytes behind them are in flight. -/
structure Exact (iss : UInt32) (acked : Nat) (c : TCPConn) : Prop where
  within : acked ≤ c.numbers
  una : c.sndUNA = iss + UInt32.ofNat acked
  flight : c.inFlight = c.sent.drop (acked - 1)
  room : c.inFlight.length ≤ tcpWindowCap
  early : c.Early → c.sent = []
  /-- Nothing is sent before our SYN is acknowledged. -/
  start : acked = 0 → c.sent = [] ∧ (c.Early ∨ c.state = .closed)

variable {iss : UInt32} {acked : Nat} {cause : Option TCPSegment} {c after : TCPConn}
  {seg : TCPSegment}

theorem Sends.sndNXT_eq (sends : c.Sends iss) : c.sndNXT = iss + UInt32.ofNat c.numbers := by
  unfold numbers
  split
  next listens => simp [(sends.fresh listens).2.1]
  next active =>
    rw [sends.next active]
    cases c.finSent <;> simp [UInt32.ofNat_add, UInt32.add_assoc]

/-- The segments of the handshake acknowledge our SYN. -/
def Confirms (c : TCPConn) (seg : TCPSegment) : Prop :=
  c.state = .synSent ∧ seg.has tcpSyn = true ∨ c.state = .synRcvd →
    seg.has tcpAck = true → seg.ack = c.sndNXT

theorem Confirms.act (confirms : c.Confirms seg) (act : Act (some seg) c after) :
    after.Confirms seg := by
  cases act with
  | cut able => simp [Confirms, cutSegment, sendLocked, able.1]
  | fin _ _ closing => rcases closing with ⟨_, rfl⟩ | ⟨_, rfl⟩ <;> simp [Confirms, sendLocked]
  | bind | ack | note => exact confirms
  | payload streaming | takeFin streaming =>
    rcases streaming with state | state <;> simp [Confirms, sendLocked, state]
  | listen _ _ first => simp [Confirms, first]
  | answer _ _ _ => simp [Confirms, sendLocked]
  | complete | leave | finish | reset => simp [Confirms]

variable (exact : c.Exact iss acked)
include exact

theorem Exact.of_same (sndUNA : after.sndUNA = c.sndUNA) (inFlight : after.inFlight = c.inFlight)
    (sent : after.sent = c.sent) (finSent : c.finSent = true → after.finSent = true)
    (early : after.Early → c.Early ∧ (after.state = .listen → c.state = .listen))
    (start : acked = 0 → c.Early ∨ c.state = .closed → after.Early ∨ after.state = .closed) :
    after.Exact iss acked where
  within := by
    have listens : after.state = .listen → c.state = .listen := fun now => (early (.inl now)).2 now
    have bits : c.finSent.toNat ≤ after.finSent.toNat := Bool.toNat_le_toNat finSent
    have within := exact.within
    unfold numbers at within ⊢
    rw [sent]
    by_cases now : after.state = .listen
    · rw [if_pos now]
      rwa [if_pos (listens now)] at within
    · rw [if_neg now]
      split at within <;> omega
  una := sndUNA.trans exact.una
  flight := by rw [inFlight, sent, exact.flight]
  room := inFlight ▸ exact.room
  early := fun now => sent.trans (exact.early (early now).1)
  start := fun none => ⟨sent.trans (exact.start none).1, start none (exact.start none).2⟩

theorem Exact.aside (sndUNA : after.sndUNA = c.sndUNA)
    (inFlight : after.inFlight = c.inFlight) (sent : after.sent = c.sent)
    (finSent : after.finSent = c.finSent) (state : after.state = c.state) :
    after.Exact iss acked := by
  refine exact.of_same sndUNA inFlight sent (fun ended => finSent.trans ended) ?_ ?_
  · rw [Early, state]
    exact fun early => ⟨early, id⟩
  · rw [Early, Early, state]
    exact fun _ => id

theorem Exact.sendAck : (c.sendLocked tcpAck []).Exact iss acked := by
  have quiet := quiet_sendAck c
  exact exact.aside quiet.sndUNA quiet.inFlight quiet.sent quiet.finSent rfl

variable (sends : c.Sends iss)
include sends

theorem Exact.outstanding : c.outstanding = c.numbers - acked ∧ c.outstanding < 2 ^ 31 := by
  have within := exact.within
  have short : c.numbers - acked < 2 ^ 31 := by
    have room := exact.room
    rw [exact.flight, length_drop, tcpWindowCap] at room
    unfold numbers
    have bit := Bool.toNat_lt c.finSent
    split <;> omega
  have same : c.outstanding = c.numbers - acked := by
    unfold TCPConn.outstanding
    rw [sends.sndNXT_eq, exact.una]
    simp only [UInt32.toNat_sub, UInt32.toNat_add, UInt32.toNat_ofNat']
    omega
  exact ⟨same, same ▸ short⟩

theorem Exact.cutSegment (able : c.CanSend) : c.cutSegment.Exact iss acked := by
  obtain ⟨streaming, -, -⟩ := able
  have within := exact.within
  have openEnd : c.finSent = false := sends.openEnd (by simp [streaming])
  have present : acked ≠ 0 := by
    intro none
    rcases (exact.start none).2 with early | closed
    · simp [Early, streaming] at early
    · simp [streaming] at closed
  have sent : c.cutSegment.sent = c.sent ++ c.sndBuf.take c.nextSize := sent_sendLocked _ _ _
  have state : c.cutSegment.state = .established := streaming
  rw [numbers, if_neg (by simp [streaming]), openEnd, Bool.toNat_false] at within
  refine ⟨?_, exact.una, ?_, ?_, ?_, fun none => absurd none present⟩
  · rw [numbers, if_neg (by simp [state]), sent, length_append]
    omega
  · rw [sent, drop_append_of_le_length (by omega), ← exact.flight]
    rfl
  · change (c.inFlight ++ _).length ≤ _
    rw [length_append, length_take, nextSize]
    have room := exact.room
    omega
  · simp [Early, state]

/-- An acknowledgement moves over the bytes that it takes out of flight. -/
theorem Exact.openWindow (new : c.acknowledges seg = true) :
    (c.openWindow seg.ack).Exact iss (acked + (seg.ack - c.sndUNA).toNat) := by
  obtain ⟨out, short⟩ := exact.outstanding sends
  simp only [acknowledges, Bool.and_eq_true] at new
  obtain ⟨positive, sum⟩ := ack_splits new.1.2 new.2 (by rw [TCPConn.outstanding] at short; omega)
  rw [TCPConn.outstanding] at out
  have dropped : (c.openWindow seg.ack).inFlight = c.inFlight.drop (seg.ack - c.sndUNA).toNat := by
    unfold TCPConn.openWindow
    split
    next all => exact (drop_eq_nil_of_le all).symm
    · rfl
  refine ⟨?_, ?_, ?_, ?_, exact.early, ?_⟩
  · change _ ≤ c.numbers
    omega
  · change seg.ack = _
    rw [UInt32.ofNat_add, ← UInt32.add_assoc, ← exact.una, UInt32.ofNat_toNat, UInt32.add_comm,
      UInt32.sub_add_cancel]
  · rw [dropped, exact.flight, drop_drop]
    change c.sent.drop _ = c.sent.drop _
    by_cases none : acked = 0
    · rw [(exact.start none).1, drop_nil, drop_nil]
    · congr 1
      omega
  · rw [dropped, length_drop]
    have room := exact.room
    omega
  · omega

theorem Exact.act (confirms : ∀ seg ∈ cause, c.Confirms seg) (act : Act cause c after) :
    ∃ acked, after.Exact iss acked := by
  cases act with
  | cut able => exact ⟨acked, exact.cutSegment sends able⟩
  | fin _ _ closing =>
    refine ⟨acked, exact.of_same rfl (append_nil _) ?_ (fun ended => ?_) ?_ ?_⟩
    · rw [sent_sendLocked, append_nil]
      rfl
    · simp [sendLocked, ended]
    · rcases closing with ⟨_, rfl⟩ | ⟨_, rfl⟩ <;> simp [Early, sendLocked]
    · intro _ was
      rcases closing with ⟨state, _⟩ | ⟨state, _⟩ <;> simp [Early, state] at was
  | pend | bind | note => exact ⟨acked, exact.aside rfl rfl rfl rfl rfl⟩
  | ack new => exact ⟨_, exact.openWindow sends new⟩
  | payload | takeFin => exact ⟨acked, Exact.sendAck (exact.aside rfl rfl rfl rfl rfl)⟩
  | listen listens _ _ =>
    refine ⟨acked, exact.of_same rfl (append_nil _) ?_ (fun ended => ?_) ?_ ?_⟩
    · rw [sent_sendLocked, append_nil]
      rfl
    · simp [sendLocked, ended]
    · simp [Early, sendLocked, listens]
    · simp [Early, sendLocked]
  | @answer _ seg waiting syn ack =>
    have nothing := exact.early (.inr (.inl waiting))
    have openEnd : c.finSent = false := sends.openEnd (by simp [waiting])
    refine ⟨1, Exact.sendAck ⟨?_, ?_, ?_, Nat.zero_le _, fun _ => nothing, by simp⟩⟩
    · simp [numbers, Nat.add_assoc]
    · change seg.ack = _
      rw [confirms seg rfl (.inl ⟨waiting, syn⟩) ack, sends.next (by simp [waiting]), nothing,
        openEnd]
      simp
    · exact (congrArg (drop 0) nothing).symm
  | @complete _ seg waiting ack settled _ =>
    refine ⟨acked, exact.of_same rfl rfl rfl id (by simp [Early]) fun none _ => ?_⟩
    obtain ⟨out, short⟩ := exact.outstanding sends
    rw [none, numbers, if_neg (by simp [waiting])] at out
    have new := acknowledges_next (by omega) short ack (confirms seg rfl (.inr waiting) ack)
    simp [settled] at new
  | leave streaming =>
    refine ⟨acked, exact.of_same rfl rfl rfl id (by simp [Early]) fun _ was => ?_⟩
    simp [Early, streaming] at was
  | finish | reset =>
    exact ⟨acked, exact.of_same rfl rfl rfl id (by simp [Early]) fun _ _ => .inr rfl⟩

theorem Exact.acts (confirms : ∀ seg ∈ cause, c.Confirms seg) (acts : Acts cause c after) :
    ∃ acked, after.Exact iss acked := by
  have kept := acts.invariant
    (fun c => (∃ acked, c.Exact iss acked) ∧ c.Sends iss ∧ ∀ seg ∈ cause, c.Confirms seg)
    (fun act ⟨⟨_, exact⟩, sends, confirms⟩ => ⟨exact.act sends confirms act, (sends.act act).sends,
      fun seg caused => (confirms seg caused).act (caused ▸ act)⟩) ⟨⟨acked, exact⟩, sends, confirms⟩
  exact kept.1

end TCPConn

namespace TCPConn

variable {cause : Option TCPSegment} {c after : TCPConn} {seg : TCPSegment}

theorem Acts.noted (acts : Acts cause c after) (noted : after.finAckedTheirFin = true) :
    c.finAckedTheirFin = true ∨ ∃ seg ∈ cause, seg.has tcpFin = true := by
  refine acts.invariant (fun after => after.finAckedTheirFin = true →
    c.finAckedTheirFin = true ∨ ∃ seg ∈ cause, seg.has tcpFin = true) ?_ .inl noted
  intro _ _ act earlier now
  cases act with
  | @note _ seg _ =>
    rcases Bool.or_eq_true_iff.mp now with flag | old
    · exact .inr ⟨seg, rfl, flag⟩
    · exact earlier old
  | _ => exact earlier now

theorem Acts.closed (acts : Acts (some seg) c after) (ending : c.state = .finWait)
    (noReset : seg.has tcpRst = false) :
    after.state = .finWait ∨ after.state = .closed ∧ after.finAckedTheirFin = true := by
  refine acts.invariant (fun after => after.state = .finWait ∨
    after.state = .closed ∧ after.finAckedTheirFin = true) ?_ (.inl ending)
  intro _ _ act now
  cases act with
  | cut able => simp [able.1] at now
  | fin _ _ closing => rcases closing with ⟨state, _⟩ | ⟨state, _⟩ <;> simp [state] at now
  | listen listens _ _ => simp [listens] at now
  | answer waiting | complete waiting => simp [waiting] at now
  | leave streaming => simp [streaming] at now
  | note ending => exact .inl ending
  | reset flag _ => simp [noReset] at flag
  | finish from_ =>
    refine .inr ⟨rfl, ?_⟩
    rcases from_ with state | ⟨_, noted⟩
    · simp [state] at now
    · exact noted
  | _ => exact now

end TCPConn

/-- An endpoint with its owner, and whether the peer's FIN has been taken in order. -/
structure Closing where
  side : Side
  taken : Bool
  deriving DecidableEq, Repr

/-- The peer's FIN is taken when it is next, behind the payload of its segment,
on a stream that is open from the other side. -/
def SideOp.takesFin (side : Side) : SideOp → Bool
  | .segment _ seg =>
    (side.conn.state = .established || side.conn.state = .finWait) &&
      (side.conn.acceptPayload seg).finInOrder seg
  | _ => false

/-- No reset arrives after our FIN, and no FIN of the peer before its turn. -/
def SideOp.InTurn (before : Closing) (op : SideOp) : Prop :=
  ∀ src seg, op = .segment src seg →
    (before.side.conn.state = .finWait → seg.has tcpRst = false) ∧
      (seg.has tcpFin = true → before.taken = true ∨ op.takesFin before.side = true)

def Closing.Step (before : Closing) (op : SideOp) (after : Closing) : Prop :=
  op.InTurn before ∧ after = ⟨op.run before.side, before.taken || op.takesFin before.side⟩

/-- A FIN that has been noted has been taken in order. -/
def Closing.Noted (closing : Closing) : Prop :=
  closing.side.conn.finAckedTheirFin = true → closing.taken = true

theorem Closing.Noted.step {before after : Closing} {op : SideOp} (noted : before.Noted)
    (step : before.Step op after) : after.Noted := by
  obtain ⟨inTurn, rfl⟩ := step
  intro now
  rw [Bool.or_eq_true]
  have calls {conn : TCPConn} (acts : TCPConn.Acts none conn (op.run before.side).conn)
      (same : conn.finAckedTheirFin = before.side.conn.finAckedTheirFin) : before.taken = true :=
    (acts.noted now).elim (fun old => noted (same.symm.trans old)) (by simp)
  cases op with
  | write data =>
    left
    rw [SideOp.run] at calls now
    cases written : before.side.conn.write data with
    | none =>
      rw [written] at now
      exact noted now
    | some conn =>
      rw [written] at calls
      exact calls (write_acts written).2 rfl
  | recv count => exact .inl (noted now)
  | close =>
    left
    rw [SideOp.run] at calls now
    cases closed : before.side.conn.close with
    | none =>
      rw [closed] at now
      exact noted now
    | some conn =>
      rw [closed] at calls
      exact calls (close_acts closed) rfl
  | segment src seg =>
    rcases (receive_acts before.side.conn src seg).noted now with old | ⟨_, ⟨⟩, flag⟩
    · exact .inl (noted old)
    · exact (inTurn src seg rfl).2 flag

/--
In every run from the opening in which no reset follows our FIN and no FIN of
the peer comes before its turn, a step that takes an endpoint from FIN-WAIT to
CLOSED does so when the peer's FIN has been taken in order.
-/
theorem closed_after_fin {first : Side} {ops : List SideOp} {before after : Closing} {op : SideOp}
    (fresh : first.Fresh) (run : Run Closing.Step ⟨first, false⟩ ops before)
    (step : before.Step op after) (ending : before.side.conn.state = .finWait)
    (closed : after.side.conn.state = .closed) : after.taken = true := by
  have start : Closing.Noted ⟨first, false⟩ := by
    obtain ⟨-, -, ⟨port, opened⟩ | ⟨port, raddr, rport, opened⟩⟩ := fresh <;>
      simp [Closing.Noted, opened, dialed, listening, sendLocked]
  have kept : ∀ {before op after}, before.Noted → Closing.Step before op after → after.Noted :=
    fun noted step => noted.step step
  refine (run.invariant kept start).step step ?_
  obtain ⟨inTurn, rfl⟩ := step
  cases op with
  | write data => simp [SideOp.run, write, ending] at closed
  | recv count => simp [SideOp.run, recv, ending] at closed
  | close => simp [SideOp.run, close, ending] at closed
  | segment src seg =>
    have acts := receive_acts before.side.conn src seg
    rcases acts.closed ending ((inTurn src seg rfl).1 ending) with still | ⟨_, noted⟩
    · simp [SideOp.run, still] at closed
    · exact noted

def finOut : Side := [.segment 2 synAnswer, .close].foldl SideOp.run ⟨.dialed 49152 2 80, [], []⟩

def lastWord (seq : UInt32) : SideOp := .segment 2 ⟨80, 49152, seq, 1002, tcpFin ||| tcpAck, 1024, []⟩

theorem closed_after_fin_finOut : finOut.conn.state = .finWait ∧
    ((lastWord 8).run finOut).conn.state = .closed ∧
    (false || (lastWord 8).takesFin finOut) = true := by
  have run : Run Closing.Step ⟨⟨.dialed 49152 2 80, [], []⟩, false⟩ [.segment 2 synAnswer, .close]
      ⟨finOut, false⟩ := by
    have opened : Closing.Step ⟨⟨.dialed 49152 2 80, [], []⟩, false⟩ (.segment 2 synAnswer)
        ⟨⟨openConn, [], []⟩, false⟩ := by
      refine ⟨?_, by decide +kernel⟩
      rintro _ _ ⟨⟩
      exact ⟨by decide +kernel, by decide +kernel⟩
    exact .cons opened (.cons ⟨nofun, by decide +kernel⟩ (.nil _))
  have step : Closing.Step ⟨finOut, false⟩ (lastWord 8)
      ⟨(lastWord 8).run finOut, false || (lastWord 8).takesFin finOut⟩ := by
    refine ⟨?_, rfl⟩
    rintro _ _ ⟨⟩
    exact ⟨by decide +kernel, by decide +kernel⟩
  refine ⟨by decide +kernel, by decide +kernel, ?_⟩
  exact closed_after_fin ⟨rfl, rfl, .inr ⟨49152, 2, 80, rfl⟩⟩ run step (by decide +kernel)
    (by decide +kernel)

/-- A FIN of the peer with number 100 closes the endpoint that waits for number 8. -/
theorem fin_out_of_turn_closes : finOut.conn.state = .finWait ∧ finOut.conn.rcvNXT = 8 ∧
    (lastWord 100).takesFin finOut = false ∧ ((lastWord 100).run finOut).conn.state = .closed ∧
    ((lastWord 100).run finOut).conn.rcvNXT = 8 := by
  decide +kernel

end KernelLane.Tcp
