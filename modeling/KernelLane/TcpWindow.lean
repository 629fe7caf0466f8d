import KernelLane.TcpSender

namespace KernelLane.Tcp

open List TCPConn

/-!
# The window of an endpoint

The bytes in flight are the distance between the oldest unacknowledged number
and the next one, up to SYN and FIN.  Whatever happens, an open stream is idle
only when its queue is empty or its window is full, and a requested FIN is
held back only by bytes that are queued or in flight.
-/

theorem ack_splits {una ack next : UInt32} (new : seqGT ack una = true)
    (within : seqGE next ack = true) (short : (next - una).toNat < 2 ^ 31) :
    0 < (ack - una).toNat ∧ (ack - una).toNat + (next - ack).toNat = (next - una).toNat := by
  have ackBound := ack.toNat_lt
  simp only [seqGE, seqGT, Bool.and_eq_true, Bool.or_eq_true,
    decide_eq_true_eq, UInt32.toNat_sub] at new within short ⊢
  rcases within with same | later
  · subst same
    omega
  · omega

namespace TCPConn

def outstanding (c : TCPConn) : Nat := (c.sndNXT - c.sndUNA).toNat

theorem outstanding_sendLocked (c : TCPConn) (flags : UInt8) (payload : Bytes)
    (short : c.outstanding + payload.length + 1 < 2 ^ 32) :
    (c.sendLocked flags payload).outstanding = c.outstanding + payload.length +
      if flags &&& (tcpSyn ||| tcpFin) ≠ 0 then 1 else 0 := by
  unfold outstanding sendLocked at *
  simp only [UInt32.toNat_sub] at *
  split <;>
  simp <;>
  omega

/-- The bytes in flight are outstanding, and little else is. -/
structure Flying (c : TCPConn) : Prop where
  least : c.inFlight.length ≤ c.outstanding
  most : c.outstanding ≤ c.inFlight.length + 1 + c.finSent.toNat
  room : c.inFlight.length ≤ tcpWindowCap

variable {c after : TCPConn} {seg : TCPSegment}

theorem Flying.short (flying : c.Flying) : c.outstanding < 2000 := by
  have most := flying.most
  have room := flying.room
  have bit := Bool.toNat_lt c.finSent
  rw [tcpWindowCap] at room
  omega

theorem Flying.cutSegment (flying : c.Flying) : c.cutSegment.Flying := by
  have short := flying.short
  have least := flying.least
  have most := flying.most
  have room := flying.room
  have size : (c.sndBuf.take c.nextSize).length ≤ tcpWindowCap - c.inFlight.length := by
    rw [length_take, nextSize]
    omega
  have sum : c.cutSegment.outstanding = c.outstanding + (c.sndBuf.take c.nextSize).length := by
    rw [TCPConn.cutSegment, outstanding_sendLocked]
    · rfl
    · change c.outstanding + _ + 1 < _
      rw [tcpWindowCap] at size
      omega
  have flight : c.cutSegment.inFlight.length =
      c.inFlight.length + (c.sndBuf.take c.nextSize).length := by
    simp [TCPConn.cutSegment, TCPConn.sendLocked]
  have fin : c.cutSegment.finSent = c.finSent := by simp [TCPConn.cutSegment, TCPConn.sendLocked]
  refine ⟨?_, ?_, ?_⟩
  · omega
  · rw [fin]
    omega
  · omega

theorem Flying.flushLocked (flying : c.Flying) : c.flushLocked.Flying :=
  flushLocked_invariant Flying (fun _ current => current.cutSegment) flying

theorem Flying.openWindow (flying : c.Flying) (new : c.acknowledges seg = true) :
    (c.openWindow seg.ack).Flying ∧ (c.openWindow seg.ack).inFlight.length =
        c.inFlight.length - (seg.ack - c.sndUNA).toNat ∧
      (c.openWindow seg.ack).outstanding + (seg.ack - c.sndUNA).toNat = c.outstanding ∧
      0 < (seg.ack - c.sndUNA).toNat := by
  have short := flying.short
  have least := flying.least
  have most := flying.most
  have room := flying.room
  simp only [acknowledges, Bool.and_eq_true] at new
  obtain ⟨positive, sum⟩ := ack_splits new.1.2 new.2 (by rw [outstanding] at short; omega)
  have flight : (c.openWindow seg.ack).inFlight.length =
      c.inFlight.length - (seg.ack - c.sndUNA).toNat := by
    unfold TCPConn.openWindow
    split
    · simp only [length_nil]
      omega
    · rw [length_drop]
  have rest : (c.openWindow seg.ack).outstanding = (c.sndNXT - seg.ack).toNat := rfl
  have fin : (c.openWindow seg.ack).finSent = c.finSent := rfl
  rw [outstanding] at least most
  refine ⟨⟨?_, ?_, ?_⟩, flight, ?_, positive⟩
  · omega
  · rw [fin]
    omega
  · omega
  · rw [rest, outstanding]
    omega

/-- An acknowledgement of the next number is new while anything is out. -/
theorem acknowledges_next (out : 0 < c.outstanding) (short : c.outstanding < 2 ^ 31)
    (flag : seg.has tcpAck = true) (next : seg.ack = c.sndNXT) : c.acknowledges seg = true := by
  rw [outstanding] at short out
  rw [acknowledges, flag, next]
  simp only [seqGE, seqGT, Bool.true_and, Bool.and_eq_true, Bool.or_eq_true, decide_eq_true_eq]
  exact ⟨⟨.inr ⟨out, short⟩, out, short⟩, .inl trivial⟩

/-! ## Flushing -/

theorem CanSend.nextSize_pos (able : c.CanSend) : 0 < c.nextSize := by
  obtain ⟨_, queued, room⟩ := able
  have size : 0 < tcpMaxSeg := by decide
  rw [nextSize]
  omega

theorem CanSend.sent_cutSegment (able : c.CanSend) : c.sent.length < c.cutSegment.sent.length := by
  have size := able.nextSize_pos
  have queued := able.2.1
  rw [cutSegment, sent_sendLocked, length_append, length_take]
  change c.sent.length < c.sent.length + _
  omega

theorem flushLocked_idle (c : TCPConn) : ¬ c.flushLocked.CanSend := by
  have times (count : Nat) : ∀ c : TCPConn,
      c.sndBuf.length ≤ count → ¬ (flushTimes count c).CanSend := by
    induction count with
    | zero =>
      intro c short able
      have queued := able.2.1
      simp only [flushTimes] at queued
      omega
    | succ count hypothesis =>
      intro c short
      rw [flushTimes]
      split
      next able =>
        refine hypothesis _ ?_
        have size := able.nextSize_pos
        simp only [cutSegment, sendLocked, length_drop]
        omega
      next unable => exact unable
  exact times _ c (Nat.le_refl _)

theorem flushLocked_of_idle (idle : ¬ c.CanSend) : c.flushLocked = c := by
  rw [flushLocked]
  cases c.sndBuf.length with
  | zero => rfl
  | succ count => rw [flushTimes, if_neg idle]

theorem flushLocked_sends (able : c.CanSend) : c.sent.length < c.flushLocked.sent.length := by
  have grown :=
    flushLocked_invariant (fun after => after = c ∨ c.sent.length < after.sent.length)
      (fun {current} able grown => by
        have more := able.sent_cutSegment
        rcases grown with rfl | grown
        · exact .inr more
        · exact .inr (grown.trans more))
      (c := c) (.inl rfl)
  rcases grown with same | grown
  · exact absurd able (by rw [← same]; exact flushLocked_idle c)
  · exact grown

theorem flushLocked_total (c : TCPConn) :
    c.flushLocked.sndBuf.length + c.flushLocked.inFlight.length =
        c.sndBuf.length + c.inFlight.length ∧ c.flushLocked.finSent = c.finSent := by
  refine flushLocked_invariant (fun after =>
      after.sndBuf.length + after.inFlight.length = c.sndBuf.length + c.inFlight.length ∧
        after.finSent = c.finSent)
    (fun {current} able total => ?_) ⟨rfl, rfl⟩
  simp only [cutSegment, sendLocked, length_drop, length_append, length_take]
  refine ⟨?_, by simpa using total.2⟩
  omega

theorem flushLocked_empty_iff (flying : c.Flying) (streaming : c.state = .established) :
    c.flushLocked.sndBuf = [] ↔ c.sndBuf.length + c.inFlight.length ≤ tcpWindowCap := by
  have total := (flushLocked_total c).1
  have room := flying.flushLocked.room
  have state := (flushLocked_frame c).2
  constructor
  · intro empty
    rw [empty, length_nil] at total
    omega
  · intro fits
    by_contra filled
    have queued := length_pos_iff.mpr filled
    refine flushLocked_idle c ⟨state.trans streaming, queued, ?_⟩
    omega

/-! ## The invariant -/

/-- No stream is open yet. -/
def Early (c : TCPConn) : Prop := c.state = .listen ∨ c.state = .synSent ∨ c.state = .synRcvd

/-- The stream is open in our direction. -/
def Open (c : TCPConn) : Prop := c.state = .established ∨ c.state = .closeWait

/-- The stream has been closed from our side. -/
def Late (c : TCPConn) : Prop := c.state = .finWait ∨ c.state = .lastAck ∨ c.state = .closed

theorem phases (c : TCPConn) : c.Early ∨ c.Open ∨ c.Late := by
  unfold Early Open Late
  cases c.state <;> simp

/-- The window of an endpoint that has sent what it may. -/
structure Ready (c : TCPConn) : Prop where
  flying : c.Flying
  idle : ¬ c.CanSend
  listens : c.state = .listen → c.outstanding = 0
  early : c.Early → c.sndBuf = [] ∧ c.inFlight = [] ∧ c.finPending = false
  late : c.finSent = true ↔ c.Late

/-- In addition a FIN that could be sent has been. -/
structure Windowed (c : TCPConn) : Prop extends c.Ready where
  closing : c.finPending = true → c.Open → c.sndBuf ≠ [] ∨ c.inFlight ≠ []

/-- An endpoint without stream bytes that has at most its SYN outstanding. -/
theorem windowed_of_blank (queue : c.sndBuf = []) (empty : c.inFlight = [])
    (unpending : c.finPending = false) (unsent : c.finSent = false) (going : ¬ c.Late)
    (syn : c.outstanding ≤ 1) (listens : c.state = .listen → c.outstanding = 0) : c.Windowed := by
  refine ⟨⟨⟨?_, ?_, ?_⟩, ?_, listens, ?_, ?_⟩, ?_⟩
  · simp [empty]
  · simpa [empty, unsent] using syn
  · simp [empty]
  · simp [CanSend, queue]
  · exact fun _ => ⟨queue, empty, unpending⟩
  · simp [unsent, going]
  · simp [unpending]

theorem Ready.openEnd (ready : c.Ready) (open_ : c.Open) : c.finSent = false := by
  rw [← Bool.not_eq_true, ready.late]
  rcases open_ with state | state <;> simp [Late, state]

theorem Ready.trySendFinLocked (ready : c.Ready) : c.trySendFinLocked.Windowed := by
  have closing (state : TcpState) (final : state = .finWait ∨ state = .lastAck)
      (empty : c.inFlight = [])
      (openEnd : c.finSent = false) :
      ({ c with state := state }.sendLocked tcpFin []).Windowed := by
    have flying := ready.flying
    have most := flying.most
    have short := flying.short
    have bit : tcpFin ≠ 0 := by decide
    have next : ({ c with state := state }.sendLocked tcpFin []).outstanding =
        c.outstanding + 1 := by
      rw [outstanding_sendLocked]
      · rfl
      · change c.outstanding + _ + 1 < _
        simp only [length_nil]
        omega
    rw [empty, openEnd] at most
    simp only [length_nil, Bool.toNat_false] at most
    refine ⟨⟨⟨?_, ?_, ?_⟩, ?_, ?_, ?_, ?_⟩, ?_⟩
    · simp [sendLocked, empty]
    · rw [next]
      simp only [sendLocked, bit, UInt8.and_self, ne_eq, not_false_eq_true,
        decide_true, Bool.or_true, Bool.toNat_true]
      omega
    · simp [sendLocked, empty]
    · rintro ⟨streaming, _⟩
      rcases final with rfl | rfl <;> simp [sendLocked] at streaming
    · rcases final with rfl | rfl <;> simp [sendLocked]
    · rcases final with rfl | rfl <;> simp [sendLocked, Early]
    · rcases final with rfl | rfl <;>
      simp [sendLocked, Late, bit]
    · rcases final with rfl | rfl <;> simp [sendLocked, Open]
  unfold TCPConn.trySendFinLocked
  split
  next held =>
    refine ⟨ready, fun pending _ => ?_⟩
    rcases held with unpending | queued | flight
    · simp [pending] at unpending
    · exact .inl (length_pos_iff.mp queued)
    · exact .inr (length_pos_iff.mp flight)
  next free =>
  simp only [not_or, Nat.not_lt, Nat.le_zero_eq, length_eq_zero_iff] at free
  split
  next state => exact closing .finWait (.inl rfl) free.2.2 (ready.openEnd (.inl state))
  next state => exact closing .lastAck (.inr rfl) free.2.2 (ready.openEnd (.inr state))
  next notStreaming notWaiting =>
    refine ⟨ready, fun _ open_ => ?_⟩
    rcases open_ with state | state
    · exact absurd state notStreaming
    · exact absurd state notWaiting

theorem Ready.flushLocked (flying : c.Flying) (streaming : c.state = .established)
    (openEnd : c.finSent = false) : c.flushLocked.Ready := by
  have state := (flushLocked_frame c).2.trans streaming
  refine ⟨flying.flushLocked, flushLocked_idle c, ?_, ?_, ?_⟩
  · simp [state]
  · simp [Early, state]
  · rw [(flushLocked_total c).2, openEnd]
    simp [Late, state]

theorem Windowed.processAck (windowed : c.Windowed) (seg : TCPSegment) :
    (c.processAck seg).Windowed := by
  unfold TCPConn.processAck
  split
  next new =>
    obtain ⟨flying, flight, fewer, _⟩ := windowed.flying.openWindow new
    refine Ready.trySendFinLocked ?_
    split
    next streaming => exact .flushLocked flying streaming (windowed.openEnd (.inl streaming))
    next notStreaming =>
      refine ⟨flying, fun able => notStreaming able.1, ?_, ?_, windowed.late⟩
      · intro listens
        have nothing := windowed.listens listens
        omega
      · intro early
        obtain ⟨queue, empty, unpending⟩ := windowed.early early
        refine ⟨queue, ?_, unpending⟩
        rw [← length_eq_zero_iff, flight, empty]
        simp
  · exact windowed

/-! ## Steps that send no stream byte -/

/-- The send side has not moved. -/
structure Quiet (before after : TCPConn) : Prop where
  sndBuf : after.sndBuf = before.sndBuf
  inFlight : after.inFlight = before.inFlight
  sndUNA : after.sndUNA = before.sndUNA
  sndNXT : after.sndNXT = before.sndNXT
  finPending : after.finPending = before.finPending
  finSent : after.finSent = before.finSent
  sent : after.sent = before.sent

theorem Quiet.refl (c : TCPConn) : Quiet c c := ⟨rfl, rfl, rfl, rfl, rfl, rfl, rfl⟩

theorem Quiet.trans {last : TCPConn} (first : Quiet c after) (second : Quiet after last) :
    Quiet c last :=
  ⟨second.sndBuf.trans first.sndBuf, second.inFlight.trans first.inFlight,
    second.sndUNA.trans first.sndUNA, second.sndNXT.trans first.sndNXT,
    second.finPending.trans first.finPending,
    second.finSent.trans first.finSent, second.sent.trans first.sent⟩

section

variable (c seg)

theorem quiet_sendAck : Quiet c (c.sendLocked tcpAck []) := by
  have noBits : ¬ (tcpAck &&& (tcpSyn ||| tcpFin) ≠ 0) := by decide
  have noFin : tcpAck &&& tcpFin = 0 := by decide
  refine ⟨rfl, ?_, rfl, ?_, rfl, ?_, ?_⟩
  · simp [sendLocked]
  · rw [sendLocked]
    rw [if_neg noBits]
    simp
  · simp [sendLocked, noFin]
  · rw [sent_sendLocked, append_nil]

theorem quiet_acceptPayload : Quiet c (c.acceptPayload seg) := by
  unfold acceptPayload
  split
  · refine Quiet.trans ?_ (quiet_sendAck _)
    exact ⟨rfl, rfl, rfl, rfl, rfl, rfl, rfl⟩
  · exact .refl c

theorem quiet_acceptFin : Quiet c (c.acceptFin seg) := by
  unfold acceptFin
  split
  · refine Quiet.trans ?_ (quiet_sendAck _)
    exact ⟨rfl, rfl, rfl, rfl, rfl, rfl, rfl⟩
  · exact .refl c

/-- The state changes that go with a quiet step. -/
def Turns (before after : TcpState) : Prop :=
  after = before ∨ before = .synRcvd ∧ after = .established ∨
    before = .established ∧ after = .closeWait ∨
    (before = .finWait ∨ before = .lastAck) ∧ after = .closed

/-- Once the handshake is under way, the state of an endpoint turns without
the send side. -/
theorem handleState_quiet (notListen : c.state ≠ .listen) (notSynSent : c.state ≠ .synSent) :
    Quiet c (c.handleState seg) ∧ Turns c.state (c.handleState seg).state := by
  unfold handleState
  cases state : c.state with
  | listen => exact absurd state notListen
  | synSent => exact absurd state notSynSent
  | synRcvd =>
    unfold handleSynRcvd
    dsimp only
    split
    · exact ⟨⟨rfl, rfl, rfl, rfl, rfl, rfl, rfl⟩, .inr (.inl ⟨rfl, rfl⟩)⟩
    · exact ⟨.refl c, .inl state⟩
  | established =>
    have taken := quiet_acceptPayload c seg
    unfold handleEstablished
    dsimp only
    split
    · exact ⟨(taken.trans (quiet_acceptFin _ seg)).trans ⟨rfl, rfl, rfl, rfl, rfl, rfl, rfl⟩,
        .inr (.inr (.inl ⟨rfl, rfl⟩))⟩
    · exact ⟨taken, .inl ((acceptPayload_state c seg).trans state)⟩
  | finWait =>
    have taken := (quiet_acceptPayload c seg).trans (quiet_acceptFin _ seg)
    have turned :=
      (acceptFin_state (c.acceptPayload seg) seg).trans ((acceptPayload_state c seg).trans state)
    unfold handleFinWait
    dsimp only
    split
    · exact ⟨taken.trans ⟨rfl, rfl, rfl, rfl, rfl, rfl, rfl⟩, .inr (.inr (.inr ⟨.inl rfl, rfl⟩))⟩
    · exact ⟨taken.trans ⟨rfl, rfl, rfl, rfl, rfl, rfl, rfl⟩, .inl turned⟩
  | lastAck =>
    unfold handleLastAck
    dsimp only
    split
    · exact ⟨⟨rfl, rfl, rfl, rfl, rfl, rfl, rfl⟩, .inr (.inr (.inr ⟨.inr rfl, rfl⟩))⟩
    · exact ⟨.refl c, .inl state⟩
  | closeWait | closed => exact ⟨.refl c, .inl state⟩

theorem trySendFinLocked_state : c.trySendFinLocked = c ∨ c.Open ∧
    (c.trySendFinLocked.state = .finWait ∨ c.trySendFinLocked.state = .lastAck) := by
  unfold trySendFinLocked
  split
  · exact .inl rfl
  split
  next state => exact .inr ⟨.inl state, .inl rfl⟩
  next state => exact .inr ⟨.inr state, .inr rfl⟩
  · exact .inl rfl

theorem processAck_state : (c.processAck seg).state = c.state ∨
    c.Open ∧ ((c.processAck seg).state = .finWait ∨ (c.processAck seg).state = .lastAck) := by
  have tried (after : TCPConn) (same : after.state = c.state) :
      after.trySendFinLocked.state = c.state ∨ c.Open ∧ (after.trySendFinLocked.state = .finWait ∨
        after.trySendFinLocked.state = .lastAck) := by
    rcases trySendFinLocked_state after with kept | ⟨open_, final⟩
    · exact .inl (by rw [kept, same])
    · refine .inr ⟨?_, final⟩
      rwa [Open, same] at open_
  unfold processAck
  split
  · dsimp only
    split
    · exact tried _ (flushLocked_frame _).2
    · exact tried _ rfl
  · exact .inl rfl

end

theorem processAck_sndNXT (early : c.Early) : (c.processAck seg).sndNXT = c.sndNXT := by
  have notStreaming : (c.openWindow seg.ack).state ≠ .established := by
    change c.state ≠ .established
    rcases early with state | state | state <;> simp [state]
  unfold processAck
  split
  · dsimp only
    rw [if_neg notStreaming]
    rcases trySendFinLocked_state (c.openWindow seg.ack) with
      kept | ⟨open_, _⟩
    · rw [kept]
      rfl
    · change c.Open at open_
      rcases early with state | state | state <;> simp [Open, state] at open_
  · rfl

section

variable (windowed : c.Windowed)
include windowed

theorem Windowed.quiet (quiet : Quiet c after) (turns : Turns c.state after.state) :
    after.Windowed := by
  have same : after.outstanding = c.outstanding := by
    rw [outstanding, outstanding, quiet.sndNXT, quiet.sndUNA]
  have flying : after.Flying := by
    refine ⟨?_, ?_, ?_⟩
    · rw [same, quiet.inFlight]
      exact windowed.flying.least
    · rw [same, quiet.inFlight, quiet.finSent]
      exact windowed.flying.most
    · rw [quiet.inFlight]
      exact windowed.flying.room
  have idle := windowed.idle
  have early := windowed.early
  have late := windowed.late
  have closing := windowed.closing
  simp only [Late] at idle early late closing
  rcases turns with turn | ⟨was, turn⟩ | ⟨was, turn⟩ | ⟨was, turn⟩
  · refine ⟨⟨flying, ?_, ?_, ?_, ?_⟩, ?_⟩
    · rw [CanSend, turn, quiet.sndBuf, quiet.inFlight]
      exact idle
    · rw [turn, same]
      exact windowed.listens
    · rw [Early, turn, quiet.sndBuf, quiet.inFlight, quiet.finPending]
      exact early
    · rw [Late, turn, quiet.finSent]
      exact late
    · rw [Open, turn, quiet.sndBuf, quiet.inFlight, quiet.finPending]
      exact closing
  · obtain ⟨queue, empty, unpending⟩ := early (.inr (.inr was))
    refine ⟨⟨flying, ?_, ?_, ?_, ?_⟩, ?_⟩
    · rw [CanSend, quiet.sndBuf, queue]
      simp
    · simp [turn]
    · simp [Early, turn]
    · rw [Late, quiet.finSent, late]
      simp [was, turn]
    · rw [quiet.finPending, unpending]
      simp
  · refine ⟨⟨flying, ?_, ?_, ?_, ?_⟩, ?_⟩
    · simp [CanSend, turn]
    · simp [turn]
    · simp [Early, turn]
    · rw [Late, quiet.finSent, late]
      simp [was, turn]
    · rw [quiet.sndBuf, quiet.inFlight, quiet.finPending]
      exact fun pending _ => closing pending (.inl was)
  · refine ⟨⟨flying, ?_, ?_, ?_, ?_⟩, ?_⟩
    · simp [CanSend, turn]
    · simp [turn]
    · simp [Early, turn]
    · rw [Late, quiet.finSent, late]
      rcases was with was | was <;> simp [was, turn]
    · simp [Open, turn]

/-! ## The steps of an endpoint -/

/-- The answer to a SYN starts the handshake with one number outstanding. -/
theorem Windowed.handleListen (listens : c.state = .listen) : (c.handleListen seg).Windowed := by
  unfold TCPConn.handleListen
  split
  · obtain ⟨queue, empty, unpending⟩ := windowed.early (.inl listens)
    have nothing := windowed.listens listens
    have openEnd : c.finSent = false := by
      rw [← Bool.not_eq_true, windowed.late]
      simp [Late, listens]
    have bit : (tcpSyn ||| tcpAck) &&& tcpFin = 0 := by decide
    have next : ({ c with
          rcvNXT := seg.seq + 1
          state := .synRcvd }.sendLocked (tcpSyn ||| tcpAck) []).outstanding =
          c.outstanding + 1 := by
      rw [outstanding_sendLocked]
      · rfl
      · change c.outstanding + _ + 1 < _
        rw [nothing]
        decide
    refine windowed_of_blank queue ?_ unpending ?_ ?_ ?_ ?_
    · simp [sendLocked, empty]
    · simp [sendLocked, openEnd, bit]
    · simp [sendLocked, Late]
    · rw [next, nothing]
    · simp [sendLocked]
  · exact windowed

theorem Windowed.handleSynSent (waiting : c.state = .synSent) (honest :
      seg.has tcpSyn = true → seg.has tcpAck = true → seg.ack = c.sndNXT) :
    (c.handleSynSent seg).Windowed := by
  unfold TCPConn.handleSynSent
  split
  next answer =>
    obtain ⟨queue, empty, unpending⟩ := windowed.early (.inr (.inl waiting))
    have openEnd : c.finSent = false := by
      rw [← Bool.not_eq_true, windowed.late]
      simp [Late, waiting]
    have opened : Windowed
        { c with
          rcvNXT := seg.seq + 1
          sndUNA := seg.ack
          inFlight := []
          state := .established } := by
      refine windowed_of_blank queue rfl unpending openEnd (by simp [Late]) ?_ (by simp)
      rw [outstanding, honest answer.1 answer.2, UInt32.sub_self]
      decide
    have answered := opened.quiet (quiet_sendAck _) (.inl rfl)
    rw [flushLocked_of_idle answered.idle]
    exact answered
  · exact windowed

/-- The peer does not reset the connection and, when it answers our SYN,
acknowledges it. -/
def Honest (c : TCPConn) (seg : TCPSegment) : Prop :=
  seg.has tcpRst = false ∧ (c.state = .synSent →
    seg.has tcpSyn = true → seg.has tcpAck = true → seg.ack = c.sndNXT)

theorem Windowed.handle (honest : c.Honest seg) : (c.handle seg).Windowed := by
  have acked := windowed.processAck seg
  have moved : ((c.processAck seg).handleState seg).Windowed := by
    by_cases listens : (c.processAck seg).state = .listen
    · unfold handleState
      rw [listens]
      exact acked.handleListen listens
    by_cases waiting : (c.processAck seg).state = .synSent
    · have before : c.state = .synSent := by
        rcases processAck_state c seg with same | ⟨_, final | final⟩
        · exact same.symm.trans waiting
        · simp [final] at waiting
        · simp [final] at waiting
      unfold handleState
      rw [waiting]
      refine acked.handleSynSent waiting ?_
      rw [processAck_sndNXT (.inr (.inl before))]
      exact honest.2 before
    · obtain ⟨quiet, turns⟩ := handleState_quiet (c.processAck seg) seg listens waiting
      exact acked.quiet quiet turns
  unfold TCPConn.handle
  rw [if_neg (by simp [honest.1])]
  dsimp only
  split
  · exact moved.quiet (quiet_acceptPayload _ seg) (.inl (acceptPayload_state _ seg))
  · exact moved

theorem Windowed.receive (honest : c.Honest seg) (src : IP4) : (c.receive src seg).Windowed := by
  rw [TCPConn.receive]
  unfold bindPeer
  split
  · refine Windowed.handle ?_ honest
    exact windowed.quiet ⟨rfl, rfl, rfl, rfl, rfl, rfl, rfl⟩ (.inl rfl)
  · exact windowed.handle honest

theorem Windowed.write {data : Bytes} (written : c.write data = some after) : after.Windowed := by
  unfold TCPConn.write at written
  split at written
  · cases written
  next ready =>
  cases written
  simp only [not_or, Decidable.not_not, Bool.not_eq_true] at ready
  obtain ⟨streaming, unpending⟩ := ready
  have queued : Flying { c with sndBuf := c.sndBuf ++ data } :=
    ⟨windowed.flying.least, windowed.flying.most, windowed.flying.room⟩
  refine ⟨.flushLocked queued streaming (windowed.openEnd (.inl streaming)), ?_⟩
  rw [(flushLocked_frame _).1.finPending, unpending]
  simp

theorem Windowed.close (closed : c.close = some after) : after.Windowed := by
  have pending (open_ : c.Open) : ({ c with finPending := true } : TCPConn).Ready := by
    refine ⟨⟨windowed.flying.least, windowed.flying.most, windowed.flying.room⟩, windowed.idle,
      windowed.listens, ?_, windowed.late⟩
    rcases open_ with state | state <;> simp [Early, state]
  unfold TCPConn.close at closed
  split at closed
  next state =>
    cases closed
    rw [flushLocked_of_idle windowed.idle]
    exact (pending (.inl state)).trySendFinLocked
  next state =>
    cases closed
    exact (pending (.inr state)).trySendFinLocked
  · cases closed
    exact windowed
  · cases closed

end

theorem windowed_listening (port : UInt16) : (listening port).Windowed := by
  have nothing : (listening port).outstanding = 0 := by simp [outstanding, listening]
  refine windowed_of_blank rfl rfl rfl rfl ?_ ?_ fun _ => nothing
  · simp [Late, listening]
  · rw [nothing]
    exact Nat.zero_le 1

theorem windowed_dialed (port : UInt16) (raddr : IP4) (rport : UInt16) :
    (dialed port raddr rport).Windowed := by
  have bits : tcpSyn &&& (tcpSyn ||| tcpFin) ≠ 0 := by decide
  have bit : tcpSyn &&& tcpFin = 0 := by decide
  have one : (dialed port raddr rport).outstanding = 1 := by
    rw [dialed, outstanding_sendLocked, if_pos bits]
    · simp [outstanding]
    · simp [outstanding]
  refine windowed_of_blank rfl rfl rfl ?_ ?_ one.le ?_
  · simp [dialed, sendLocked, listening, bit]
  · simp [Late, dialed, sendLocked]
  · simp [dialed, sendLocked]

end TCPConn

end KernelLane.Tcp
