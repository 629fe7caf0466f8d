import KernelLane.Runs
import KernelLane.TcpDrain

namespace KernelLane.Tcp

open List TCPConn

/-!
# Handing over the tail of a stream

In an endless run whose peer acknowledges everything it is sent, the queue of
an end empties and a requested FIN follows, unless the peer's own FIN comes
before the queue fits into the window: then its tail stays where it is.
-/

variable {run : InfiniteRun SideStep}

/--
The peer acknowledges everything it is sent: while something is outstanding,
an acknowledgement comes that covers at least what had been sent by then.
-/
def Acknowledged (run : InfiniteRun SideStep) : Prop :=
  ∀ {instant}, (run.state instant).conn.sndUNA ≠ (run.state instant).conn.sndNXT →
    ∃ sent later src seg, instant ≤ sent ∧ sent ≤ later ∧ run.op later = .segment src seg ∧
      seg.has tcpAck = true ∧
      seg.ack = (run.state sent).conn.sndNXT

/--
All bytes accepted by writes are eventually handed to the link, and after an
accepted close a FIN follows them.
-/
def HandsOver (run : InfiniteRun SideStep) : Prop :=
  (∀ instant, ∃ later, instant ≤ later ∧
      (run.state instant).written <+: (run.state later).conn.sent) ∧
    ∀ instant, run.op instant = .close → (run.state instant).conn.close ≠ none → ∃ later,
      instant ≤ later ∧ FinBehind (run.state later).written (run.state later).conn.wire

theorem sound_run (fresh : (run.state 0).Fresh) :
    ∃ iss, ∀ instant, (run.state instant).Sound iss := by
  obtain ⟨iss, start⟩ := fresh.sound
  exact ⟨iss, run.invariant (fun sound step => sound.step step) start⟩

variable {instant : Nat} {iss : UInt32} {later : Nat} {start : Side} {ops : List SideOp}
  {rest : SideOp}

/--
What only waits for an acknowledgement happens: as long as it waits, the next
number stays the same, so the acknowledgement that comes is of everything.
-/
theorem eventually_acked (acknowledged : Acknowledged run) (waits done : Side → Prop) (out :
      ∀ {instant}, waits (run.state instant) →
        (run.state instant).conn.sndUNA ≠ (run.state instant).conn.sndNXT)
    (keeps : ∀ {instant}, waits (run.state instant) → done (run.state (instant + 1)) ∨
      waits (run.state (instant + 1)) ∧ (run.state (instant + 1)).conn.sndNXT =
        (run.state instant).conn.sndNXT)
    (acked : ∀ {instant src seg}, waits (run.state instant) → run.op instant = .segment src seg →
      seg.has tcpAck = true → seg.ack = (run.state instant).conn.sndNXT →
      done (run.state (instant + 1))) (start : waits (run.state instant)) :
    ∃ later, instant ≤ later ∧ done (run.state later) := by
  obtain ⟨sent, later, src, seg, after, afterwards, arrives, flag, number⟩ :=
    acknowledged (out start)
  have until_ (distance : Nat) : (∃ later, instant ≤ later ∧ done (run.state later)) ∨
      waits (run.state (instant + distance)) ∧ (run.state (instant + distance)).conn.sndNXT =
        (run.state instant).conn.sndNXT := by
    induction distance with
    | zero => exact .inr ⟨start, rfl⟩
    | succ distance hypothesis =>
      rcases hypothesis with finished | ⟨waiting, same⟩
      · exact .inl finished
      · rcases keeps waiting with finished | ⟨still, unchanged⟩
        · exact .inl ⟨_, by omega, finished⟩
        · exact .inr ⟨still, unchanged.trans same⟩
  obtain ⟨first, rfl⟩ := Nat.exists_eq_add_of_le after
  obtain ⟨second, rfl⟩ := Nat.exists_eq_add_of_le afterwards
  rcases until_ first with finished | ⟨_, sameSent⟩
  · exact finished
  rw [Nat.add_assoc] at arrives
  rcases until_ (first + second) with finished | ⟨waiting, sameLater⟩
  · exact finished
  · have finished := acked waiting arrives flag (number.trans (sameSent.trans sameLater.symm))
    exact ⟨_, by omega, finished⟩

theorem written_run (run : InfiniteRun SideStep) (after : instant ≤ later) :
    (run.state instant).written <+: (run.state later).written := by
  induction later, after using Nat.le_induction with
  | base => exact prefix_rfl
  | succ later _ hypothesis =>
    refine hypothesis.trans ?_
    rw [(run.next later).2]
    exact (run.op later).written_run _

theorem stranded_run (after : instant ≤ later)
    (waiting : (run.state instant).conn.state = .closeWait)
    (filled : (run.state instant).conn.sndBuf ≠ []) : (run.state later).conn.state = .closeWait ∧
      (run.state later).conn.sndBuf = (run.state instant).conn.sndBuf ∧
      (run.state later).conn.sent = (run.state instant).conn.sent := by
  induction later, after using Nat.le_induction with
  | base => exact ⟨waiting, rfl, rfl⟩
  | succ later _ hypothesis =>
    obtain ⟨state, queue, sent⟩ := hypothesis
    obtain ⟨nextState, nextQueue, nextSent⟩ :=
      Side.stranded_step state (by rwa [queue]) (run.next later)
    exact ⟨nextState, nextQueue.trans queue, nextSent.trans sent⟩

theorem close_requests {side : Side} (sound : side.Sound iss) (accepted : side.conn.close ≠ none) :
    (SideOp.close.run side).conn.finPending = true ∨ (SideOp.close.run side).conn.Late := by
  rw [SideOp.run]
  cases closed : side.conn.close with
  | none => exact absurd closed accepted
  | some conn =>
    by_cases open_ : side.conn.Open
    · rw [close_of_open open_ sound.windowed.idle, Option.some.injEq] at closed
      subst closed
      exact .inl (trySendFinLocked_frame _).finPending
    unfold close at closed
    split at closed
    next state => exact absurd (.inl state) open_
    next state => exact absurd (.inr state) open_
    next state =>
      cases closed
      exact .inr (.inr (.inr state))
    · cases closed

section

variable (sound : ∀ instant, (run.state instant).Sound iss)
include sound

theorem pending_run (after : instant ≤ later)
    (pending : (run.state instant).conn.finPending = true) :
    (run.state later).conn.finPending = true ∧
      (run.state later).written = (run.state instant).written := by
  induction later, after using Nat.le_induction with
  | base => exact ⟨pending, rfl⟩
  | succ later _ hypothesis =>
    obtain ⟨still, same⟩ := (sound later).pending_step hypothesis.1 (run.next later)
    exact ⟨still, same.trans hypothesis.2⟩

theorem not_handsOver_of_strands (strands : (run.state instant).conn.Strands (run.op instant)) :
    ¬ HandsOver run := by
  rintro ⟨handed, _⟩
  have step := run.next instant
  revert step strands
  cases run.op instant with
  | write | recv | close => exact fun none => none.elim
  | segment src seg =>
    rintro strands ⟨honest, next⟩
    have streaming := strands.1
    rw [(sound instant).windowed.strands_iff streaming honest.1 src,
      ← receive_of_begun (by simp [streaming]) src] at strands
    have after : (run.state (instant + 1)).conn =
      (run.state instant).conn.receive src seg := by rw [next]; rfl
    rw [← after] at strands
    obtain ⟨later, afterwards, whole⟩ := handed (instant + 1)
    obtain ⟨_, _, sent⟩ := stranded_run afterwards strands.1 strands.2
    rw [sent, ← (sound (instant + 1)).keeps.accepted, accepted] at whole
    have short := whole.length_le
    have queued := length_pos_iff.mpr strands.2
    rw [length_append] at short
    omega

variable (acknowledged : Acknowledged run)
include acknowledged

theorem eventually_late (draining : (run.state instant).Draining) :
    ∃ later, instant ≤ later ∧ (run.state later).conn.Late := by
  refine eventually_acked acknowledged Side.Draining (fun side => side.conn.Late) ?_ ?_ ?_ draining
  · intro other waiting same
    have flight := length_pos_iff.mpr ((sound other).flight waiting)
    have out := (sound other).outstanding_pos flight
    rw [outstanding, same, UInt32.sub_self] at out
    exact absurd out (by decide)
  · intro other waiting
    exact (sound other).draining_step waiting (run.next other)
  · intro other src seg waiting arrives flag number
    have step := run.next other
    rw [arrives] at step
    exact (sound other).draining_acked waiting step flag number

variable (unstranded : ∀ instant, ¬ (run.state instant).conn.Strands (run.op instant))
include unstranded

theorem eventually_sends (filled : (run.state instant).Filled) :
    ∃ later, instant ≤ later ∧ (run.state instant).conn.sent.length <
      (run.state later).conn.sent.length := by
  let sent := (run.state instant).conn.sent
  have start : (run.state instant).Filled ∧ (run.state instant).conn.sent = sent := ⟨filled, rfl⟩
  refine eventually_acked acknowledged (fun side => side.Filled ∧ side.conn.sent = sent)
    (fun side => sent.length < side.conn.sent.length)
    ?_ ?_ ?_ start
  · rintro other ⟨waiting, _⟩ same
    have cap : 0 < tcpWindowCap := by decide
    have out := (sound other).outstanding_pos (cap.trans_le ((sound other).full waiting))
    rw [outstanding, same, UInt32.sub_self] at out
    exact absurd out (by decide)
  · rintro other ⟨waiting, same⟩
    rcases (sound other).filled_step waiting (run.next other)
      (unstranded other) with more | ⟨still, unchanged, number⟩
    · rw [same] at more
      exact .inl more
    · exact .inr ⟨⟨still, unchanged.trans same⟩, number⟩
  · rintro other src seg ⟨waiting, same⟩ arrives flag number
    have step := run.next other
    rw [arrives] at step
    have more := (sound other).filled_acked waiting step flag number
    rwa [same] at more

variable (fresh : (run.state 0).Fresh)
include fresh

omit acknowledged in
theorem drained_run (instant : Nat) : (run.state instant).conn.state = .closeWait →
    (run.state instant).conn.sndBuf = [] := by
  induction instant with
  | zero =>
    intro waiting
    obtain ⟨_, _, ⟨port, opened⟩ | ⟨port, raddr, rport, opened⟩⟩ := fresh
    · rw [opened]
      rfl
    · rw [opened]
      rfl
  | succ instant hypothesis =>
    exact (sound instant).drained_step hypothesis (run.next instant) (unstranded instant)

theorem eventually_sent (instant : Nat) :
    ∃ later, instant ≤ later ∧ (run.state instant).written <+: (run.state later).conn.sent := by
  have reached : ∃ later, instant ≤ later ∧ instant ≤ later ∧ (run.state instant).written.length ≤
      (run.state later).conn.sent.length := by
    refine Fairness.descends (fun other rank =>
        instant ≤ other ∧ rank = (run.state instant).written.length -
          (run.state other).conn.sent.length)
      ?_ ⟨Nat.le_refl _, rfl⟩
    rintro other rank ⟨after, rfl⟩
    by_cases enough : (run.state instant).written.length ≤ (run.state other).conn.sent.length
    · exact ⟨other, Nat.le_refl _, .inl ⟨after, enough⟩⟩
    have longer := (written_run run after).length_le
    have whole := congrArg List.length (sound other).keeps.accepted
    rw [accepted, length_append] at whole
    have queued : (run.state other).conn.sndBuf ≠ [] := by
      rw [← length_pos_iff]
      omega
    have filled : (run.state other).Filled := by
      rcases (run.state other).conn.phases with early | open_ | late
      · exact absurd ((sound other).windowed.early early).1 queued
      · rcases open_ with streaming | waiting
        · exact ⟨streaming, queued⟩
        · exact absurd (drained_run sound unstranded fresh other waiting) queued
      · exact absurd ((sound other).late late).1 queued
    obtain ⟨later, afterwards, more⟩ := eventually_sends sound acknowledged unstranded filled
    exact ⟨later, afterwards, .inr ⟨_, by omega, after.trans afterwards, rfl⟩⟩
  obtain ⟨later, after, _, enough⟩ := reached
  exact ⟨later, after, prefix_of_prefix_length_le (written_run run after)
    (sound later).keeps.sent_le enough⟩

theorem eventually_fin (pending : (run.state instant).conn.finPending = true) :
    ∃ later, instant ≤ later ∧ (run.state later).conn.Late := by
  obtain ⟨middle, after, whole⟩ := eventually_sent sound acknowledged unstranded fresh instant
  obtain ⟨still, same⟩ := pending_run sound after pending
  have empty : (run.state middle).conn.sndBuf = [] := by
    have accepted := congrArg List.length (sound middle).keeps.accepted
    have short := whole.length_le
    rw [TCPConn.accepted, length_append, same] at accepted
    rw [← length_eq_zero_iff]
    omega
  rcases (run.state middle).conn.phases with early | open_ | late
  · have unpending := ((sound middle).windowed.early early).2.2
    exact absurd still (by simp [unpending])
  · obtain ⟨later, afterwards, late⟩ := eventually_late sound acknowledged ⟨open_, empty, still⟩
    exact ⟨later, after.trans afterwards, late⟩
  · exact ⟨middle, after, late⟩

end

/--
While the peer acknowledges everything it is sent, the bytes written to an end
and the FIN after them are all handed to the link exactly when the peer's own
FIN never arrives in order before the queue fits into the window.
-/
theorem tail_handed_over_iff (fresh : (run.state 0).Fresh) (acknowledged : Acknowledged run) :
    HandsOver run ↔ ∀ instant, ¬ (run.state instant).conn.Strands (run.op instant) := by
  obtain ⟨iss, sound⟩ := sound_run fresh
  constructor
  · intro handed instant strands
    exact not_handsOver_of_strands sound strands handed
  · intro unstranded
    refine ⟨eventually_sent sound acknowledged unstranded fresh, ?_⟩
    intro instant closes accepted
    have step := (run.next instant).2
    rw [closes] at step
    have requested := close_requests (sound instant) accepted
    rw [← step] at requested
    rcases requested with pending | late
    · obtain ⟨later, after, late⟩ := eventually_fin sound acknowledged unstranded fresh pending
      exact ⟨later, by omega, ((sound later).late late).2⟩
    · exact ⟨instant + 1, by omega, ((sound (instant + 1)).late late).2⟩

/-! ## Runs that settle -/

instance (c : TCPConn) (seg : TCPSegment) : Decidable (c.Honest seg) :=
  inferInstanceAs (Decidable (_ ∧ _))

instance (side : Side) (op : SideOp) : Decidable (op.Honest side) := by
  cases op <;> unfold SideOp.Honest <;> infer_instance

instance (c : TCPConn) (seg : TCPSegment) : Decidable (c.StaysFilled seg) :=
  inferInstanceAs (Decidable (_ ∧ _))

instance (c : TCPConn) (op : SideOp) : Decidable (c.Strands op) := by
  cases op <;> unfold TCPConn.Strands <;> infer_instance

/-- An end after so many of these operations and then the last one again and
again. -/
def settling (start : Side) (ops : List SideOp) (rest : SideOp) : Nat → Side
  | 0 => start
  | instant + 1 => (ops.getD instant rest).run (settling start ops rest instant)

section

variable (settled :
  rest.run (settling start ops rest ops.length) = settling start ops rest ops.length)
include settled

theorem settling_add (more : Nat) :
    settling start ops rest (ops.length + more) = settling start ops rest ops.length := by
  induction more with
  | zero => rfl
  | succ more hypothesis =>
    have last : ops.getD (ops.length + more) rest = rest := by simp
    rw [← Nat.add_assoc, settling, hypothesis, last, settled]

/-- What holds up to the last operation of a run that settles holds always. -/
theorem settling_holds
    (holds : Side → SideOp → Prop) (first : ∀ index : Fin (ops.length + 1),
      holds (settling start ops rest index) (ops.getD index rest)) (instant : Nat) :
    holds (settling start ops rest instant) (ops.getD instant rest) := by
  by_cases within : instant < ops.length + 1
  · exact first ⟨instant, within⟩
  obtain ⟨more, rfl⟩ := Nat.exists_eq_add_of_le (show ops.length ≤ instant by omega)
  have last (more : Nat) : ops.getD (ops.length + more) rest = rest := by simp
  have final := first ⟨ops.length, by omega⟩
  rw [settling_add settled, last]
  have same := last 0
  rw [Nat.add_zero] at same
  rwa [same] at final

end

/-- The endless run of an end that settles. -/
def settledRun (start : Side) (ops : List SideOp) (rest : SideOp) (settled :
      rest.run (settling start ops rest ops.length) = settling start ops rest ops.length)
    (honest : ∀ index : Fin (ops.length + 1),
      (ops.getD index rest).Honest (settling start ops rest index)) :
    InfiniteRun SideStep where
  state := settling start ops rest
  op := fun instant => ops.getD instant rest
  next := fun instant =>
    ⟨settling_holds settled (fun side op => op.Honest side) honest instant, rfl⟩

/-- A run that ends with acknowledgements of everything is acknowledged. -/
theorem acknowledged_settledRun
    {settled : rest.run (settling start ops rest ops.length) = settling start ops rest ops.length}
    {honest : ∀ index : Fin (ops.length + 1),
      (ops.getD index rest).Honest (settling start ops rest index)} {src : IP4}
    {seg : TCPSegment} (last : rest = .segment src seg) (flag : seg.has tcpAck = true)
    (number : seg.ack = (settling start ops rest ops.length).conn.sndNXT) :
    Acknowledged (settledRun start ops rest settled honest) := by
  intro instant _
  refine ⟨ops.length + instant, ops.length + instant, src, seg, by omega,
    Nat.le_refl _, ?_, flag, ?_⟩
  · rw [← last]
    simp [settledRun]
  · rw [number]
    exact congrArg (fun side => side.conn.sndNXT) (settling_add settled instant).symm

/-! ## A stranded tail and a drained one -/

def dialedSide : Side := ⟨.dialed 49152 2 80, [], []⟩

theorem dialedSide_fresh : dialedSide.Fresh := ⟨rfl, rfl, .inr ⟨49152, 2, 80, rfl⟩⟩

def peerSegment (flags : UInt8) (seq ack : UInt32) : SideOp :=
  .segment 2 ⟨80, 49152, seq, ack, flags, 1024, []⟩

def writeAndClose : List SideOp :=
  [peerSegment (tcpSyn ||| tcpAck) 7 1001, .write (replicate 1025 0), .close]

def strandedOps : List SideOp :=
  writeAndClose ++ [peerSegment (tcpFin ||| tcpAck) 8 1001, peerSegment tcpAck 9 2025]

def drainedOps : List SideOp :=
  writeAndClose ++ [peerSegment tcpAck 8 2025, peerSegment (tcpFin ||| tcpAck) 8 2025,
    peerSegment tcpAck 9 2026, peerSegment tcpAck 9 2027]

def strandedRun : InfiniteRun SideStep :=
  settledRun dialedSide strandedOps (peerSegment tcpAck 9 2025)
    (by decide +kernel) (by decide +kernel)

def drainedRun : InfiniteRun SideStep :=
  settledRun dialedSide drainedOps (peerSegment tcpAck 9 2027)
    (by decide +kernel) (by decide +kernel)

/-- One byte stays in the queue for ever, and no FIN is sent. -/
theorem tail_stranded : (strandedRun.state 0).Fresh ∧ Acknowledged strandedRun ∧
    ¬ HandsOver strandedRun := by
  refine ⟨dialedSide_fresh, ?_, ?_⟩
  · exact acknowledged_settledRun rfl (by decide) (by decide +kernel)
  · have fresh : (strandedRun.state 0).Fresh := dialedSide_fresh
    obtain ⟨iss, sound⟩ := sound_run fresh
    have strands : (strandedRun.state 3).conn.Strands (strandedRun.op 3) := by decide +kernel
    exact not_handsOver_of_strands sound strands

/-- The same bytes are all handed over when the FIN comes later. -/
theorem tail_drained : HandsOver drainedRun := by
  refine (tail_handed_over_iff dialedSide_fresh ?_).mpr fun instant => ?_
  · exact acknowledged_settledRun rfl (by decide) (by decide +kernel)
  · exact settling_holds (by decide +kernel)
      (fun side op => ¬ side.conn.Strands op) (by decide +kernel) instant

end KernelLane.Tcp
