import KernelLane.KernCaps
import KernelLane.KernRequests

namespace KernelLane.Kern

open Fairness List KernOp

/-!
# Direct replies of the kernel endpoints

The handle of a direct request leads to the endpoint's own port, which every
session that binds the endpoint shares.  An answer is therefore private only
while one session holds the endpoint; it is delivered when there is room for
it and its session lives on.
-/

/-! ## Endless histories -/

/-- An endless history of the kernel. -/
abbrev History := InfiniteRun fun before (op : KernOp) after => op.run before = after

/-- A datagram with the session it belongs to: a slot, and which of the
sessions that had the slot one after the other. -/
structure Parcel where
  msg : Msg
  life : Nat
  deriving DecidableEq, Repr

namespace History

variable (run : History)

def life (sid : UInt32) : Nat → Nat
  | 0 => 0
  | instant + 1 =>
    life sid instant +
      if (run.op instant).ends (run.state instant) sid then 1 else 0

def parcel (instant : Nat) (msg : Msg) : Parcel := ⟨msg, run.life msg.fromSid instant⟩

def answers (index : Nat) : Nat → List Parcel
  | 0 => []
  | instant + 1 =>
    answers index instant ++ (atPort index ((run.op instant).answered (run.state instant))).map
      (run.parcel instant)

def receipts (index : Nat) : Nat → List Parcel
  | 0 => []
  | instant + 1 =>
    receipts index instant ++ (atPort index ((run.op instant).received (run.state instant))).map
      (run.parcel instant)

/-- All operations of a history are direct and solitary. -/
def Solitary : Prop :=
  ∀ instant, (run.op instant).Direct (run.state instant) ∧
    (run.op instant).Solitary (run.state instant)

/-- What is queued on an endpoint is answered and not yet received. -/
structure Waits (instant : Nat) (queues : Nat → List Msg) : Prop where
  priv : (run.state instant).ports.Private queues
  accounts : ∀ {index}, (run.state instant).ports.IsEndpoint index → run.answers index instant =
    run.receipts index instant ++ (queues index).map (run.parcel instant)

variable {run}

variable {instant : Nat} {queues : Nat → List Msg} {index : Nat}

theorem Waits.lives (solitary : run.Solitary) (waits : run.Waits instant queues)
    (endpoint : (run.state instant).ports.IsEndpoint index) {msg : Msg}
    (member : msg ∈ queues index) :
    (run.op instant).ends (run.state instant) msg.fromSid = false := by
  rw [← Bool.not_eq_true]
  intro ends
  obtain ⟨h, found⟩ := waits.priv.owned endpoint member
  have known := (Ports.portOf_eq_some_iff.mp found).2.2
  exact not_noneQueued_of_mem waits.priv.are known member ((solitary instant).2.idle ends)

theorem lives_of_answered {kernel : Kernel} {op : KernOp} {msg : Msg}
    (member : msg ∈ atPort index (op.answered kernel)) : op.ends kernel msg.fromSid = false := by
  have answered := mem_atPort.mp member
  cases op with
  | send env sid h data =>
    simp only [KernOp.answered] at answered
    split at answered
    · split at answered
      · cases answered
      next lives =>
        simp only [Option.bind_eq_bind, Option.bind_eq_some_iff,
          Option.pure_def, Option.some.injEq, Prod.mk.injEq] at answered
        obtain ⟨_, _, _, _, _, rfl⟩ := answered
        simp only [not_or, Bool.not_eq_true] at lives
        exact lives.2.2
    · cases answered
  | _ => cases answered

theorem Waits.step (solitary : run.Solitary) {instant : Nat} {queues : Nat → List Msg}
    (waits : run.Waits instant queues) :
    ∃ next, run.Waits (instant + 1) next ∧ ∀ {index}, (run.state instant).ports.IsEndpoint index →
      queues index ++ atPort index ((run.op instant).answered (run.state instant)) =
        atPort index ((run.op instant).received (run.state instant)) ++ next index := by
  obtain ⟨direct, alone⟩ := solitary instant
  obtain ⟨next, nextPrivate, moved⟩ := Kernel.private_step waits.priv direct alone
  have after := run.next instant
  refine ⟨next, ⟨after ▸ nextPrivate, ?_⟩, fun {index} => moved index⟩
  intro index stillEndpoint
  have endpoint : (run.state instant).ports.IsEndpoint index := by
    rw [← after] at stillEndpoint
    exact (isEndpoint_run _ _ index).mp stillEndpoint
  -- Nobody whose datagram is queued ends in this step.
  have current : (next index).map (run.parcel instant) =
      (next index).map (run.parcel (instant + 1)) := by
    refine map_congr_left fun msg member => ?_
    have before : msg ∈ queues index ++
        atPort index ((run.op instant).answered (run.state instant)) := by
      rw [moved index endpoint]
      exact mem_append_right _ member
    have lives : (run.op instant).ends (run.state instant) msg.fromSid = false := by
      rcases mem_append.mp before with old | new
      · exact waits.lives solitary endpoint old
      · exact lives_of_answered new
    simp [parcel, life, lives]
  calc
    run.answers index (instant + 1) = run.receipts index instant ++ (queues index ++ atPort index
          ((run.op instant).answered (run.state instant))).map
        (run.parcel instant) := by
      rw [answers, waits.accounts endpoint, map_append, append_assoc]
    _ = run.receipts index (instant + 1) ++ (next index).map (run.parcel (instant + 1)) := by
      rw [moved index endpoint, map_append, current, receipts, append_assoc]

theorem waits_boot (boot : (run.state 0).ports = portsInit) : run.Waits 0 fun _ => [] := by
  constructor
  · rw [boot]
    refine ⟨portsInit_queues, ?_, ?_, fun _ => rfl⟩
    · rintro index sid other _ ⟨h, found⟩ _
      have stored := (Ports.portOf_eq_some_iff.mp found).2.1
      cases stored
    · intro index msg _ member
      cases member
  · intro index _
    rfl

theorem waits (boot : (run.state 0).ports = portsInit) (solitary : run.Solitary) (instant : Nat) :
    ∃ queues, run.Waits instant queues := by
  induction instant with
  | zero => exact ⟨_, waits_boot boot⟩
  | succ instant hypothesis =>
    obtain ⟨queues, current⟩ := hypothesis
    obtain ⟨next, later, _⟩ := current.step solitary
    exact ⟨next, later⟩

theorem answers_prefix (run : History) (index : Nat) {later : Nat} (after : instant ≤ later) :
    run.answers index instant <+: run.answers index later := by
  induction after with
  | refl => exact prefix_rfl
  | step _ hypothesis => exact hypothesis.trans (prefix_append _ _)

theorem length_receipts_succ (run : History) (index instant : Nat) :
    (run.receipts index (instant + 1)).length = (run.receipts index instant).length + (atPort index
      ((run.op instant).received (run.state instant))).length := by
  rw [receipts, length_append, length_map]

theorem length_atPort (index : Nat) (sent : Option (Nat × Msg)) :
    (atPort index sent).length ≤ 1 := by
  unfold atPort
  split
  · split <;> simp
  · simp

theorem isEndpoint_state (run : History) (index instant distance : Nat) :
    (run.state (instant + distance)).ports.IsEndpoint index ↔
      (run.state instant).ports.IsEndpoint index := by
  induction distance with
  | zero => rfl
  | succ distance hypothesis =>
    rw [← hypothesis, ← Nat.add_assoc, ← run.next (instant + distance)]
    exact isEndpoint_run _ _ index

theorem received_of_poll {kernel : Kernel} (are : kernel.ports.QueuesAre queues)
    (running : kernel.halted = false) {sid : UInt32} {h : Int}
    (found : kernel.ports.portOf sid h = some index) (filled : queues index ≠ []) :
    ∃ msg, (recv sid h).received kernel = some (index, msg) := by
  simp only [received, running, Bool.false_eq_true, if_false]
  rw [are.portRecv_eq found]
  cases shape : queues index with
  | nil => exact absurd shape filled
  | cons msg rest => exact ⟨_, rfl⟩

/-- A session that polls its handle again and again receives its answers. -/
theorem received_eventually (boot : (run.state 0).ports = portsInit) (solitary : run.Solitary)
    {sid : UInt32} {h : Int} (endpoint : (run.state instant).ports.IsEndpoint index)
    (found : (run.state instant).ports.portOf sid h = some index)
    (lives : ∀ {later}, instant ≤ later → (run.op later).ends (run.state later) sid = false)
    (polls : Recurs fun later => run.op later = .recv sid h ∧ (run.state later).halted = false) :
    ∃ later, run.answers index instant <+: run.receipts index later := by
  let pending := fun later rank =>
    instant ≤ later ∧ (run.receipts index later).length + rank =
        (run.answers index instant).length ∧
      (run.state later).ports.portOf sid h = some index
  let met := fun later =>
    instant ≤ later ∧ (run.answers index instant).length ≤ (run.receipts index later).length
  have endpointAt {later : Nat} (after : instant ≤ later) :
      (run.state later).ports.IsEndpoint index := by
    obtain ⟨distance, rfl⟩ := Nat.exists_eq_add_of_le after
    exact (run.isEndpoint_state index instant distance).mpr endpoint
  have handleNext {later : Nat} (after : instant ≤ later)
      (here : (run.state later).ports.portOf sid h = some index) :
      (run.state (later + 1)).ports.portOf sid h = some index := by
    rw [← run.next later]
    exact portOf_run (endpointAt after) here (lives after)
  have keeps {later rank : Nat} (waiting : pending later rank) :
      met later ∨ ∃ lower, lower ≤ rank ∧ pending (later + 1) lower := by
    obtain ⟨after, owed, here⟩ := waiting
    by_cases done : rank = 0
    · exact .inl ⟨after, by omega⟩
    have grown := run.length_receipts_succ index later
    have small := length_atPort index ((run.op later).received (run.state later))
    exact .inr ⟨rank - (atPort index ((run.op later).received (run.state later))).length,
      by omega, by omega, by omega, handleNext after here⟩
  have falls {later rank : Nat} (waiting : pending later rank) (turn :
        run.op later = .recv sid h ∧ (run.state later).halted = false) :
      met later ∨ ∃ lower, lower < rank ∧ pending (later + 1) lower := by
    obtain ⟨after, owed, here⟩ := waiting
    by_cases done : rank = 0
    · exact .inl ⟨after, by omega⟩
    obtain ⟨queues, balanced⟩ := run.waits boot solitary later
    have accounts := balanced.accounts (endpointAt after)
    have accumulated := (run.answers_prefix index after).length_le
    have filled : queues index ≠ [] := by
      intro empty
      rw [accounts, empty, map_nil, append_nil] at accumulated
      omega
    obtain ⟨msg, received⟩ := received_of_poll balanced.priv.are turn.2 here filled
    have grown := run.length_receipts_succ index later
    rw [turn.1, received, atPort_self, length_singleton] at grown
    exact .inr ⟨rank - 1, by omega, by omega, by omega, handleNext after here⟩
  obtain ⟨queues, balanced⟩ := run.waits boot solitary instant
  have accounts := congrArg List.length (balanced.accounts endpoint)
  rw [length_append] at accounts
  have start : pending instant ((run.answers index instant).length -
      (run.receipts index instant).length) :=
    ⟨Nat.le_refl _, by omega, found⟩
  obtain ⟨later, _, after, reached⟩ := eventually_met keeps falls polls start
  obtain ⟨laterQueues, laterBalanced⟩ := run.waits boot solitary later
  have laterAccounts := laterBalanced.accounts (endpointAt after)
  refine ⟨later, prefix_of_prefix_length_le (run.answers_prefix index after) ?_ reached⟩
  rw [laterAccounts]
  exact prefix_append _ _

end History

/--
In every solitary history of direct requests, what is received from an
endpoint is, in order, what its requests were answered, each by the session
that sent the request; and a session that lives on and keeps polling its
handle receives the answer to every request it has sent through it.
-/
theorem direct_replies_private (run : History) (boot : (run.state 0).ports = portsInit)
    (solitary : run.Solitary) : (∀ instant index, (run.state instant).ports.IsEndpoint index →
        run.receipts index instant <+: run.answers index instant) ∧
      ∀ instant env sid h data endpoint frame, run.op instant = .send env sid h data →
        (run.state instant).halted = false → ((run.state instant).ports.portSend
            ((run.state instant).sched.uidOf sid) env.allocOk sid h data).1 =
          .dispatched endpoint frame → endpoint ∈ kernelEndpoints → 24 ≤ frame.length →
        (∀ later, instant ≤ later → (run.op later).ends (run.state later) sid = false) →
        (Recurs fun later => run.op later = .recv sid h ∧ (run.state later).halted = false) →
        ∃ index answer later, (run.state instant).ports.portOf sid h = some index ∧
          (run.state instant).answerTo env endpoint sid frame = some answer ∧
          run.answers index instant ++ [run.parcel instant ⟨sid, answer⟩] <+:
            run.receipts index later := by
  constructor
  · intro instant index endpoint
    obtain ⟨queues, balanced⟩ := History.waits boot solitary instant
    rw [balanced.accounts endpoint]
    exact prefix_append _ _
  · intro instant env sid h data endpoint frame sends running sent known long lives polls
    obtain ⟨index, found, isEndpoint, _⟩ := Kernel.portSend_dispatched sent
    have bounded : env.Bounded := by
      have direct := (solitary instant).1
      rw [sends] at direct
      exact direct.1
    obtain ⟨answer, answered⟩ := (run.state instant).answerTo_isSome bounded known sid frame
    have survives := lives instant (Nat.le_refl _)
    have queued : run.answers index (instant + 1) = run.answers index instant ++
        [run.parcel instant ⟨sid, answer⟩] := by
      rw [sends] at survives
      have accepted : (run.op instant).answered (run.state instant) =
          some (index, ⟨sid, answer⟩) := by
        simp [sends, KernOp.answered, sent, running, Nat.not_lt.mpr long, survives, found, answered]
      rw [History.answers, accepted, atPort_self]
      rfl
    have endpointAfter : (run.state (instant + 1)).ports.IsEndpoint index :=
      (run.isEndpoint_state index instant 1).mpr isEndpoint
    have foundAfter : (run.state (instant + 1)).ports.portOf sid h = some index := by
      rw [← run.next instant]
      exact KernOp.portOf_run isEndpoint found survives
    obtain ⟨later, received⟩ :=
      History.received_eventually boot solitary endpointAfter foundAfter
        (fun {later} after => lives later (by omega)) polls
    exact ⟨index, answer, later, found, answered, queued ▸ received⟩

/-! ## Two sessions at one endpoint -/

def historyFrom (start : Kernel) (ops : Nat → KernOp) : History where
  state := Nat.rec start fun instant kernel => (ops instant).run kernel
  op := ops
  next := fun _ => rfl

/--
Both sessions bind the registry and session 1 asks for the session list.
Session 2 receives once before session 1 polls for ever.
-/
def sharedEndpoint : Nat → KernOp
  | 0 => .bind 1 (ascii "registry")
  | 1 => .bind 2 (ascii "registry")
  | 2 => .send plainEnv 1 0 (registryFrame 1 [])
  | 3 => .recv 2 0
  | _ => .recv 1 0

theorem plainEnv_bounded : plainEnv.Bounded where
  sysstat := by decide
  logdump := fun _ => show 0 + 28 ≤ msgMax by decide
  perfstat := by decide
  devices := by decide

/--
The answer to session 1 is received by session 2, and session 1 finds the
queue of the endpoint empty.
-/
theorem shared_endpoint_leaks : (∀ instant,
      ((historyFrom (twoSessions 0) sharedEndpoint).op instant).Direct
        ((historyFrom (twoSessions 0) sharedEndpoint).state instant)) ∧
    ((historyFrom (twoSessions 0) sharedEndpoint).answers 0 4).map
      (fun item => item.msg.fromSid) = [1] ∧
    ((historyFrom (twoSessions 0) sharedEndpoint).receipts 0 4).map
      (fun item => item.msg.fromSid) = [2] ∧
    (((historyFrom (twoSessions 0) sharedEndpoint).state 4).ports.portRecv 1 0).1 = .empty := by
  refine ⟨?_, by decide +kernel, by decide +kernel, by decide +kernel⟩
  intro instant
  match instant with
  | 2 =>
    refine ⟨plainEnv_bounded, ?_⟩
    intro endpoint frame sent
    obtain ⟨_, _, _, rfl⟩ := Kernel.portSend_dispatched sent
    decide +kernel
  | 0 | 1 | 3 | _ + 4 => trivial

def loneEndpoint : Nat → KernOp
  | 0 => .bind 1 (ascii "registry")
  | 1 => .send plainEnv 1 0 (registryFrame 1 [])
  | _ => .recv 1 0

def loneHistory : History := historyFrom (twoSessions 0) loneEndpoint

theorem loneHistory_ends (instant : Nat) (sid : UInt32) :
    (loneHistory.op instant).ends (loneHistory.state instant) sid = false := by
  match instant with
  | 0 => rfl
  | 1 =>
    have ops : (loneHistory.op 1).portOps (loneHistory.state 1) = [.kernelEnqueue true 1 0
        (((loneHistory.state 1).answerTo plainEnv (ascii "registry") 1
          (stampUid 1 (registryFrame 1 []))).getD [])] := by
      decide +kernel
    show contains _ _ = false
    rw [ops]
    simp
  | later + 2 =>
    show contains _ _ = false
    simp only [portOps, loneHistory, historyFrom, loneEndpoint]
    split <;> simp

theorem loneHistory_solitary : loneHistory.Solitary := by
  intro instant
  refine ⟨?_, ?_, ?_, ?_⟩
  · match instant with
    | 1 =>
      refine ⟨plainEnv_bounded, ?_⟩
      intro endpoint frame sent
      obtain ⟨_, _, _, rfl⟩ := Kernel.portSend_dispatched sent
      decide +kernel
    | 0 | _ + 2 => trivial
  · intro sid name index other binds _ _ holds
    match instant with
    | 0 =>
      obtain ⟨h, found⟩ := holds
      have stored := (Ports.portOf_eq_some_iff.mp found).2.1
      cases stored
    | 1 | _ + 2 => cases binds
  · intro env sid h data index sends found _
    match instant with
    | 1 =>
      cases sends
      have there : (loneHistory.state 1).ports.portOf 1 0 = some 0 := by decide +kernel
      obtain rfl : index = 0 := by simpa using found.symm.trans there
      exact ⟨rfl, by decide +kernel⟩
    | 0 | _ + 2 => cases sends
  · intro sid ends
    rw [loneHistory_ends] at ends
    cases ends

theorem loneHistory_running (instant : Nat) : (loneHistory.state (instant + 2)).halted = false := by
  induction instant with
  | zero => decide +kernel
  | succ instant hypothesis =>
    rw [← loneHistory.next (instant + 2)]
    show (run (loneHistory.state (instant + 2)) (.recv 1 0)).halted = false
    simp [run, hypothesis]

/-- Session 1 receives the list it has asked for. -/
theorem direct_reply_to_lone_session : loneHistory.Solitary ∧ ∃ index answer later,
    (loneHistory.state 1).ports.portOf 1 0 = some index ∧
      (loneHistory.state 1).answerTo plainEnv (ascii "registry") 1
        (stampUid 1 (registryFrame 1 [])) = some answer ∧
      loneHistory.answers index 1 ++ [loneHistory.parcel 1 ⟨1, answer⟩] <+:
        loneHistory.receipts index later := by
  refine ⟨loneHistory_solitary, ?_⟩
  refine (direct_replies_private loneHistory rfl loneHistory_solitary).2 1
    plainEnv 1 0 (registryFrame 1 []) (ascii "registry")
    (stampUid 1 (registryFrame 1 [])) rfl rfl (by decide +kernel)
    (by decide +kernel) (by decide +kernel)
    (fun later _ => loneHistory_ends later 1) ?_
  intro instant
  exact ⟨instant + 2, by omega, rfl, loneHistory_running instant⟩

end KernelLane.Kern
