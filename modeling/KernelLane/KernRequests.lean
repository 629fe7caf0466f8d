import KernelLane.KernPrivacy

namespace KernelLane.Kern

open GuestFrame List KernOp UInt32 Ports

/-!
# Direct requests

A request without a reply name is answered on the handle it was sent through.
While the endpoints are private and there is room for the answers, each
request appends its answer to the queue of its endpoint and each receive
returns an answer to the session that waits for it.
-/

/-! ## Answers fit the reply buffer -/

def kernelEndpoints : List Bytes := [ascii "registry", ascii "devman", ascii "power"]

/--
What the rest of the kernel answers fits the reply buffer: at most 4096 bytes
with the header and the status in front.
-/
structure SvcEnv.Bounded (env : SvcEnv) : Prop where
  sysstat : env.sysstat.length + 28 ≤ msgMax
  logdump : ∀ offset, (env.logdump offset).length + 28 ≤ msgMax
  perfstat : env.perfstat.length + 28 ≤ msgMax
  devices : env.devices.length + 24 ≤ msgMax

theorem length_flatMap_le {α : Type} (items : List α) (record : α → Bytes) (bound : Nat)
    (small : ∀ item, (record item).length ≤ bound) :
    (items.flatMap record).length ≤ items.length * bound := by
  induction items with
  | nil => simp
  | cons item rest hypothesis =>
    simp only [flatMap_cons, length_append, length_cons]
    have head := small item
    rw [Nat.succ_mul]
    omega

/-- There is an answer, and its body leaves room for the header. -/
def Reply.Fits : Reply → Prop
  | .answer _ body => body.length + 24 ≤ msgMax
  | .silent => False
  | _ => True

namespace Kernel

variable (kernel : Kernel)

theorem registryList_fits (env : SvcEnv) : (kernel.registryList env).Fits := by
  have few : kernel.sched.list.length ≤ maxSessions := by
    have all := length_filter_le (fun slot => decide ((kernel.sched.sessions slot).status ≠ .free))
      (range maxSessions)
    simpa [Sched.list] using all
  have records := length_flatMap_le kernel.sched.list (fun slot =>
      put32 (ofNat slot) ++ put32 (kernel.sched.sessions slot).uid ++
        [(kernel.sched.sessions slot).status.code] ++
        ((kernel.sched.sessions slot).name ++ [0] ++ env.nameTail slot).take 15 ++ [0] ++
        [kernel.sched.capSource (ofNat slot)])
    26 (by
      intro slot
      simp only [length_append, length_put32, length_take, length_singleton]
      omega)
  simp only [registryList, Reply.Fits]
  rw [length_append, length_put32]
  simp only [maxSessions] at few
  simp only [msgMax]
  omega

theorem registryCaps_fits (payload : Bytes) : (kernel.registryCaps payload).Fits := by
  have few (mask : UInt64) : ((range 13).filter fun bit =>
      decide (mask &&& ((1 : UInt64) <<< UInt64.ofNat bit) ≠ 0)).length ≤
      13 := by
    have all := length_filter_le
      (fun bit => decide (mask &&& ((1 : UInt64) <<< UInt64.ofNat bit) ≠ 0))
      (range 13)
    simpa using all
  have records (bits : List Nat) := length_flatMap_le bits (fun bit =>
      put32 (ofNat bit) ++ put64 ((1 : UInt64) <<< UInt64.ofNat bit))
    12 (by simp)
  simp only [registryCaps, Reply.Fits]
  rw [length_append]
  have total (mask : UInt64) := (records _).trans (Nat.mul_le_mul_right 12 (few mask))
  exact Nat.le_trans (Nat.add_le_add_right (Nat.add_le_add_left (total _) 4) 24) (by decide)

theorem registry_status_fits (env : SvcEnv) (sid : UInt32) (payload : Bytes) :
    (kernel.registryKill sid payload).1.Fits ∧ (kernel.registrySpawn env sid payload).1.Fits ∧
      (kernel.registryLogin sid payload).1.Fits ∧ (kernel.registrySetconf sid payload).1.Fits ∧
      (kernel.registryAssignPci env sid payload).Fits ∧ (kernel.registryChcaps sid payload).1.Fits ∧
      (kernel.registryKnobsSet sid payload).1.Fits := by
  have status (rop : UInt16) (word : UInt32) : (Reply.answer rop (put32 word)).Fits := by
    simp [Reply.Fits, msgMax]
  refine ⟨?_, ?_, ?_, ?_, ?_, ?_, ?_⟩
  · unfold registryKill
    split
    · trivial
    · exact status 3 _
  · unfold registrySpawn
    dsimp only
    split
    · trivial
    split
    · trivial
    split
    · trivial
    split
    · trivial
    · exact status 4 _
  · unfold registryLogin
    split
    · trivial
    split
    · trivial
    dsimp only
    split
    · trivial
    split
    · trivial
    · exact status 5 _
  · unfold registrySetconf
    split
    · trivial
    split
    · trivial
    · exact status 6 _
  · unfold registryAssignPci
    split
    · trivial
    split
    · trivial
    · exact status 7 _
  · unfold registryChcaps
    split
    · trivial
    split
    · trivial
    · exact status 10 _
  · unfold registryKnobsSet
    split
    · trivial
    split
    · trivial
    · exact status 12 _

theorem registryKnobsGet_fits (env : SvcEnv) (payload : Bytes) :
    (kernel.registryKnobsGet env payload).Fits := by
  unfold registryKnobsGet
  split
  · trivial
  simp only [Reply.Fits, length_append, length_put32, length_put64, msgMax]
  split
  · rw [length_take]
    omega
  · rw [length_replicate]
    omega

variable {env : SvcEnv}

section

variable (bounded : env.Bounded)
include bounded

theorem registry_fits (sid : UInt32) (op : UInt16) (payload : Bytes) :
    (kernel.registry env sid op payload).1.Fits := by
  obtain ⟨kill, spawn, login, setconf, assign, chcaps, knobsSet⟩ :=
    kernel.registry_status_fits env sid payload
  unfold registry
  split
  case h_1 => exact kernel.registryList_fits env
  case h_2 => exact kernel.registryCaps_fits payload
  case h_3 => exact kill
  case h_4 => exact spawn
  case h_5 => exact login
  case h_6 => exact setconf
  case h_7 => exact assign
  case h_8 =>
    have bound := bounded.sysstat
    simp only [Reply.Fits, length_append, length_put32]
    omega
  case h_9 =>
    have bound := bounded.logdump (if 8 ≤ payload.length then get64 payload 0 else 0)
    simp only [Reply.Fits, length_append, length_put32]
    omega
  case h_10 => exact chcaps
  case h_11 => exact kernel.registryKnobsGet_fits env payload
  case h_12 => exact knobsSet
  case h_13 =>
    have bound := bounded.perfstat
    simp only [Reply.Fits, length_append, length_put32]
    omega
  case h_14 => trivial

theorem serve_fits (endpoint : Bytes) (sid : UInt32) (op : UInt16)
    (payload : Bytes) : (kernel.serve env endpoint sid op payload).1.Fits ∨
      (kernel.serve env endpoint sid op payload).1 = .silent ∧ endpoint ∉ kernelEndpoints := by
  unfold serve
  split
  · exact .inl (kernel.registry_fits bounded sid op payload)
  next notRegistry =>
  split
  · left
    unfold devman
    split
    · trivial
    split
    · exact bounded.devices
    · trivial
  next notDevman =>
  split
  · left
    unfold power
    split
    · trivial
    split
    · simp [Reply.Fits, msgMax]
    · trivial
  next notPower =>
  exact .inr ⟨rfl, by simp [kernelEndpoints, notRegistry, notDevman, notPower]⟩

theorem answerTo_length {endpoint : Bytes} {sid : UInt32}
    {frame answer : Bytes} (answered : kernel.answerTo env endpoint sid frame = some answer) :
    0 < answer.length ∧ answer.length ≤ msgMax := by
  have fits := kernel.serve_fits bounded endpoint sid (get16 frame 0) (frame.drop 24)
  rcases fits with fits | ⟨silent, _⟩
  swap
  · simp [answerTo, silent, Reply.frame] at answered
  unfold answerTo at answered
  revert answered fits
  cases (kernel.serve env endpoint sid (get16 frame 0) (frame.drop 24)).1 with
  | answer rop body =>
    intro answered fits
    simp only [Reply.frame, Option.some.injEq] at answered
    subst answered
    simp only [Reply.Fits] at fits
    simp only [kbegin, length_append, length_put16, length_put32, length_replicate]
    omega
  | knack =>
    intro answered _
    simp only [Reply.frame, Option.some.injEq] at answered
    subst answered
    simp [kbegin, msgMax]
  | nack =>
    intro answered _
    simp only [Reply.frame, Option.some.injEq] at answered
    subst answered
    simp only [length_append, length_put16, length_put32, length_take, msgMax]
    omega
  | silent =>
    intro answered _
    cases answered

theorem answerTo_isSome {endpoint : Bytes}
    (known : endpoint ∈ kernelEndpoints) (sid : UInt32) (frame : Bytes) :
    ∃ answer, kernel.answerTo env endpoint sid frame = some answer := by
  have fits := kernel.serve_fits bounded endpoint sid (get16 frame 0) (frame.drop 24)
  rcases fits with fits | ⟨_, unknown⟩
  · unfold answerTo
    revert fits
    cases (kernel.serve env endpoint sid (get16 frame 0) (frame.drop 24)).1 with
    | silent => exact False.elim
    | _ =>
      intro _
      exact ⟨_, rfl⟩
  · exact absurd known unknown

end

end Kernel

/-! ## Solitary operations -/

/-- Requests to the kernel endpoints name no reply port. -/
def KernOp.Direct (kernel : Kernel) : KernOp → Prop
  | .send env sid h data =>
    env.Bounded ∧ ∀ endpoint frame,
      (kernel.ports.portSend (kernel.sched.uidOf sid) env.allocOk sid h
        data).1 = .dispatched endpoint frame →
      (routeOf sid h frame).rname = []
  | _ => True

/--
A session binds an endpoint only when no other session holds it, sends a
request to it only when there is room and memory for the answer, and ends only
when none of its datagrams is queued.
-/
structure KernOp.Solitary (kernel : Kernel) (op : KernOp) : Prop where
  binds : ∀ {sid name index other}, op = .bind sid name →
    kernel.ports.portByName name = some index →
    kernel.ports.IsEndpoint index →
    kernel.ports.Holder index other →
    other = sid
  room : ∀ {env sid h data index}, op = .send env sid h data →
    kernel.ports.portOf sid h = some index →
    kernel.ports.IsEndpoint index →
    env.allocOk = true ∧ (kernel.ports.ports index).qn < ofNat maxQ
  idle : ∀ {sid}, op.ends kernel sid = true → kernel.ports.NoneQueued sid

/-- The answer to a request whose session lives on, and where it goes. -/
def KernOp.answered (kernel : Kernel) (op : KernOp) : Option (Nat × Msg) :=
  match op with
  | .send env sid h data =>
    match (kernel.ports.portSend (kernel.sched.uidOf sid) env.allocOk sid h data).1 with
    | .dispatched endpoint frame =>
      if kernel.halted ∨ frame.length < 24 ∨ op.ends kernel sid then none
      else do
        let index ← kernel.ports.portOf sid h
        let answer ← kernel.answerTo env endpoint sid frame
        return (index, ⟨sid, answer⟩)
    | _ => none
  | _ => none

def KernOp.received (kernel : Kernel) : KernOp → Option (Nat × Msg)
  | .recv sid h =>
    if kernel.halted then none
    else
      match (kernel.ports.portRecv sid h).1 with
      | .received index msg => some (index, ⟨sid, msg.data⟩)
      | _ => none
  | _ => none

def atPort (index : Nat) : Option (Nat × Msg) → List Msg
  | some (port, msg) => if port = index then [msg] else []
  | none => []

theorem atPort_self (index : Nat) (msg : Msg) : atPort index (some (index, msg)) = [msg] :=
  if_pos rfl

variable {index : Nat}

theorem mem_atPort {msg : Msg} {sent : Option (Nat × Msg)} :
    msg ∈ atPort index sent ↔ sent = some (index, msg) := by
  unfold atPort
  split
  · split
    next same => simp [same, eq_comm]
    next different => simp [different]
  · simp

/-- An answer with room and memory is queued behind its session's handle. -/
theorem Ports.kernelEnqueue_of_room {state : Ports} {sid : UInt32} {h : Int} {data : Bytes}
    (found : state.portOf sid h = some index) (fits : 0 < data.length ∧ data.length ≤ msgMax)
    (room : (state.ports index).qn < ofNat maxQ) :
    (state.kernelEnqueue true sid h data).1 = .queued index ⟨sid, data⟩ := by
  have proper : ¬ (data.length = 0 ∨ msgMax < data.length) := by omega
  have notFull : ¬ ofNat maxQ ≤ (state.ports index).qn := by
    rw [lt_iff_toNat_lt] at room
    rw [le_iff_toNat_le]
    omega
  rw [kernelEnqueue, found]
  dsimp only
  rw [if_neg proper, enqueueAt, if_neg notFull, if_neg (by decide)]

namespace Kernel

variable {kernel : Kernel} {queues : Nat → List Msg}

variable {endpoint : Bytes} {sid : UInt32} {env : SvcEnv} {h : Int} {frame data : Bytes}

theorem private_served (priv : kernel.ports.Private queues) {op : UInt16} {payload : Bytes}
    (idle : ∀ {victim}, PortOp.kill victim ∈ kernel.serveOps endpoint sid op payload →
      kernel.ports.NoneQueued victim) :
    ∃ served, stateAfter kernel.ports (kernel.serveOps endpoint sid op payload) = served ∧
      served.Private queues ∧ served.ports = kernel.ports.ports ∧
      ∀ other h index, served.portOf other h = some index ↔
        kernel.ports.portOf other h = some index ∧ PortOp.kill other ∉
          kernel.serveOps endpoint sid op payload := by
  refine ⟨_, rfl, ?_⟩
  unfold serveOps at idle ⊢
  split
  next kills =>
    rw [if_pos kills] at idle
    have none := idle mem_cons_self
    refine ⟨priv.kill none, kill_ports none, ?_⟩
    intro other h index
    simpa [stateAfter, PortOp.run] using portOf_kill (get32 payload 0) other h index
  · exact ⟨priv, rfl, by simp [stateAfter]⟩

theorem kill_mem_dispatchOps (long : ¬ frame.length < 24) (victim : UInt32) :
    PortOp.kill victim ∈ kernel.dispatchOps env endpoint sid h frame ↔ PortOp.kill victim ∈
      kernel.serveOps endpoint sid (get16 frame 0) (frame.drop 24) := by
  rw [dispatchOps, if_neg long, mem_append]
  unfold replyOps
  split
  · simp
  split
  · simp
  · split <;> simp

/--
A direct request with room for its answer puts the answer into the queue of
the endpoint, unless it has killed its own session.
-/
theorem private_dispatch (priv : kernel.ports.Private queues) (bounded : env.Bounded)
    (alloc : env.allocOk = true) (direct : (routeOf sid h frame).rname = []) {index : Nat}
    (found : kernel.ports.portOf sid h = some index)
    (room : (kernel.ports.ports index).qn < ofNat maxQ)
    (idle : ∀ {victim}, PortOp.kill victim ∈ kernel.dispatchOps env endpoint sid h frame →
      kernel.ports.NoneQueued victim) :
    ∃ next, (stateAfter kernel.ports (kernel.dispatchOps env endpoint sid h frame)).Private next ∧
      ∀ port, next port = queues port ++ atPort port (if frame.length < 24 ∨ PortOp.kill sid ∈
            kernel.dispatchOps env endpoint sid h frame then
          none
        else
          (kernel.answerTo env endpoint sid frame).map fun answer => (index, ⟨sid, answer⟩)) := by
  by_cases short : frame.length < 24
  · refine ⟨queues, ?_, ?_⟩
    · rwa [dispatchOps, if_pos short]
    · simp [short, atPort]
  have inRange := (portOf_eq_some_iff.mp found).1.2.1
  obtain ⟨served, same, servedPrivate, servedPorts, handles⟩ :=
    kernel.private_served priv fun {victim} kills =>
      idle ((kill_mem_dispatchOps short victim).mpr kills)
  have after : stateAfter kernel.ports (kernel.dispatchOps env endpoint sid h frame) =
      stateAfter served (replyOps env (routeOf sid h frame)
        (kernel.answerTo env endpoint sid frame)) := by
    rw [dispatchOps, if_neg short, stateAfter_append, same]
  rw [after]
  simp only [short, kill_mem_dispatchOps short]
  cases answered : kernel.answerTo env endpoint sid frame with
  | none => exact ⟨queues, servedPrivate, by simp [atPort]⟩
  | some answer =>
    have reply : replyOps env (routeOf sid h frame) (some answer) =
        [.kernelEnqueue true sid h answer] := by
      simp only [routeOf] at direct
      simp [replyOps, routeOf, direct, inRange, alloc]
    rw [reply]
    have solo : PortOp.Solo served (.kernelEnqueue true sid h answer) := trivial
    obtain ⟨next, -⟩ := servedPrivate.run solo
    refine ⟨_, next, ?_⟩
    intro port
    by_cases dies : PortOp.kill sid ∈ kernel.serveOps endpoint sid (get16 frame 0) (frame.drop 24)
    · have gone : served.portOf sid h = none := by
        rw [Option.eq_none_iff_forall_ne_some]
        intro target still
        exact ((handles sid h target).mp still).2 dies
      simp [dies, PortOp.run, kernelEnqueue, gone, advance, SendOutcome.event, atPort]
    · have still := (handles sid h index).mpr ⟨found, dies⟩
      rw [← servedPorts] at room
      have queued := kernelEnqueue_of_room still
        (kernel.answerTo_length bounded answered) room
      simp only [dies, PortOp.run, queued, advance, SendOutcome.event]
      by_cases here : port = index
      · subst here
        simp [atPort]
      · simp [atPort, here, Ne.symm here]

theorem portSend_dispatched {state : Ports} {uid : UInt32} {allocOk : Bool}
    (sent : (state.portSend uid allocOk sid h data).1 = .dispatched endpoint frame) :
    ∃ index, state.portOf sid h = some index ∧
      state.IsEndpoint index ∧ frame = stampUid uid data := by
  unfold portSend at sent
  cases found : state.portOf sid h with
  | none =>
    rw [found] at sent
    cases sent
  | some index =>
    rw [found] at sent
    dsimp only at sent
    split at sent
    · cases sent
    split at sent
    next owned =>
      cases sent
      exact ⟨index, rfl, ⟨(portOf_eq_some_iff.mp found).2.2.2, owned.1⟩, rfl⟩
    split at sent
    · cases sent
    unfold enqueueAt at sent
    split at sent
    · cases sent
    · split at sent <;> cases sent

theorem advance_of_not_accepted {outcome : SendOutcome} {index : Nat}
    (elsewhere : ∀ msg, outcome.event ≠ .accepted index msg) :
    advance queues outcome.event index = queues index := by
  cases outcome with
  | queued port msg =>
    have different : index ≠ port := by
      rintro rfl
      exact elsewhere msg rfl
    simp [SendOutcome.event, advance, different]
  | _ => rfl

section

variable (priv : kernel.ports.Private queues)
include priv

theorem private_plain_send (running : kernel.halted = false)
    (guest : ∀ endpoint frame, (kernel.ports.portSend (kernel.sched.uidOf sid) env.allocOk sid h
      data).1 ≠ .dispatched endpoint frame) :
    ∃ next, ((KernOp.send env sid h data).run kernel).ports.Private next ∧ ∀ index,
      kernel.ports.IsEndpoint index → next index = queues index ++ atPort index
        (KernOp.answered kernel (.send env sid h data)) := by
  have ops : (KernOp.send env sid h data).portOps kernel =
      [.send (kernel.sched.uidOf sid) env.allocOk sid h data] := by
    simp [KernOp.portOps, running]
  have unanswered : KernOp.answered kernel (.send env sid h data) = none := by
    simp [KernOp.answered]
  have solo : PortOp.Solo kernel.ports
    (.send (kernel.sched.uidOf sid) env.allocOk sid h data) := trivial
  rw [KernOp.run_ports, ops, unanswered]
  refine ⟨_, (priv.run solo).1, ?_⟩
  intro index endpoint
  rw [atPort, append_nil]
  refine advance_of_not_accepted ?_
  intro msg accepted
  exact portSend_accepted priv.kernel accepted endpoint

/-- A direct, solitary send appends its answer to the endpoint's queue. -/
theorem private_send (running : kernel.halted = false)
    (direct : KernOp.Direct kernel (.send env sid h data))
    (solitary : KernOp.Solitary kernel (.send env sid h data)) :
    ∃ next, ((KernOp.send env sid h data).run kernel).ports.Private next ∧ ∀ index,
      kernel.ports.IsEndpoint index → next index = queues index ++ atPort index
        (KernOp.answered kernel (.send env sid h data)) := by
  by_cases guest : ∀ endpoint frame,
    (kernel.ports.portSend (kernel.sched.uidOf sid) env.allocOk sid h
      data).1 ≠ .dispatched endpoint frame
  · exact private_plain_send priv running guest
  push Not at guest
  obtain ⟨endpoint, frame, sent⟩ := guest
  rw [KernOp.run_ports]
  obtain ⟨index, found, isEndpoint, _⟩ := portSend_dispatched sent
  obtain ⟨alloc, room⟩ := solitary.room rfl found isEndpoint
  have ops : (KernOp.send env sid h data).portOps kernel =
      kernel.dispatchOps env endpoint sid h frame := by
    simp [KernOp.portOps, running, sent]
  have ends (victim : UInt32) : (KernOp.send env sid h data).ends kernel victim = true ↔
      PortOp.kill victim ∈ kernel.dispatchOps env endpoint sid h frame := by
    simp [KernOp.ends, ops]
  obtain ⟨next, nextPrivate, queued⟩ :=
    private_dispatch priv direct.1 alloc (direct.2 endpoint frame sent)
      found room fun {victim} kills => solitary.idle ((ends victim).mpr kills)
  rw [ops]
  refine ⟨next, nextPrivate, ?_⟩
  intro port _
  rw [queued port]
  simp only [KernOp.answered, sent, running, ends, found]
  congr 2
  simp only [Bool.false_eq_true, false_or]
  split
  · rfl
  · cases kernel.answerTo env endpoint sid frame <;> rfl
/-- Only the session that waits for an answer takes it from an endpoint. -/
theorem private_recv (running : kernel.halted = false) (sid : UInt32) (h : Int) :
    ∃ next, ((recv sid h).run kernel).ports.Private next ∧ ∀ index,
      kernel.ports.IsEndpoint index →
      queues index = atPort index (received kernel (.recv sid h)) ++ next index := by
  have ops : (recv sid h).portOps kernel = [.recv sid h] := by simp [portOps, running]
  have solo : PortOp.Solo kernel.ports (.recv sid h) := trivial
  obtain ⟨nextPrivate, first⟩ := priv.run solo
  rw [run_ports, ops]
  refine ⟨_, nextPrivate, ?_⟩
  intro index endpoint
  simp only [received, running, Bool.false_eq_true, if_false, PortOp.run] at first ⊢
  cases outcome : (kernel.ports.portRecv sid h).1 with
  | received port msg =>
    rw [outcome] at first
    have shape := first port msg rfl
    simp only [RecvOutcome.event, advance]
    by_cases here : port = index
    · subst here
      -- The queue's first datagram belongs to the endpoint's one holder.
      have member : msg ∈ queues port := by
        rw [shape]
        exact mem_cons_self
      have holds : kernel.ports.Holder port sid := by
        refine ⟨h, ?_⟩
        unfold portRecv at outcome
        split at outcome
        · cases outcome
        next target found =>
          split at outcome
          · cases outcome
          split at outcome
          · cases outcome
          · cases outcome
            exact found
      have own : msg.fromSid = sid := priv.sole endpoint (priv.owned endpoint member) holds
      rw [atPort_self, Function.update_self, ← own]
      exact shape
    · rw [atPort, if_neg here, Function.update_of_ne (Ne.symm here)]
      rfl
  | _ => rfl

/-- An operation that only changes ports by quiet means keeps the queues. -/
theorem private_quiet {op : KernOp} (quiet :
      op.portOps kernel = [] ∨ ∃ change, op.portOps kernel = [change] ∧ change.Solo kernel.ports ∧
        (change.run kernel.ports).1 = .quiet) : (op.run kernel).ports.Private queues := by
  rw [run_ports]
  rcases quiet with none | ⟨change, one, solo, silent⟩
  · rwa [none]
  · rw [one]
    have kept := (priv.run solo).1
    rwa [silent] at kept

/--
One solitary, direct operation: what was queued for an endpoint, followed by
the answer to its request, is what it receives followed by what stays queued.
-/
theorem private_step {op : KernOp} (direct : op.Direct kernel) (solitary : op.Solitary kernel) :
    ∃ next, (op.run kernel).ports.Private next ∧ ∀ index, kernel.ports.IsEndpoint index →
      queues index ++ atPort index (op.answered kernel) =
        atPort index (op.received kernel) ++ next index := by
  by_cases halted : kernel.halted = true
  · have still : (op.run kernel).ports.Private queues :=
      private_quiet priv (.inl (by simp [KernOp.portOps, halted]))
    refine ⟨queues, still, ?_⟩
    intro index _
    have unanswered : op.answered kernel = none := by
      cases op with
      | send env sid h data =>
        simp only [KernOp.answered, halted]
        split <;> rfl
      | _ => rfl
    have unreceived : op.received kernel = none := by
      cases op with
      | recv sid h => simp [KernOp.received, halted]
      | _ => rfl
    rw [unanswered, unreceived]
    simp [atPort]
  rw [Bool.not_eq_true] at halted
  have kept (quiet : op.portOps kernel = [] ∨ ∃ change, op.portOps kernel = [change] ∧
        change.Solo kernel.ports ∧
        (change.run kernel.ports).1 = .quiet)
      (unanswered : op.answered kernel = none)
      (unreceived : op.received kernel = none) :
      ∃ next, (op.run kernel).ports.Private next ∧ ∀ index, kernel.ports.IsEndpoint index →
        queues index ++ atPort index (op.answered kernel) =
          atPort index (op.received kernel) ++ next index := by
    refine ⟨queues, private_quiet priv quiet, ?_⟩
    intro index _
    rw [unanswered, unreceived]
    simp [atPort]
  cases op with
  | send env sid h data =>
    obtain ⟨next, nextPrivate, queued⟩ := private_send priv halted direct solitary
    refine ⟨next, nextPrivate, ?_⟩
    intro index endpoint
    exact (queued index endpoint).symm
  | recv sid h =>
    obtain ⟨next, nextPrivate, taken⟩ := private_recv priv halted sid h
    refine ⟨next, nextPrivate, ?_⟩
    intro index endpoint
    simpa [KernOp.answered, atPort] using taken index endpoint
  | bind sid name =>
    refine kept (.inr ⟨.bind (kernel.sched.alive sid) sid name,
        by simp [KernOp.portOps, halted], ?_, rfl⟩)
      rfl rfl
    intro index named endpoint other holds
    exact solitary.binds rfl named endpoint holds
  | create sid name =>
    exact kept (.inr ⟨.create (kernel.sched.alive sid) sid name,
        by simp [KernOp.portOps, halted], trivial, rfl⟩)
      rfl rfl
  | expect seq name =>
    exact kept (.inr ⟨.expect seq name, by simp [KernOp.portOps, halted], trivial, rfl⟩) rfl rfl
  | poll seq =>
    exact kept (.inr ⟨.poll seq, by simp [KernOp.portOps, halted], trivial, rfl⟩) rfl rfl
  | reclaim seq =>
    exact kept (.inr ⟨.reclaim seq, by simp [KernOp.portOps, halted], trivial, rfl⟩) rfl rfl
  | exit | reap | preload => exact kept (.inl (by simp [KernOp.portOps])) rfl rfl

end

end Kernel

end KernelLane.Kern
