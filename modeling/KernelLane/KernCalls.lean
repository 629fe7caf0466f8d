import KernelLane.KernIdentity

namespace KernelLane.Kern

open GuestFrame Ports List Function Machine GuestOp PortOp

/-!
# Steps of routed calls

A routed call takes a slot of the pending table under its number and its
session's name; a datagram for the port of that name which carries the number
becomes its reply; collecting the reply or giving up frees a slot.  Every
operation of the machine does one of these or leaves the pending calls alone.
The calls are followed by identities of their own, since numbers and names
recur.
-/

/-! ## What an operation does to the waiting calls -/

def Ports.freeEntry (state : Ports) : Option Nat :=
  (range maxPending).find? fun entry => !(state.tab entry).used

def Machine.awaitedNumber (machine : Machine) (slot : Nat) : Option UInt16 :=
  if (machine.wasi slot).waiting then some (machine.wasi slot).fsRtSeq
  else none

def Machine.callName (machine : Machine) (sid : UInt32) : Bytes :=
  (cstr (machine.sched.nameOf sid)).take 15

def Machine.nextNumber (machine : Machine) (sid : UInt32) : UInt16 :=
  (machine.wasi sid.toNat).fsRtSeq + 1

def Machine.sendLanding (machine : Machine) (env : SvcEnv) (sid : UInt32)
    (h : Int) (data : Bytes) : Option Place :=
  (send (machine.sched.uidOf sid) env.allocOk sid h data).landing machine.ports

def GuestOp.leavesCalls (machine : Machine) : GuestOp → Bool
  | .request _ _ _ _ _ => machine.ports.freeEntry.isNone
  | .send env sid h data =>
    match machine.sendLanding env sid h data with
    | some (.reply _) => false
    | _ => true
  | _ => true

/-- The waiting calls before and after an operation. -/
inductive CallStep (before after : Machine) : GuestOp → Prop where
  | kept {op : GuestOp} (quiet : op.leavesCalls before = true)
    (tab : after.ports.tab = before.ports.tab)
    (waits : ∀ slot number, after.awaitedNumber slot = some number →
      before.awaitedNumber slot = some number) :
    CallStep before after op
  | issued {allocOk : Bool} {sid : UInt32} {request : UInt16} {path payload : Bytes} (entry : Nat)
    (free : before.ports.freeEntry = some entry)
    (tab : after.ports.tab = update before.ports.tab entry
      ⟨true, before.nextNumber sid, before.callName sid, false, []⟩)
    (caller : ∀ number, after.awaitedNumber sid.toNat = some number →
      number = before.nextNumber sid)
    (others : ∀ slot number, slot ≠ sid.toNat → after.awaitedNumber slot = some number →
      before.awaitedNumber slot = some number) :
    CallStep before after (.request allocOk sid request path payload)
  | landed {env : SvcEnv} {sid : UInt32} {h : Int} {data : Bytes} (index entry : Nat)
    (found : before.ports.portOf sid h = some index)
    (guest : (before.ports.ports index).kernelEndpoint = false)
    (awaited : before.ports.awaitedBy (before.ports.ports index).name data = some entry)
    (landing : before.sendLanding env sid h data = some (.reply entry))
    (tab : after.ports.tab = update before.ports.tab entry
      { before.ports.tab entry with resp := data.take respMax, done := true })
    (waits : after.awaitedNumber = before.awaitedNumber) :
    CallStep before after (.send env sid h data)
  | freed {op : GuestOp} {sid : UInt32} (ends : op = .collect sid ∨ op = .giveUp sid) (entry : Nat)
    (waiting : before.awaitedNumber sid.toNat = some (before.ports.tab entry).seq)
    (used : (before.ports.tab entry).used = true)
    (finished : op = .collect sid → (before.ports.tab entry).done = true)
    (tab : ∃ pending : Pending, pending.used = false ∧ after.ports.tab =
      update before.ports.tab entry pending)
    (caller : after.awaitedNumber sid.toNat = none)
    (others : ∀ slot, slot ≠ sid.toNat → after.awaitedNumber slot = before.awaitedNumber slot) :
    CallStep before after op

/-! ## Datagrams that answer no call -/

namespace Ports

variable {state : Ports}

theorem awaitedBy_congr {after : Ports} {name data other : Bytes} (tab : after.tab = state.tab)
    (number : get16 data 2 = get16 other 2) :
    after.awaitedBy name data = state.awaitedBy name other := by
  unfold awaitedBy
  rw [tab, number]

theorem run_tab {op : PortOp} (turnsNone : op.turnsCalls = false)
    (unawaited : ∀ name data, op.Answers state name data → 4 ≤ data.length →
      state.awaitedBy name data = none) : (op.run state).2.tab = state.tab := by
  have change := op.change state
  generalize op.run state = result at change ⊢
  obtain ⟨event, after⟩ := result
  cases change with
  | answered _ answers long awaited =>
    rw [unawaited _ _ answers long] at awaited
    cases awaited
  | turned _ turns =>
    rw [turnsNone] at turns
    cases turns
  | killed sid => exact kill_tab sid
  | _ => rfl

theorem enqueueByName_tab {name data : Bytes}
    (unawaited : 4 ≤ data.length → state.awaitedBy name data = none) (allocOk : Bool) :
    (state.enqueueByName allocOk name data).2.tab = state.tab := by
  refine @run_tab state (.enqueueByName allocOk name data) rfl ?_
  rintro _ _ ⟨rfl, rfl⟩
  exact unawaited

/-- What a session's send does to the calls, by where its datagram goes. -/
theorem portSend_tab (state : Ports) (uid : UInt32) (allocOk : Bool) (sid : UInt32) (h : Int)
    (data : Bytes) :
    ((∀ entry, (send uid allocOk sid h data).landing state ≠ some (.reply entry)) ∧
      (state.portSend uid allocOk sid h data).2.tab = state.tab) ∨
    ∃ index entry, state.portOf sid h = some index ∧
      ((state.ports index).kernelEndpoint = true → sid = 0) ∧
      state.awaitedBy (state.ports index).name data = some entry ∧
      (send uid allocOk sid h data).landing state = some (.reply entry) ∧
      (state.portSend uid allocOk sid h data).2.tab = update state.tab entry { state.tab entry with
          resp := data.take respMax
          done := true } := by
  have change := send_change state uid allocOk sid h data
  generalize state.portSend uid allocOk sid h data = result at change ⊢
  obtain ⟨outcome, after⟩ := result
  generalize outcome.event = event at change
  cases change with
  | kept _ unplaced => exact .inl ⟨by simp [unplaced], rfl⟩
  | queued placed => exact .inl ⟨by simp [placed], rfl⟩
  | @answered _ entry name sent placed answers long awaited =>
    obtain ⟨rfl, index, found, kernelOnly, rfl⟩ := answers
    exact .inr ⟨index, entry, found, kernelOnly, awaited, placed, rfl⟩
  | turned _ turns => cases turns

end Ports

variable {env : SvcEnv} {op : UInt16} {sid : UInt32} {calls : Calls} {label : Option Nat}

theorem Reply.get16_frame {seq : UInt16} {reply : Reply} {answer : Bytes}
    (framed : reply.frame env op seq = some answer) : get16 answer 2 = seq := by
  cases reply with
  | answer | knack =>
    cases framed
    simp only [kbegin, append_assoc]
    exact get16_put16 _ _ _ _ rfl
  | nack =>
    cases framed
    simp only [append_assoc]
    exact get16_put16 _ _ _ _ rfl
  | silent => cases framed

theorem get16_stampUid (uid : UInt32) (data : Bytes) :
    get16 (stampUid uid data) 2 = get16 data 2 := by
  unfold stampUid
  split
  next framed =>
    unfold get16 Words.getAt
    rw [append_assoc, drop_append_of_le_length (by simp; omega),
      take_append_of_le_length (by simp; omega), drop_take, take_take]
    rfl
  · rfl

/-! ## The steps of the machine -/

/-- The request that each stored reply answers, and the identity of calls. -/
structure Calls where
  /-- The calls made so far; they are numbered in order. -/
  issued : Nat
  /-- The latest call of the session in a slot. -/
  call : Nat → Nat
  /-- The number and the name under which a call waits. -/
  key : Nat → UInt16 × Bytes
  /-- The call that registered a slot of the waiting calls. -/
  owner : Nat → Nat
  /-- The call whose reply a slot holds, as the file service labels it. -/
  reply : Nat → Option Nat
  /-- The calls whose replies have come. -/
  answered : Nat → Bool

/-- The calls after an operation that runs, with the label of its reply. -/
def Calls.after (calls : Calls) (machine : Machine) (label : Option Nat) : GuestOp → Calls
  | .request _ sid _ _ _ =>
    match machine.ports.freeEntry with
    | none => calls
    | some entry =>
      { calls with
        issued := calls.issued + 1
        call := update calls.call sid.toNat calls.issued
        key := update calls.key calls.issued (machine.nextNumber sid, machine.callName sid)
        owner := update calls.owner entry calls.issued
        reply := update calls.reply entry none }
  | .send env sid h data =>
    match machine.sendLanding env sid h data with
    | some (.reply entry) =>
      { calls with
        reply := update calls.reply entry label
        answered :=
          match label with
          | none => calls.answered
          | some call => update calls.answered call true }
    | _ => calls
  | _ => calls

/--
What keeps routed calls apart: a call is made only when no other waits under
its number, and not by a session of the service's own name; a call gives up
only after its reply has come; and a datagram that answers a waiting call is
the service's reply to a request of that number and name, the first to it.
-/
def GuestOp.Orderly (machine : Machine) (calls : Calls) (label : Option Nat) : GuestOp → Prop
  | .request _ sid _ _ _ =>
    machine.callName sid ≠ ascii "fs" ∧
      ∀ entry, machine.ports.awaits (machine.nextNumber sid) entry = false
  | .giveUp sid => machine.waiting sid = true → calls.answered (calls.call sid.toNat) = true
  | .focusSet _ sid h =>
    ∀ text, machine.focusLog sid h = some text →
      machine.ports.awaitedBy (ascii "console") text = none
  | .send _ sid h data =>
    ∀ index, machine.ports.portOf sid h = some index →
      ((machine.ports.ports index).kernelEndpoint = true → cstr ((data.drop 8).take 16) ≠ [] →
        machine.ports.awaitedBy (cstr ((data.drop 8).take 16)) data = none) ∧
      ((machine.ports.ports index).kernelEndpoint = false →
        (machine.ports.awaitedBy (machine.ports.ports index).name data).isSome = true →
        ∃ call < calls.issued, label = some call ∧ calls.answered call = false ∧ calls.key call =
          (get16 data 2, (machine.ports.ports index).name))
  | _ => True

namespace Machine

variable {machine : Machine}

theorem awaitedNumber_withKernel {kernel : Kernel} {slot : Nat} {number : UInt16}
    (waits : (machine.withKernel kernel).awaitedNumber slot = some number) :
    machine.awaitedNumber slot = some number := by
  unfold awaitedNumber withKernel at waits
  dsimp only at waits
  split at waits
  · cases waits
  · exact waits

theorem awaitedNumber_of_sched {kernel : Kernel} (same : kernel.sched = machine.sched) :
    (machine.withKernel kernel).awaitedNumber = machine.awaitedNumber := by
  funext slot
  have kept : (machine.withKernel kernel).wasi slot = machine.wasi slot := by
    dsimp only [withKernel]
    rw [same, not_spawned_self]
    rfl
  unfold awaitedNumber
  rw [kept]

theorem awaitedNumber_setWasi (machine : Machine) (sid : UInt32) (wasi : Wasi) (slot : Nat) :
    (machine.setWasi sid wasi).awaitedNumber slot =
      if slot = sid.toNat then
        if wasi.waiting then some wasi.fsRtSeq else none
      else machine.awaitedNumber slot := by
  unfold awaitedNumber setWasi
  by_cases same : slot = sid.toNat
  · subst same
    simp
  · simp [same]

theorem awaitedNumber_setFds (machine : Machine) (sid : UInt32) (fds : Nat → Bool) (slot : Nat) :
    (machine.setWasi sid { machine.wasi sid.toNat with fds := fds }).awaitedNumber slot =
      machine.awaitedNumber slot := by
  rw [awaitedNumber_setWasi]
  split
  next same => rw [same, awaitedNumber]
  · rfl

end Machine

theorem CallStep.of_withKernel {machine : Machine} {kernel : Kernel} {op : GuestOp}
    (quiet : op.leavesCalls machine = true) (tab : kernel.ports.tab = machine.ports.tab) :
    CallStep machine (machine.withKernel kernel) op :=
  .kept quiet tab fun _ _ => awaitedNumber_withKernel

/-- The ports' calls along the service of a request whose answer is unawaited. -/
theorem Kernel.dispatchOps_tab {kernel : Kernel} {state : Ports} {endpoint frame : Bytes}
    {h : Int} (unawaited : (routeOf sid h frame).rname ≠ [] →
      state.awaitedBy (routeOf sid h frame).rname frame = none) :
    (stateAfter state (kernel.dispatchOps env endpoint sid h frame)).tab = state.tab := by
  unfold dispatchOps
  split
  · rfl
  rw [stateAfter_append]
  have served : (stateAfter state (kernel.serveOps endpoint sid (get16 frame 0)
      (frame.drop 24))).tab = state.tab := by
    unfold serveOps
    split
    · exact kill_tab _
    · rfl
  generalize stateAfter state (kernel.serveOps endpoint sid (get16 frame 0)
    (frame.drop 24)) = middle at served ⊢
  rw [← served]
  unfold replyOps
  split
  · rfl
  next answer answered =>
  split
  next named =>
    refine enqueueByName_tab (fun _ => ?_) env.allocOk
    rw [awaitedBy_congr served (Reply.get16_frame answered)]
    exact unawaited named
  split
  · exact @run_tab _ (.kernelEnqueue _ _ _ _) rfl nofun
  · rfl

theorem GuestOp.callStep_send {machine : Machine} {h : Int} {data : Bytes}
    (runs : (GuestOp.send env sid h data).Runs machine)
    (orderly : (GuestOp.send env sid h data).Orderly machine calls label) :
    CallStep machine ((GuestOp.send env sid h data).effect machine) (.send env sid h data) := by
  have alive : machine.sched.alive sid = true := runs.2.1
  have notKernel : sid ≠ 0 := by
    rintro rfl
    exact absurd ((Sched.alive_iff _ _).mp alive).1 (by decide)
  have halted : ¬ machine.halted = true := by simp [runs.1]
  dsimp only [effect, KernOp.run]
  rw [if_neg halted]
  have moved := machine.ports.portSend_tab (machine.sched.uidOf sid) env.allocOk sid h data
  unfold Kernel.send
  split
  next endpoint frame ports sent =>
    have dispatched : (machine.ports.portSend (machine.sched.uidOf sid) env.allocOk sid h
        data).1 = .dispatched endpoint frame := by
      rw [sent]
    obtain ⟨index, found, isEndpoint, rfl⟩ := Kernel.portSend_dispatched dispatched
    refine .kept ?_ ?_ fun _ _ => awaitedNumber_withKernel
    · dsimp only [leavesCalls, sendLanding, PortOp.landing]
      rw [found, dispatched]
      rfl
    · dsimp only [withKernel]
      rw [Kernel.kernsvcDispatch_ports]
      refine Kernel.dispatchOps_tab ?_
      dsimp only [routeOf]
      rw [stampUid_drop]
      intro named
      rw [awaitedBy_congr rfl (get16_stampUid _ _)]
      exact (orderly index found).1 isEndpoint.2 named
  next outcome ports notDispatched sent =>
    rw [sent] at moved
    rcases moved with ⟨noReply, tab⟩ |
      ⟨index, entry, found, guest, awaited, landing, tab⟩
    · refine .kept ?_ tab fun _ _ => awaitedNumber_withKernel
      dsimp only [leavesCalls]
      split
      next entry landing => exact absurd landing (noReply entry)
      · rfl
    · refine .landed index entry found ?_ awaited landing tab (awaitedNumber_of_sched rfl)
      by_contra endpoint
      exact notKernel (guest (Bool.eq_true_of_not_eq_false endpoint))

theorem Ports.fsrouteExpect_eq (state : Ports) (seq : UInt16) (name : Bytes) :
    state.fsrouteExpect seq name =
      match state.freeEntry with
      | none => (-1, state)
      | some entry =>
        (0, { state with
            tab := update state.tab entry ⟨true, seq, (cstr name).take 15, false, []⟩ }) :=
  rfl

theorem Machine.request_unawaited {machine : Machine} {path payload : Bytes} {entry : Nat}
    (named : machine.callName sid ≠ ascii "fs")
    (single : ∀ entry, machine.ports.awaits (machine.nextNumber sid) entry = false)
    (long : 4 ≤ (machine.nextRequest sid op path payload).length) : ({ machine.ports with
        tab :=
          update machine.ports.tab entry
            ⟨true, machine.nextNumber sid, machine.callName sid, false,
              []⟩ } : Ports).awaitedBy (ascii "fs")
      (machine.nextRequest sid op path payload) = none := by
  have number : get16 (machine.nextRequest sid op path payload) 2 = machine.nextNumber sid := by
    unfold nextRequest requestFrame at long ⊢
    split
    next tooLong =>
      rw [if_pos tooLong] at long
      exact absurd long (by decide)
    · simp only [append_assoc]
      exact get16_put16 _ _ _ _ rfl
  unfold awaitedBy
  rw [List.find?_eq_none]
  intro other member
  by_cases same : other = entry
  · subst same
    simp [named]
  have apart := single other
  simp only [awaits, mem_range.mp member, decide_true, Bool.true_and,
    Bool.and_eq_false_iff, decide_eq_false_iff_not] at apart
  simp only [update_of_ne same, number, Bool.and_eq_true, decide_eq_true_eq]
  rintro ⟨⟨⟨used, _⟩, _⟩, sameNumber⟩
  rcases apart with unused | differs
  · exact absurd (used.symm.trans unused) (by decide)
  · exact differs sameNumber

theorem GuestOp.callStep_request {machine : Machine} {allocOk : Bool} {path payload : Bytes}
    (runs : (request allocOk sid op path payload).Runs machine)
    (orderly : (request allocOk sid op path payload).Orderly machine calls label) :
    CallStep machine (machine.startRequest allocOk sid op path payload)
      (.request allocOk sid op path payload) := by
  have idle : (machine.wasi sid.toNat).waiting = false := by
    rcases runs.2.2 with waits | idle
    · cases waits
    · exact idle
  unfold startRequest
  dsimp only
  rw [fsrouteExpect_eq]
  cases free : machine.ports.freeEntry with
  | none =>
    dsimp only
    rw [if_pos (by decide)]
    refine .kept (Option.isNone_iff_eq_none.mpr free) rfl ?_
    intro slot number waits
    rw [awaitedNumber_setWasi] at waits
    split at waits
    · rw [idle] at waits
      cases waits
    · exact waits
  | some entry =>
    dsimp only
    rw [if_neg (by decide)]
    refine .issued entry free ?_ ?_ ?_
    · refine enqueueByName_tab ?_ allocOk
      exact request_unawaited orderly.1 orderly.2
    · intro number waits
      rw [awaitedNumber_setWasi, if_pos rfl] at waits
      split at waits
      · cases waits
        rfl
      · cases waits
    · intro slot number other waits
      rw [awaitedNumber_setWasi, if_neg other] at waits
      exact waits

theorem GuestOp.callStep_collect (machine : Machine) (sid : UInt32) :
    CallStep machine (machine.collect sid).2 (.collect sid) := by
  unfold Machine.collect
  dsimp only
  split
  next waiting =>
    have number : machine.awaitedNumber sid.toNat =
      some (machine.wasi sid.toNat).fsRtSeq := if_pos waiting
    split
    · exact .kept rfl rfl fun _ _ => id
    next resp ports polled =>
      unfold fsroutePoll at polled
      split at polled
      · cases polled
      next entry found =>
      cases polled
      have finished := List.find?_some found
      simp only [Bool.and_eq_true, decide_eq_true_eq] at finished
      refine .freed (.inl rfl) entry ?_ finished.1.1 (fun _ => finished.1.2) ⟨_, rfl, rfl⟩ ?_ ?_
      · rw [number, finished.2]
      · rw [awaitedNumber_setWasi, if_pos rfl]
        rfl
      · intro slot other
        rw [awaitedNumber_setWasi, if_neg other]
        rfl
  · exact .kept rfl rfl fun _ _ => id

theorem GuestOp.callStep_giveUp (machine : Machine) (sid : UInt32) :
    CallStep machine (machine.giveUp sid) (.giveUp sid) := by
  unfold Machine.giveUp
  dsimp only
  split
  next waiting =>
    have number : machine.awaitedNumber sid.toNat =
      some (machine.wasi sid.toNat).fsRtSeq := if_pos waiting
    unfold fsrouteReclaim
    split
    · refine .kept rfl rfl ?_
      intro slot awaited waits
      rw [awaitedNumber_setWasi] at waits
      split at waits
      · cases waits
      · exact waits
    next entry found =>
      have matched := List.find?_some found
      simp only [Bool.and_eq_true, decide_eq_true_eq] at matched
      refine .freed (.inr rfl) entry ?_ matched.1 nofun ⟨_, rfl, rfl⟩
        ?_ ?_
      · rw [number, matched.2]
      · rw [awaitedNumber_setWasi, if_pos rfl]
        rfl
      · intro slot other
        rw [awaitedNumber_setWasi, if_neg other]
        rfl
  · exact .kept rfl rfl fun _ _ => id

theorem GuestOp.callStep_focusSet {machine : Machine} {allocOk : Bool} {h : Int}
    (orderly : (focusSet allocOk sid h).Orderly machine calls label) :
    CallStep machine (machine.inputFocusSet allocOk sid h) (.focusSet allocOk sid h) := by
  dsimp only [Orderly, focusLog] at orderly
  unfold inputFocusSet
  cases owned : machine.ports.ownerOfHandle sid h with
  | none => exact .kept rfl rfl fun _ _ => id
  | some owner =>
    rw [owned] at orderly
    dsimp only at orderly ⊢
    split
    · exact .kept rfl rfl fun _ _ => id
    next notKernel =>
    rw [if_neg notKernel] at orderly
    split
    next other =>
      rw [if_pos other] at orderly
      exact .kept rfl (enqueueByName_tab (fun _ => orderly _ rfl) allocOk) fun _ _ => id
    next same =>
      rw [if_neg same] at orderly
      exact .kept rfl (enqueueByName_tab (fun _ => orderly _ rfl) allocOk) fun _ _ => id

theorem GuestOp.callStep {machine : Machine} {op : GuestOp} (runs : op.Runs machine)
    (orderly : op.Orderly machine calls label) : CallStep machine (op.effect machine) op := by
  have halted : ¬ machine.halted = true := by simp [runs.1]
  cases op with
  | create sid name =>
    dsimp only [effect, KernOp.run]
    rw [if_neg halted]
    exact .of_withKernel rfl (@run_tab _ (.create _ _ _) rfl nofun)
  | bind sid name =>
    dsimp only [effect, KernOp.run]
    split
    · exact .of_withKernel rfl (@run_tab _ (.bind _ _ _) rfl nofun)
    · exact .kept rfl rfl fun _ _ => id
  | send env sid h data => exact callStep_send runs orderly
  | recv sid h =>
    dsimp only [effect, KernOp.run]
    rw [if_neg halted]
    exact .of_withKernel rfl (@run_tab _ (.recv _ _) rfl nofun)
  | focusSet allocOk sid h =>
    dsimp only [effect]
    split
    · exact callStep_focusSet orderly
    · exact .kept rfl rfl fun _ _ => id
  | fdAlloc sid =>
    dsimp only [effect, allocFd]
    split
    · refine .kept rfl rfl fun slot _ => ?_
      rw [awaitedNumber_setFds]
      exact id
    refine .kept rfl rfl fun slot _ => ?_
    rw [awaitedNumber_setFds]
    exact id
  | fdOpen | fdMove =>
    dsimp only [effect]
    split <;> exact .kept rfl rfl fun _ _ => id
  | fdRelease sid fd =>
    dsimp only [effect, releaseFd]
    split
    · refine .kept rfl rfl fun slot _ waits => ?_
      exact ((machine.setRfd sid fd none).awaitedNumber_setFds sid _ slot).symm.trans waits
    · exact .kept rfl rfl fun _ _ => id
  | request allocOk sid request path payload => exact callStep_request runs orderly
  | collect sid => exact callStep_collect machine sid
  | giveUp sid => exact callStep_giveUp machine sid
  | exit sid =>
    dsimp only [effect, KernOp.run]
    rw [if_neg halted]
    refine .of_withKernel rfl ?_
    split <;> rfl
  | reap | preload =>
    dsimp only [effect, KernOp.run]
    rw [if_neg halted]
    exact .of_withKernel rfl rfl
  | spawn env name uid capmask argv => exact .of_withKernel rfl rfl

end KernelLane.Kern
