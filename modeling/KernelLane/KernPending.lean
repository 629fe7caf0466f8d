import KernelLane.KernCalls

namespace KernelLane.Kern

open GuestFrame Ports List Function GuestOp Machine

/-!
# The slots of routed calls

A routed call takes a slot of the pending table, queues its request and frees
the slot when it has its reply or gives up; both look for the slot by the
number of the call.  A call whose request is not queued returns with its slot
taken.  As long as requests are queued, under numbers that no slot has, and no
session starts where one has died inside a call, every slot that is taken is
that of a call in progress.
-/

def Ports.fsAccepts (state : Ports) : Bool :=
  match state.portByName (ascii "fs") with
  | none => false
  | some index => (state.ports index).qn < UInt32.ofNat maxQ

def GuestOp.queuesRequest (machine : Machine) : GuestOp → Bool
  | .request allocOk sid _ _ _ =>
    allocOk && machine.ports.fsAccepts &&
      (range maxPending).all fun entry => !machine.ports.awaits (machine.nextNumber sid) entry
  | _ => true

def GuestOp.freesSlots (machine : Machine) (op : GuestOp) : Bool :=
  op.queuesRequest machine &&
    (!op.starts machine ||
      machine.sched.nextSlot.all fun slot => (machine.awaitedNumber slot).isNone)

/-- Every taken slot has the number of a call in progress, and its own. -/
structure Machine.NoneLeft (machine : Machine) : Prop where
  inCall : ∀ {number entry}, machine.ports.awaits number entry = true →
    ∃ slot, machine.awaitedNumber slot = some number
  single : ∀ {number first second}, machine.ports.awaits number first = true →
    machine.ports.awaits number second = true → first = second

namespace Ports

variable {state : Ports} {number : UInt16} {entry : Nat}

theorem status_of_fsAccepts (accepts : state.fsAccepts = true) (data : Bytes) :
    (state.enqueueByName true (ascii "fs") data).1.status = 0 := by
  unfold fsAccepts at accepts
  unfold enqueueByName
  split
  · rfl
  cases found : state.portByName (ascii "fs") with
  | none =>
    rw [found] at accepts
    cases accepts
  | some index =>
    rw [found] at accepts
    rw [decide_eq_true_eq] at accepts
    dsimp only [enqueueAt]
    rw [if_neg (UInt32.not_le.mpr accepts), if_neg (by decide)]
    rfl

theorem awaits_iff : state.awaits number entry = true ↔
    entry < maxPending ∧ (state.tab entry).used = true ∧ (state.tab entry).seq = number := by
  simp [awaits, and_assoc]

theorem awaits_update {pending : Pending} {other : Nat} :
    ({ state with tab := update state.tab entry pending } : Ports).awaits number other =
      if other = entry then entry < maxPending && pending.used && pending.seq = number
      else state.awaits number other := by
  unfold awaits
  by_cases same : other = entry
  · subst same
    simp
  · simp [same]

theorem awaits_queued {allocOk : Bool} {seq : UInt16} {caller name data : Bytes} {other : Nat}
    (taken : (({ state with tab := update state.tab entry ⟨true, seq, caller, false, []⟩ } :
      Ports).enqueueByName allocOk name data).2.awaits number other = true) :
    other = entry ∧ seq = number ∨ state.awaits number other = true := by
  change ((PortOp.enqueueByName allocOk name data).run _).2.awaits _ _ = true at taken
  rw [PortOp.awaits_run rfl, awaits_update] at taken
  split at taken
  next same => exact .inl ⟨same, by simpa using (Bool.and_eq_true_iff.mp taken).2⟩
  · exact .inr taken

end Ports

theorem GuestOp.awaitedNumber_withKernel {machine : Machine} {op : GuestOp} {kernel : Kernel}
    {slot : Nat} {number : UInt16} (frees : op.freesSlots machine = true)
    (moves : (op.effect machine).sched = kernel.sched)
    (waits : machine.awaitedNumber slot = some number) :
    (machine.withKernel kernel).awaitedNumber slot = some number := by
  have stays : ¬ spawned machine.sched kernel.sched slot = true := by
    intro spawned
    rw [← moves] at spawned
    obtain ⟨starts, next⟩ := nextSlot_of_spawned spawned
    simp [freesSlots, starts, next, waits] at frees
  unfold awaitedNumber
  rw [show (machine.withKernel kernel).wasi slot = machine.wasi slot from if_neg stays]
  exact waits

namespace Machine.NoneLeft

variable {machine : Machine} {sid : UInt32}

theorem boot : boot.NoneLeft where
  inCall taken := absurd (awaits_iff.mp taken).2.1 nofun
  single taken := absurd (awaits_iff.mp taken).2.1 nofun

variable (left : machine.NoneLeft)

include left

theorem of_same {after : Machine} (same : ∀ number entry,
      after.ports.awaits number entry = machine.ports.awaits number entry)
    (waits : ∀ slot number, machine.awaitedNumber slot = some number →
      after.awaitedNumber slot = some number) : after.NoneLeft where
  inCall taken := by
    rw [same] at taken
    obtain ⟨slot, waiting⟩ := left.inCall taken
    exact ⟨slot, waits slot _ waiting⟩
  single first second := by
    rw [same] at first second
    exact left.single first second

theorem stopped {ports : Ports} (fewer : ∀ {number entry}, ports.awaits number entry = true →
      machine.ports.awaits number entry = true ∧ number ≠ (machine.wasi sid.toNat).fsRtSeq) :
    ((machine.setPorts ports).setWasi sid
      { machine.wasi sid.toNat with waiting := false }).NoneLeft where
  inCall taken := by
    obtain ⟨before, other⟩ := fewer taken
    obtain ⟨slot, waits⟩ := left.inCall before
    refine ⟨slot, ?_⟩
    rw [awaitedNumber_setWasi, if_neg]
    · exact waits
    rintro rfl
    unfold awaitedNumber at waits
    split at waits
    · cases waits
      exact other rfl
    · cases waits
  single first second := left.single (fewer first).1 (fewer second).1

theorem freed {entry : Nat} {pending : Pending}
    (own : machine.ports.awaits (machine.wasi sid.toNat).fsRtSeq entry = true)
    (isFree : pending.used = false) : ((machine.setPorts
        { machine.ports with tab := update machine.ports.tab entry pending }).setWasi sid
      { machine.wasi sid.toNat with waiting := false }).NoneLeft := by
  refine left.stopped fun {number other} taken => ?_
  rw [awaits_update] at taken
  split at taken
  · simp [isFree] at taken
  next different =>
    refine ⟨taken, ?_⟩
    rintro rfl
    exact different (left.single taken own)

theorem collect : (machine.collect sid).2.NoneLeft := by
  unfold Machine.collect
  dsimp only
  split
  · split
    · exact left
    next resp ports polled =>
      unfold fsroutePoll at polled
      split at polled
      · cases polled
      next entry found =>
      cases polled
      have finished := List.find?_some found
      simp only [Bool.and_eq_true, decide_eq_true_eq] at finished
      refine left.freed (awaits_iff.mpr ⟨?_, finished.1.1, finished.2⟩) rfl
      exact mem_range.mp (mem_of_find?_eq_some found)
  · exact left

theorem giveUp : (machine.giveUp sid).NoneLeft := by
  unfold Machine.giveUp
  dsimp only
  split
  · unfold fsrouteReclaim
    split
    next missing =>
      refine left.stopped fun {number entry} taken => ⟨taken, ?_⟩
      rintro rfl
      obtain ⟨inTable, used, same⟩ := awaits_iff.mp taken
      exact List.find?_eq_none.mp missing entry (mem_range.mpr inTable) (by simp [used, same])
    next entry found =>
      have matched := List.find?_some found
      simp only [Bool.and_eq_true, decide_eq_true_eq] at matched
      refine left.freed (awaits_iff.mpr ⟨?_, matched⟩) rfl
      exact mem_range.mp (mem_of_find?_eq_some found)
  · exact left

theorem request {allocOk : Bool} {op : UInt16} {path payload : Bytes}
    (idle : (machine.wasi sid.toNat).waiting = false)
    (queues : (request allocOk sid op path payload).queuesRequest machine = true) :
    (machine.startRequest allocOk sid op path payload).NoneLeft := by
  simp only [queuesRequest, Bool.and_eq_true, all_eq_true, mem_range, Bool.not_eq_true'] at queues
  obtain ⟨⟨rfl, accepts⟩, fresh⟩ := queues
  have others : ∀ {slot number}, machine.awaitedNumber slot = some number → slot ≠ sid.toNat := by
    rintro _ _ waits rfl
    simp [awaitedNumber, idle] at waits
  have none : ∀ {other}, ¬ machine.ports.awaits (machine.nextNumber sid) other = true := by
    intro other taken
    rw [fresh other (awaits_iff.mp taken).1] at taken
    cases taken
  unfold startRequest
  dsimp only
  rw [fsrouteExpect_eq]
  cases free : machine.ports.freeEntry with
  | none =>
    dsimp only
    rw [if_pos (by decide)]
    refine left.of_same (fun _ _ => rfl) fun slot number waits => ?_
    rw [awaitedNumber_setWasi, if_neg (others waits)]
    exact waits
  | some entry =>
    dsimp only
    rw [if_neg (by decide)]
    constructor
    · intro number other taken
      rcases awaits_queued taken with ⟨-, rfl⟩ | before
      · refine ⟨sid.toNat, ?_⟩
        rw [awaitedNumber_setWasi, if_pos rfl]
        refine if_pos (decide_eq_true (status_of_fsAccepts ?_ _))
        exact accepts
      · obtain ⟨slot, waits⟩ := left.inCall before
        refine ⟨slot, ?_⟩
        rw [awaitedNumber_setWasi, if_neg (others waits)]
        exact waits
    · intro number first second firstTaken secondTaken
      rcases awaits_queued firstTaken with ⟨rfl, rfl⟩ | firstBefore
      · rcases awaits_queued secondTaken with ⟨rfl, -⟩ | secondBefore
        · rfl
        · exact absurd secondBefore none
      · rcases awaits_queued secondTaken with ⟨-, rfl⟩ | secondBefore
        · exact absurd firstBefore none
        · exact left.single firstBefore secondBefore

theorem spared {op : GuestOp} (spares : op.sparesCalls = true)
    (frees : op.freesSlots machine = true) : (op.run machine).NoneLeft := by
  refine left.of_same (GuestOp.awaits_run spares) fun slot number waits => ?_
  unfold GuestOp.run
  split
  · cases op with
    | request | collect | giveUp => cases spares
    | create | send | recv | exit | reap | preload | spawn =>
      exact GuestOp.awaitedNumber_withKernel frees rfl waits
    | bind sid name =>
      dsimp only [GuestOp.effect]
      split
      next may =>
        have moves := congrArg (·.sched) (if_pos may : (GuestOp.bind sid name).effect machine = _)
        exact GuestOp.awaitedNumber_withKernel frees moves waits
      · exact waits
    | focusSet allocOk sid h =>
      dsimp only [GuestOp.effect, inputFocusSet]
      repeat' split
      all_goals exact waits
    | fdAlloc sid =>
      dsimp only [GuestOp.effect, allocFd]
      split <;> exact (machine.awaitedNumber_setFds sid _ slot).trans waits
    | fdOpen | fdMove =>
      dsimp only [GuestOp.effect]
      split <;> exact waits
    | fdRelease sid fd =>
      dsimp only [GuestOp.effect, releaseFd]
      split
      · exact ((machine.setRfd sid fd none).awaitedNumber_setFds sid _ slot).trans waits
      · exact waits
  · exact waits

theorem next {op : GuestOp} (frees : op.freesSlots machine = true) : (op.run machine).NoneLeft := by
  by_cases spares : op.sparesCalls = true
  · exact left.spared spares frees
  unfold run
  split
  next runs =>
    cases op with
    | request allocOk sid op path payload =>
      exact left.request (runs.2.2.resolve_left nofun) (Bool.and_eq_true_iff.mp frees).1
    | collect sid => exact left.collect
    | giveUp sid => exact left.giveUp
    | _ => exact absurd rfl spares
  · exact left

end Machine.NoneLeft

/--
Over every history that meets the condition, every slot that is taken is that
of a call in progress.  So with no session in a call the next one is accepted.
-/
theorem calls_leave_no_slot {ops : List GuestOp} {final : Machine}
    (run : Run (fun before op after => op.freesSlots before = true ∧ op.run before = after)
      .boot ops final) :
    final.NoneLeft ∧ ((∀ slot, final.awaitedNumber slot = none) →
      ∀ seq name, (final.ports.fsrouteExpect seq name).1 = 0) := by
  have left : final.NoneLeft := by
    refine run.invariant ?_ .boot
    rintro before op _ left ⟨frees, rfl⟩
    exact left.next frees
  refine ⟨left, fun idle seq name => ?_⟩
  rw [fsrouteExpect_eq]
  cases free : final.ports.freeEntry with
  | some entry => rfl
  | none =>
    have taken := List.find?_eq_none.mp free 0 (by decide)
    rw [Bool.not_eq_true', Bool.not_eq_false] at taken
    obtain ⟨slot, waits⟩ := left.inCall (awaits_iff.mpr ⟨by decide, taken, rfl⟩)
    rw [idle slot] at waits
    cases waits

def fileCall : GuestOp := .request true 2 1 (ascii "/a") []

def fileService : List GuestOp :=
  [startOp (ascii "fs") 0, startApp, .create 1 (ascii "fs")]

/-- A call that gives up leaves no slot behind. -/
theorem calls_leave_no_slot_of_giveUp :
    (machineAfter (fileService ++ [fileCall])).awaitedNumber 2 = some 1 ∧
      (machineAfter (fileService ++ [fileCall, .giveUp 2])).NoneLeft := by
  refine ⟨by decide +kernel, (calls_leave_no_slot (Run.of_admits ?_)).1⟩
  decide +kernel

/--
Eight calls before the service has its port.  Then there is a port with room,
nobody is in a call, and the ninth call is refused.
-/
theorem refused_calls_block :
    let ops := [startOp (ascii "fs") 0, startApp] ++ replicate 8 fileCall
    let machine := machineAfter (ops ++ [.create 1 (ascii "fs")])
    machine.ports.fsAccepts = true ∧ machine.awaitedNumber 2 = none ∧
      machine.ports.awaits 1 0 = true ∧ (machine.ports.fsrouteExpect 9 (ascii "app")).1 = -1 ∧
      (fileCall.run machine).awaitedNumber 2 = none := by
  decide +kernel

end KernelLane.Kern
