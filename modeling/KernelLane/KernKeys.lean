import KernelLane.KernCpu
import KernelLane.KernNames

namespace KernelLane.Kern

open List Inq

/-!
# Key events and the focus

The ring of key records is one for all sessions, and the focus is looked at
when a session reads.  Each waiting key is followed here together with the
session that had the focus when the key came in: the slot, and how many
sessions the slot has had.  Keys reach the session they came in for as long as
the focus moves, and the focused slot is taken by a new session, only while no
key waits.
-/

/-- A session: its slot, and which of the slot's sessions it is. -/
structure Holder where
  sid : UInt32
  age : Nat
  deriving DecidableEq, Repr

/-- A key, and the session that had the focus when it came in. -/
structure Key where
  record : KeyRecord
  holder : Option Holder
  deriving DecidableEq, Repr

/-- The processor, with the keys that wait and those that were returned. -/
structure Typed where
  cpu : Cpu
  /-- The number of sessions that each slot has had. -/
  age : Nat → Nat
  waiting : List Key
  returned : List (Holder × Key)

open Typed

namespace Typed

def occupant (typed : Typed) (sid : UInt32) : Holder := ⟨sid, typed.age sid.toNat⟩

def focused (typed : Typed) : Option Holder := typed.cpu.focus.map typed.occupant

def arrive (typed : Typed) (received : Bytes) : List Key :=
  ((received.take 64).map fun b => Key.mk (keyDown b) typed.focused).foldl queued typed.waiting

def room (typed : Typed) (sid cap : UInt32) : Nat :=
  if cap < 4 then 0
  else if typed.cpu.focus ≠ some sid then 0
  else cap.toNat / 4

/-- Follow an operation. -/
def next (typed : Typed) (op : CpuOp) : Typed where
  cpu := op.run typed.cpu
  age := fun slot =>
    if (op.act typed.cpu).spawns typed.cpu slot then typed.age slot + 1
    else typed.age slot
  waiting :=
    match op.act typed.cpu with
    | .turn received =>
      if typed.cpu.sched.allDead then typed.waiting
      else typed.arrive received
    | .read sid cap => typed.waiting.drop (typed.room sid cap)
    | _ => typed.waiting
  returned :=
    match op.act typed.cpu with
    | .read sid cap =>
      typed.returned ++ (typed.waiting.take (typed.room sid cap)).map fun key =>
        (typed.occupant sid, key)
    | _ => typed.returned

def boot : Typed where
  cpu := .boot
  age := fun _ => 0
  waiting := []
  returned := []

end Typed

/-! ## What moves the focus -/

def GuestOp.movesFocus (machine : Machine) (op : GuestOp) : Bool :=
  match op with
  | .focusSet _ sid h =>
    machine.focus.isSome && machine.focus ≠ some sid &&
      machine.sched.capmaskOf sid &&& capFocus ≠ 0 &&
      machine.ports.ownerOfHandle sid h = some sid
  | _ => false

def GuestOp.inheritsFocus (machine : Machine) (op : GuestOp) : Bool :=
  op.starts machine &&
    match machine.sched.nextSlot with
    | none => false
    | some slot => machine.focus = some (UInt32.ofNat slot)

/--
While a key waits, the focus is not moved to another session, and no session
is started in the slot that has it.
-/
def CpuOp.keepsKeys (cpu : Cpu) (op : CpuOp) : Bool :=
  cpu.inq.qn = 0 ||
    match op.act cpu with
    | .guest guest => !guest.movesFocus cpu.toMachine && !guest.inheritsFocus cpu.toMachine
    | _ => true

/-- A step that keeps the keys with their session. -/
def Typed.KeepingStep (before : Typed) (op : CpuOp) (after : Typed) : Prop :=
  op.keepsKeys before.cpu = true ∧ before.next op = after

/-! ## Keys stay with their session -/

/-- The ring holds the records of the keys that wait. -/
structure Typed.Agrees (typed : Typed) : Prop where
  ready : typed.cpu.inq.Ready
  same : typed.cpu.inq.contents = typed.waiting.map Key.record

/-- The keys came in for the session that has the focus, and went there. -/
structure Typed.Loyal (typed : Typed) : Prop where
  waiting : ∀ key ∈ typed.waiting, ∀ holder, key.holder = some holder → typed.focused = some holder
  returned : ∀ pair ∈ typed.returned, ∀ holder, pair.2.holder = some holder → holder = pair.1

theorem Inq.map_queued {α β : Type} (f : α → β) (queue items : List α) :
    (items.foldl queued queue).map f = (items.map f).foldl queued (queue.map f) := by
  induction items generalizing queue with
  | nil => rfl
  | cons item rest hypothesis =>
    have pushed : (queued queue item).map f = queued (queue.map f) (f item) := by
      unfold queued
      rw [length_map]
      split
      · rfl
      · rw [map_append, map_singleton]
    rw [foldl_cons, hypothesis, map_cons, foldl_cons, pushed]

theorem Inq.mem_queued {α : Type} {queue items : List α} {item : α}
    (member : item ∈ items.foldl queued queue) : item ∈ queue ∨ item ∈ items := by
  induction items generalizing queue with
  | nil => exact .inl member
  | cons first rest hypothesis =>
    rcases hypothesis member with early | late
    · unfold queued at early
      split at early
      · exact .inl early
      rw [mem_append, mem_singleton] at early
      rcases early with old | rfl
      · exact .inl old
      · exact .inr mem_cons_self
    · exact .inr (mem_cons_of_mem first late)

variable {typed : Typed} {op : CpuOp}

theorem Typed.Agrees.recv (agrees : typed.Agrees) (sid cap : UInt32) :
    (typed.cpu.inq.recv typed.cpu.focus sid cap).2.Ready ∧
      (typed.cpu.inq.recv typed.cpu.focus sid cap).2.contents =
        (typed.waiting.drop (typed.room sid cap)).map Key.record ∧
      (typed.cpu.inq.recv typed.cpu.focus sid cap).1 =
        (typed.waiting.take (typed.room sid cap)).flatMap fun key => key.record.bytes := by
  unfold Inq.recv room
  split
  · exact ⟨agrees.ready, agrees.same, rfl⟩
  split
  · exact ⟨agrees.ready, agrees.same, rfl⟩
  obtain ⟨ready, left, copied⟩ := copyOut_spec agrees.ready (cap.toNat / 4)
  refine ⟨ready, ?_, ?_⟩
  · rw [left, agrees.same, map_drop]
  · rw [copied, agrees.same, ← map_take, flatMap_map]

theorem Typed.Agrees.turn (agrees : typed.Agrees) (received : Bytes) :
    (typed.cpu.turn received).inq.Ready ∧ (typed.cpu.turn received).inq.contents =
      (if typed.cpu.sched.allDead then typed.waiting
      else typed.arrive received).map Key.record := by
  have polled := poll_spec agrees.ready received
  have queued : (typed.arrive received).map Key.record =
      (typed.cpu.inq.poll received).contents := by
    rw [polled.2, agrees.same, arrive, map_queued, map_map]
    rfl
  rcases typed.cpu.turn_cases received with ⟨ended, same⟩ | ⟨living, moves⟩
  · rw [same, if_pos ended]
    exact ⟨agrees.ready, agrees.same⟩
  · rw [if_neg (by rw [living]; decide), queued]
    rcases moves with ⟨_, same⟩ | ⟨slot, _, same⟩
    · rw [same]
      exact ⟨polled.1, rfl⟩
    · rw [same]
      exact ⟨polled.1, rfl⟩

theorem Typed.Agrees.next (agrees : typed.Agrees) (op : CpuOp) : (typed.next op).Agrees := by
  unfold Typed.next CpuOp.run
  cases acts : op.act typed.cpu with
  | turn received =>
    obtain ⟨ready, same⟩ := agrees.turn received
    exact ⟨ready, same⟩
  | read sid cap =>
    obtain ⟨ready, same, -⟩ := agrees.recv sid cap
    exact ⟨ready, same⟩
  | _ => exact ⟨agrees.ready, agrees.same⟩

/-- While a key waits for a session, a guest operation leaves it the focus. -/
theorem Typed.focused_guest {guest : GuestOp} {holder : Holder}
    (keeps : (!guest.movesFocus typed.cpu.toMachine &&
      !guest.inheritsFocus typed.cpu.toMachine) = true) (acts : op.act typed.cpu = .guest guest)
    (focused : typed.focused = some holder) : (typed.next op).focused = some holder := by
  unfold Typed.focused at focused ⊢
  rw [Option.map_eq_some_iff] at focused
  obtain ⟨sid, focus, rfl⟩ := focused
  rw [Bool.and_eq_true, Bool.not_eq_true', Bool.not_eq_true'] at keeps
  obtain ⟨unmoved, uninherited⟩ := keeps
  have after : (typed.next op).cpu.focus = (guest.effect typed.cpu.toMachine).focus := by
    simp only [next, CpuOp.run, acts]
    rfl
  have still : (typed.next op).cpu.focus = some sid := by
    rw [after]
    rcases (guest.effect_spec typed.cpu.toMachine).2 with
      same | ⟨allocOk, caller, h, rfl, may, owner, moved⟩
    · rw [same, focus]
    · rw [moved]
      by_cases own : caller = sid
      · rw [own]
      · have elsewhere : ¬ sid = caller := fun same => own same.symm
        simp [GuestOp.movesFocus, focus, elsewhere, may, owner] at unmoved
  have aged : (typed.next op).age sid.toNat = typed.age sid.toNat := by
    simp only [next, acts]
    rw [if_neg]
    intro spawned
    obtain ⟨starts, slot⟩ := GuestOp.nextSlot_of_spawned spawned
    simp [GuestOp.inheritsFocus, starts, slot, focus] at uninherited
  rw [still]
  simp only [Option.map_some, occupant, aged]

theorem Typed.focused_other (other : ∀ guest, op.act typed.cpu ≠ .guest guest) :
    (typed.next op).focused = typed.focused := by
  have focus : (typed.next op).cpu.focus = typed.cpu.focus := (typed.cpu.perform_tables other).2
  have aged : (typed.next op).age = typed.age := by
    funext slot
    have unspawned : (op.act typed.cpu).spawns typed.cpu slot = false := by
      unfold CpuAct.spawns
      split
      next guest acts => exact absurd acts (other guest)
      · rfl
    simp [next, unspawned]
  unfold focused occupant
  rw [focus, aged]

theorem Typed.Loyal.next (loyal : typed.Loyal) (agrees : typed.Agrees)
    (keeps : op.keepsKeys typed.cpu = true) : (typed.next op).Loyal := by
  cases acts : op.act typed.cpu with
  | guest guest =>
    have waiting : (typed.next op).waiting = typed.waiting := by simp only [Typed.next, acts]
    have returned : (typed.next op).returned = typed.returned := by simp only [Typed.next, acts]
    refine ⟨?_, by rw [returned]; exact loyal.returned⟩
    intro key member holder came
    rw [waiting] at member
    unfold CpuOp.keepsKeys at keeps
    rw [Bool.or_eq_true, decide_eq_true_eq, acts] at keeps
    rcases keeps with empty | keeps
    · have none : typed.waiting = [] := by
        rw [← map_eq_nil_iff, ← agrees.same, ← length_eq_zero_iff, length_contents, empty]
      rw [none] at member
      cases member
    · exact typed.focused_guest keeps acts (loyal.waiting key member holder came)
  | turn received =>
    have focused : (typed.next op).focused = typed.focused :=
      typed.focused_other (by rw [acts]; nofun)
    have returned : (typed.next op).returned = typed.returned := by simp only [Typed.next, acts]
    refine ⟨?_, by rw [returned]; exact loyal.returned⟩
    intro key member holder came
    rw [focused]
    simp only [Typed.next, acts] at member
    split at member
    · exact loyal.waiting key member holder came
    rcases mem_queued member with old | arrived
    · exact loyal.waiting key old holder came
    · rw [mem_map] at arrived
      obtain ⟨b, -, rfl⟩ := arrived
      exact came
  | read sid cap =>
    have focused : (typed.next op).focused = typed.focused :=
      typed.focused_other (by rw [acts]; nofun)
    refine ⟨?_, ?_⟩
    · intro key member holder came
      rw [focused]
      simp only [Typed.next, acts] at member
      exact loyal.waiting key (mem_of_mem_drop member) holder came
    · intro pair member holder came
      simp only [Typed.next, acts, mem_append, mem_map] at member
      rcases member with old | ⟨key, taken, rfl⟩
      · exact loyal.returned pair old holder came
      · have had := loyal.waiting key (mem_of_mem_take taken) holder came
        have focus : typed.cpu.focus = some sid := by
          unfold Typed.room at taken
          split at taken
          · cases taken
          split at taken
          · cases taken
          next focus => exact not_not.mp focus
        rw [Typed.focused, focus] at had
        exact (Option.some.inj had).symm
  | _ =>
    have focused : (typed.next op).focused = typed.focused :=
      typed.focused_other (by rw [acts]; nofun)
    have waiting : (typed.next op).waiting = typed.waiting := by simp only [Typed.next, acts]
    have returned : (typed.next op).returned = typed.returned := by simp only [Typed.next, acts]
    refine ⟨?_, by rw [returned]; exact loyal.returned⟩
    rw [waiting, focused]
    exact loyal.waiting

/--
In every run in which the focus moves, and its slot is taken by a new session,
only while no key waits, every key that was returned had come in for the
session it was returned to.  The keys that are followed are those of the ring,
and a read returns them.
-/
theorem keys_reach_their_session {ops : List CpuOp} {final : Typed}
    (run : Run Typed.KeepingStep .boot ops final) :
    (∀ pair ∈ final.returned, ∀ holder, pair.2.holder = some holder → holder = pair.1) ∧
      final.cpu.inq.contents = final.waiting.map Key.record ∧
      ∀ sid cap, (final.cpu.inq.recv final.cpu.focus sid cap).1 =
        (final.waiting.take (final.room sid cap)).flatMap fun key => key.record.bytes := by
  have invariant : final.Agrees ∧ final.Loyal := by
    refine @Run.invariant _ _ _ _ _ (fun typed : Typed => typed.Agrees ∧ typed.Loyal) _ run ?_ ?_
    · rintro before op after ⟨agrees, loyal⟩ ⟨keeps, rfl⟩
      exact ⟨agrees.next op, loyal.next agrees keeps⟩
    · exact ⟨⟨boot_ready, rfl⟩, nofun, nofun⟩
  obtain ⟨agrees, loyal⟩ := invariant
  exact ⟨loyal.returned, agrees.same, fun sid cap => (agrees.recv sid cap).2.2⟩

/-! ## Two sessions with the focus capability -/

def twoTypists : List CpuOp :=
  [.start (startOp (ascii "one") capFocus), .start (startOp (ascii "two") capFocus), .pass []]

def takeFocus (sid : UInt32) (name : Bytes) : List CpuOp :=
  [.call (.create sid name), .call (.focusSet true sid 0)]

def stolenKeyOps : List CpuOp :=
  twoTypists ++ takeFocus 1 (ascii "one") ++ [.yield true, .pass [97]] ++
    takeFocus 2 (ascii "two") ++ [.inputRecv 4]

/-- The key that came in for the first session is returned to the second. -/
theorem stolen_key_returned : (stolenKeyOps.foldl next .boot).returned =
    [(⟨2, 1⟩, ⟨keyDown 97, some ⟨1, 1⟩⟩)] := by
  decide +kernel

def readKeyOps : List CpuOp :=
  twoTypists ++ takeFocus 1 (ascii "one") ++
    [.yield true, .pass [97], .yield true, .pass [], .inputRecv 4, .yield true, .pass []] ++
    takeFocus 2 (ascii "two") ++
    [.yield true, .pass [98], .yield true, .pass [], .inputRecv 4]

/-- Each session gets its key. -/
theorem keys_reach_two_sessions : (readKeyOps.foldl next .boot).returned =
      [(⟨1, 1⟩, ⟨keyDown 97, some ⟨1, 1⟩⟩), (⟨2, 1⟩, ⟨keyDown 98, some ⟨2, 1⟩⟩)] ∧
    (readKeyOps.foldl next .boot).cpu.inq.contents =
      (readKeyOps.foldl next .boot).waiting.map Key.record := by
  have run : Run Typed.KeepingStep .boot readKeyOps (readKeyOps.foldl next .boot) :=
    Run.of_admits (by decide +kernel)
  exact ⟨by decide +kernel, (keys_reach_their_session run).2.1⟩

end KernelLane.Kern
