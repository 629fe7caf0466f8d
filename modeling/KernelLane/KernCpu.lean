import KernelLane.KernDoors
import KernelLane.KernInput

namespace KernelLane.Kern

open List

/-!
# The scheduler loop and the session on the processor

One core runs the sessions.  The scheduler loop gives back the slots of
zombies, takes the keys that came in, and switches to the next runnable
session; the session runs until it yields, and an interrupt only leaves a mark
for the next yield.  A yield makes the session runnable whatever state it was
in: a session that has killed itself keeps the processor, and its next yield
revives it.  A session on the processor therefore need not be alive.
-/

/-- The machine with its processor. -/
structure Cpu extends Machine where
  /-- The session on the processor; none while the scheduler loop runs. -/
  cur : Option UInt32
  /-- The slot at which the next scan starts. -/
  nextRr : Nat
  /-- The session that an interrupt has marked, or 0. -/
  pending : UInt32
  inq : Inq

/-- What happens on the processor. -/
inductive CpuOp where
  /-- The kernel starts its first sessions. -/
  | start (op : GuestOp)
  /-- One turn of the scheduler loop, and what the console has received. -/
  | pass (received : Bytes)
  /-- The session computes. -/
  | compute
  /-- The session calls an import. -/
  | call (op : GuestOp)
  | inputRecv (cap : UInt32)
  | interrupt
  | yield (preemptOn : Bool)
  /-- The session's run is over. -/
  | finish

def Sched.setStatus (sched : Sched) (slot : Nat) (status : Status) : Sched :=
  sched.setSession slot { sched.sessions slot with status := status }

def Sched.allDead (sched : Sched) : Bool :=
  Sched.slots.all fun slot =>
    (sched.sessions slot).status = .free ||
      (sched.sessions slot).status = .zombie

namespace Cpu

def pick (cpu : Cpu) : Option Nat :=
  ((range maxSessions).map fun k => (cpu.nextRr + k) % maxSessions).find? fun slot =>
    slot ≠ 0 && (cpu.sched.sessions slot).status = .runnable

def sweep (cpu : Cpu) (received : Bytes) : Cpu :=
  { cpu with sched := cpu.sched.reapZombies, inq := cpu.inq.poll received }

def switchTo (cpu : Cpu) (slot : Nat) : Cpu :=
  { cpu with
    sched := cpu.sched.setStatus slot .running
    cur := some (UInt32.ofNat slot)
    nextRr := (slot + 1) % maxSessions }

def turn (cpu : Cpu) (received : Bytes) : Cpu :=
  if cpu.sched.allDead then cpu
  else
    match (cpu.sweep received).pick with
    | none => cpu.sweep received
    | some slot => (cpu.sweep received).switchTo slot

def withMachine (cpu : Cpu) (machine : Machine) : Cpu := { cpu with toMachine := machine }

def mayCall (cpu : Cpu) (sid : UInt32) (op : GuestOp) : Bool :=
  op.caller = some sid && (op.awaitsReply || !cpu.toMachine.waiting sid) &&
    match op with
    | .exit _ => false
    | _ => true

def mayInput (cpu : Cpu) (sid : UInt32) : Bool := cpu.sched.capmaskOf sid &&& capFocus ≠ 0

def leave (cpu : Cpu) (sid : UInt32) (status : Status) : Cpu :=
  { cpu with sched := cpu.sched.setStatus sid.toNat status, cur := none }

def boot : Cpu where
  toMachine := .boot
  cur := none
  nextRr := 1
  pending := 0
  inq := .boot

end Cpu

def GuestOp.starting : GuestOp → Bool
  | .preload _ => true
  | .spawn _ _ _ _ _ => true
  | _ => false

/-- What an operation comes to. -/
inductive CpuAct where
  | rest
  | guest (op : GuestOp)
  | turn (received : Bytes)
  | read (sid cap : UInt32)
  | mark (sid : UInt32)
  | yield (sid : UInt32) (preemptOn : Bool)
  | finish (sid : UInt32)

/-- What an operation comes to in a state; a halted kernel does nothing. -/
def CpuOp.act (cpu : Cpu) (op : CpuOp) : CpuAct :=
  if cpu.halted then .rest
  else
    match op, cpu.cur with
    | .start op, none => if op.starting then .guest op else .rest
    | .pass received, none => .turn received
    | .call op, some sid => if cpu.mayCall sid op then .guest op else .rest
    | .inputRecv cap, some sid =>
      if cpu.mayInput sid then .read sid cap else .rest
    | .interrupt, some sid => if sid = 0 then .rest else .mark sid
    | .yield preemptOn, some sid => .yield sid preemptOn
    | .finish, some sid => .finish sid
    | _, _ => .rest

/-- Do it. -/
def Cpu.perform (cpu : Cpu) : CpuAct → Cpu
  | .rest => cpu
  | .guest op => cpu.withMachine (op.effect cpu.toMachine)
  | .turn received => cpu.turn received
  | .read sid cap => { cpu with inq := (cpu.inq.recv cpu.focus sid cap).2 }
  | .mark sid => { cpu with pending := sid }
  -- Marked by an interrupt or not, the session becomes runnable.
  | .yield sid preemptOn =>
    { cpu.leave sid .runnable with
      pending := if preemptOn then 0 else cpu.pending }
  | .finish sid => cpu.leave sid .zombie

def CpuOp.run (cpu : Cpu) (op : CpuOp) : Cpu := cpu.perform (op.act cpu)

def CpuAct.spawns (cpu : Cpu) (act : CpuAct) (slot : Nat) : Bool :=
  match act with
  | .guest op => Machine.spawned cpu.sched (op.effect cpu.toMachine).sched slot
  | _ => false

/-! ## Who is on the processor -/

def CpuAct.actor : CpuAct → Option UInt32
  | .read sid _ => some sid
  | .mark sid => some sid
  | .yield sid _ => some sid
  | .finish sid => some sid
  | _ => none

namespace CpuOp

variable {cpu : Cpu} {op : CpuOp}

theorem act_guest {guest : GuestOp} (acts : op.act cpu = .guest guest) :
    cpu.cur = none ∧ guest.starting = true ∨
      ∃ sid, cpu.cur = some sid ∧ cpu.mayCall sid guest = true := by
  unfold act at acts
  split at acts
  · cases acts
  split at acts
  next loop =>
    split at acts
    next starting =>
      cases acts
      exact .inl ⟨loop, starting⟩
    · cases acts
  · cases acts
  next sid runs =>
    split at acts
    next may =>
      cases acts
      exact .inr ⟨sid, runs, may⟩
    · cases acts
  · split at acts <;> cases acts
  · split at acts <;> cases acts
  · cases acts
  · cases acts
  · cases acts

theorem act_turn {received : Bytes} (acts : op.act cpu = .turn received) : cpu.cur = none := by
  unfold act at acts
  split at acts
  · cases acts
  split at acts
  · split at acts <;> cases acts
  next loop => exact loop
  · split at acts <;> cases acts
  · split at acts <;> cases acts
  · split at acts <;> cases acts
  · cases acts
  · cases acts
  · cases acts

theorem act_actor {sid : UInt32} (acts : (op.act cpu).actor = some sid) : cpu.cur = some sid := by
  unfold act at acts
  split at acts
  · cases acts
  split at acts
  · split at acts <;> cases acts
  · cases acts
  · split at acts <;> cases acts
  next runs =>
    split at acts <;> cases acts
    exact runs
  next runs =>
    split at acts <;> cases acts
    exact runs
  next runs =>
    cases acts
    exact runs
  next runs =>
    cases acts
    exact runs
  · cases acts

end CpuOp

/-! ## Slots -/

theorem Sched.setStatus_of_ne (sched : Sched) {slot other : Nat} (status : Status)
    (different : other ≠ slot) :
    (sched.setStatus slot status).sessions other = sched.sessions other := by
  rw [setStatus, sessions_setSession_of_ne sched _ different]

namespace Cpu

theorem pick_spec {cpu : Cpu} {slot : Nat} (found : cpu.pick = some slot) :
    0 < slot ∧ slot < maxSessions ∧ (cpu.sched.sessions slot).status = .runnable := by
  have chosen := find?_some found
  have member := mem_of_find?_eq_some found
  rw [mem_map] at member
  obtain ⟨k, -, rfl⟩ := member
  rw [Bool.and_eq_true, decide_eq_true_eq, decide_eq_true_eq] at chosen
  exact ⟨Nat.pos_of_ne_zero chosen.1, Nat.mod_lt _ (by decide), chosen.2⟩

theorem turn_cases (cpu : Cpu) (received : Bytes) :
    cpu.sched.allDead = true ∧ cpu.turn received = cpu ∨ cpu.sched.allDead = false ∧
      ((cpu.sweep received).pick = none ∧ cpu.turn received = cpu.sweep received ∨ ∃ slot,
        (cpu.sweep received).pick = some slot ∧
          cpu.turn received = (cpu.sweep received).switchTo slot) := by
  unfold turn
  split
  next dead => exact .inl ⟨dead, rfl⟩
  next living =>
    refine .inr ⟨Bool.eq_false_of_not_eq_true living, ?_⟩
    split
    next none => exact .inl ⟨none, rfl⟩
    next slot found => exact .inr ⟨slot, found, rfl⟩

theorem perform_tables (cpu : Cpu) {act : CpuAct} (other : ∀ guest, act ≠ .guest guest) :
    (cpu.perform act).ports = cpu.ports ∧ (cpu.perform act).focus = cpu.focus := by
  cases act with
  | guest guest => exact absurd rfl (other guest)
  | turn received =>
    rcases cpu.turn_cases received with
      ⟨_, same⟩ | ⟨_, ⟨_, same⟩ | ⟨slot, _, same⟩⟩ <;>
    · rw [perform, same]
      exact ⟨rfl, rfl⟩
  | _ => exact ⟨rfl, rfl⟩

end Cpu

/-!
## Every runnable session gets its turn

The scan for the next session starts behind the one that was picked last.  A
pick of another session therefore brings the start nearer to a session that
stays runnable, whatever the sessions do in between.
-/

def CpuOp.picks (cpu : Cpu) (op : CpuOp) : Option Nat :=
  match op.act cpu with
  | .turn received => if cpu.sched.allDead then none else (cpu.sweep received).pick
  | _ => none

namespace Cpu

def picked : Cpu → List CpuOp → List Nat
  | _, [] => []
  | cpu, op :: rest => (op.picks cpu).toList ++ picked (op.run cpu) rest

/-- The session in the slot is runnable before every operation until it is picked. -/
def StaysRunnable (slot : Nat) : Cpu → List CpuOp → Prop
  | _, [] => True
  | cpu, op :: rest =>
    (cpu.sched.sessions slot).status = .runnable ∧
      (op.picks cpu ≠ some slot → StaysRunnable slot (op.run cpu) rest)

variable {cpu : Cpu} {op : CpuOp} {slot other : Nat}

theorem nextRr_of_picks_none (picksNone : op.picks cpu = none) :
    (op.run cpu).nextRr = cpu.nextRr := by
  unfold CpuOp.picks at picksNone
  unfold CpuOp.run
  cases acts : op.act cpu with
  | turn received =>
    rw [acts] at picksNone
    dsimp only at picksNone
    rcases cpu.turn_cases received with ⟨_, rest⟩ | ⟨living, ⟨_, swept⟩ | ⟨slot, found, _⟩⟩
    · rw [perform, rest]
    · rw [perform, swept]
      rfl
    · rw [living, found] at picksNone
      cases picksNone
  | _ => rfl

/-- A pick is the first runnable slot of a scan, and the next scan starts behind it. -/
theorem picks_spec (picks : op.picks cpu = some other)
    (runnable : (cpu.sched.sessions slot).status = .runnable) (notKernel : slot ≠ 0) {distance : Nat}
    (ahead : (cpu.nextRr + distance) % maxSessions = slot) :
    ∃ k ≤ distance, other = (cpu.nextRr + k) % maxSessions ∧
      (op.run cpu).nextRr = (other + 1) % maxSessions := by
  unfold CpuOp.picks at picks
  unfold CpuOp.run
  cases acts : op.act cpu with
  | turn received =>
    rw [acts] at picks
    dsimp only at picks
    split at picks
    · cases picks
    next living =>
      have turned : cpu.turn received = (cpu.sweep received).switchTo other := by
        rw [turn, if_neg living, picks]
      unfold pick at picks
      rw [find?_map, Option.map_eq_some_iff] at picks
      obtain ⟨k, found, rfl⟩ := picks
      obtain ⟨-, -, earlier⟩ := find?_range_eq_some.mp found
      refine ⟨k, ?_, rfl, by rw [perform, turned]; rfl⟩
      by_contra behind
      have swept : ((cpu.sweep received).sched.sessions slot).status = .runnable := by
        dsimp only [sweep, Sched.reapZombies]
        rw [if_neg (by simp [runnable])]
        exact runnable
      have skipped := earlier distance (Nat.lt_of_not_le behind)
      simp [sweep, ahead, notKernel] at skipped swept
      exact skipped swept
  | _ =>
    rw [acts] at picks
    cases picks

/-- The slot is picked before more picks than it is away from the scan's start. -/
theorem mem_picked {ops : List CpuOp} (notKernel : slot ≠ 0) {distance : Nat}
    (ahead : (cpu.nextRr + distance) % maxSessions = slot)
    (stays : cpu.StaysRunnable slot ops) (many : distance < (cpu.picked ops).length) :
    slot ∈ (cpu.picked ops).take (distance + 1) := by
  induction ops generalizing cpu distance with
  | nil => cases many
  | cons op rest hypothesis =>
    obtain ⟨runnable, later⟩ := stays
    unfold picked at many ⊢
    cases picks : op.picks cpu with
    | none =>
      rw [picks] at many later
      rw [← nextRr_of_picks_none picks] at ahead
      exact hypothesis ahead (later nofun) many
    | some other =>
      by_cases same : other = slot
      · subst same
        exact mem_cons_self
      · obtain ⟨k, near, place, start⟩ := picks_spec picks runnable notKernel ahead
        have before : k < distance := by
          refine Nat.lt_of_le_of_ne near ?_
          rintro rfl
          exact same (place.trans ahead)
        rw [picks] at many later
        obtain ⟨left, rfl⟩ := Nat.exists_eq_add_of_lt before
        have nearer : ((op.run cpu).nextRr + left) % maxSessions = slot := by
          rw [start, place, ← ahead]
          unfold maxSessions
          omega
        have enough : left < (picked (op.run cpu) rest).length := by
          simp only [Option.toList_some, singleton_append, length_cons] at many
          omega
        have found := hypothesis nearer (later fun isSlot => same (Option.some.inj isSlot)) enough
        refine mem_cons_of_mem _ (take_subset_take_left _ ?_ found)
        omega

/--
A session that stays runnable is among the next `MAX_SESSIONS` picks of the
scheduler, in every run from every state.
-/
theorem picked_within_maxSessions {ops : List CpuOp} (notKernel : slot ≠ 0)
    (inTable : slot < maxSessions) (stays : cpu.StaysRunnable slot ops)
    (many : maxSessions ≤ (cpu.picked ops).length) : slot ∈ (cpu.picked ops).take maxSessions := by
  obtain ⟨distance, inScan, ahead⟩ :
      ∃ distance < maxSessions, (cpu.nextRr + distance) % maxSessions = slot := by
    refine ⟨(slot + (maxSessions - cpu.nextRr % maxSessions)) % maxSessions, ?_, ?_⟩
    · exact Nat.mod_lt _ (by decide)
    · unfold maxSessions at inTable ⊢
      omega
  have found := mem_picked notKernel ahead stays (by omega)
  exact take_subset_take_left _ inScan found

def twoRunnable : Cpu :=
  { boot with sched := (boot.sched.setStatus 1 .runnable).setStatus 2 .runnable }

def yieldingTurns : List CpuOp := (replicate maxSessions [.pass [], .yield false]).flatten

/-- The second of two sessions is picked while the first one runs again and again. -/
theorem second_picked : 2 ∈ (twoRunnable.picked yieldingTurns).take maxSessions := by
  refine picked_within_maxSessions (by decide) (by decide) ?_ (by decide +kernel)
  refine ⟨by decide +kernel, fun _ => ⟨by decide +kernel, fun _ => ⟨by decide +kernel, ?_⟩⟩⟩
  exact fun unpicked => absurd (by decide +kernel) unpicked

end Cpu

end KernelLane.Kern
