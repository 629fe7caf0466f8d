import KernelLane.KernCpu
import KernelLane.KernRegistry

namespace KernelLane.Kern

open GuestFrame List Sched Cpu CpuOp GuestOp UInt32

/-!
# Killed sessions

A kill writes the state of its victim and so does the victim's own yield.  A
session that another one kills is off the processor: its slot stays a zombie's
until the scheduler loop gives it back, once, and only then a new session can
take it.  A session that kills itself is on the processor: it goes on, and its
next yield makes it runnable again.
-/

/-! ## Events -/

/-- What can happen to a slot. -/
inductive SlotEvent where
  /-- Its session's code runs. -/
  | ran
  | killed
  | reaped
  | spawned
  deriving DecidableEq, Repr

def CpuOp.ofSession : CpuOp → Bool
  | .compute => true
  | .call _ => true
  | .inputRecv _ => true
  | .yield _ => true
  | .finish => true
  | _ => false

def CpuOp.runs (cpu : Cpu) (op : CpuOp) (sid : UInt32) : Bool :=
  !cpu.halted && op.ofSession && cpu.cur = some sid

def GuestOp.kills (machine : Machine) (op : GuestOp) (sid : UInt32) : Bool :=
  machine.sched.alive sid && ((op.effect machine).sched.sessions sid.toNat).status = .zombie

def Cpu.reaps (cpu : Cpu) (sid : UInt32) : Bool :=
  slots.contains sid.toNat && (cpu.sched.sessions sid.toNat).status = .zombie

/-- What an act does to a slot. -/
def CpuAct.events (cpu : Cpu) (act : CpuAct) (sid : UInt32) : List SlotEvent :=
  match act with
  | .guest op =>
    (if op.kills cpu.toMachine sid then [.killed] else []) ++
      if act.spawns cpu sid.toNat then [.spawned] else []
  | .turn received =>
    if cpu.sched.allDead then []
    else
      (if cpu.reaps sid then [.reaped] else []) ++
        if (cpu.sweep received).pick = some sid.toNat then [.ran] else []
  | _ => []

def CpuOp.events (cpu : Cpu) (op : CpuOp) (sid : UInt32) : List SlotEvent :=
  (if op.runs cpu sid then [.ran] else []) ++ (op.act cpu).events cpu sid

def Cpu.events (cpu : Cpu) (sid : UInt32) : List CpuOp → List SlotEvent
  | [] => []
  | op :: rest => op.events cpu sid ++ (op.run cpu).events sid rest

/--
Behind a kill, and before the next session takes the slot, the session's code
does not run, and the slot is given back once before it is taken.
-/
def StaysDead (events : List SlotEvent) : Prop :=
  ∀ before during after, events = before ++ .killed :: (during ++ after) → .spawned ∉ during →
    .ran ∉ during ∧ during.count .reaped ≤ 1 ∧
      (after.head? = some .spawned → during.count .reaped = 1)

/-! ## A monitor -/

namespace SlotEvent

def watch (dead : Option Nat) : SlotEvent → Option Nat
  | .ran => dead
  | .killed => some 0
  | .reaped => dead.map (· + 1)
  | .spawned => none

/-- The event may happen. -/
def Fine (dead : Option Nat) : SlotEvent → Prop
  | .ran => dead = none
  | .killed => dead = none
  | .reaped => ∀ times, dead = some times → times = 0
  | .spawned => ∀ times, dead = some times → times = 1

/-- All events of a list may happen. -/
def AllFine (dead : Option Nat) : List SlotEvent → Prop
  | [] => True
  | event :: rest => Fine dead event ∧ AllFine (watch dead event) rest

theorem allFine_append (dead : Option Nat) (first second : List SlotEvent) :
    AllFine dead (first ++ second) ↔
      AllFine dead first ∧ AllFine (first.foldl watch dead) second := by
  induction first generalizing dead with
  | nil => simp [AllFine]
  | cons event rest hypothesis => simp [AllFine, hypothesis, and_assoc]

theorem AllFine.dead {times : Nat} {during after : List SlotEvent}
    (fine : AllFine (some times) (during ++ after)) (atMost : times ≤ 1)
    (unspawned : .spawned ∉ during) : .ran ∉ during ∧ times + during.count .reaped ≤ 1 ∧
      (after.head? = some .spawned → times + during.count .reaped = 1) := by
  induction during generalizing times with
  | nil =>
    refine ⟨nofun, atMost, ?_⟩
    intro next
    obtain ⟨rest, rfl⟩ := head?_eq_some_iff.mp next
    exact fine.1 times rfl
  | cons event rest hypothesis =>
    obtain ⟨now, later⟩ := fine
    have notNow : event ≠ .spawned := by
      rintro rfl
      exact unspawned mem_cons_self
    have notLater : .spawned ∉ rest := fun member => unspawned (mem_cons_of_mem event member)
    cases event with
    | ran | killed => cases now
    | spawned => exact absurd rfl notNow
    | reaped =>
      have zero := now times rfl
      subst zero
      have once : AllFine (some 1) (rest ++ after) := later
      obtain ⟨unrun, most, exactly⟩ := hypothesis once (Nat.le_refl 1) notLater
      refine ⟨?_, ?_, ?_⟩
      · rintro (_ | ⟨_, member⟩)
        exact unrun member
      · rw [count_cons_self]
        omega
      · intro next
        rw [count_cons_self]
        omega

theorem AllFine.staysDead {events : List SlotEvent} (fine : AllFine none events) :
    StaysDead events := by
  rintro before during after rfl unspawned
  have killed := ((allFine_append _ _ _).mp fine).2.2
  have dead := AllFine.dead killed (Nat.zero_le 1) unspawned
  rw [Nat.zero_add] at dead
  exact dead

end SlotEvent

open SlotEvent

/-! ## Who kills whom -/

def GuestOp.asksToKill (machine : Machine) (op : GuestOp) (sid : UInt32) : Bool :=
  match op with
  | .send env caller h data =>
    match (KernOp.send env caller h data).registryRequest machine.toKernel with
    | some (_, asked, payload) => asked = 3 && 4 ≤ payload.length && get32 payload 0 = sid
    | none => false
  | _ => false

theorem Kernel.of_kill_mem_dispatchOps {kernel : Kernel} {env : SvcEnv} {endpoint frame : Bytes}
    {caller sid : UInt32} {h : Int}
    (kills : PortOp.kill sid ∈ kernel.dispatchOps env endpoint caller h frame) :
    endpoint = ascii "registry" ∧ 24 ≤ frame.length ∧ get16 frame 0 = 3 ∧
      4 ≤ (frame.drop 24).length ∧ get32 (frame.drop 24) 0 = sid := by
  unfold dispatchOps at kills
  split at kills
  · cases kills
  next framed =>
  rw [mem_append] at kills
  rcases kills with serving | replying
  · unfold serveOps at serving
    split at serving
    next asked =>
      obtain ⟨registry, request, long, _⟩ := asked
      rw [mem_singleton] at serving
      cases serving
      exact ⟨registry, Nat.le_of_not_lt framed, request, long, rfl⟩
    · cases serving
  · unfold replyOps at replying
    split at replying
    · cases replying
    split at replying
    · rw [mem_singleton] at replying
      cases replying
    split at replying
    · rw [mem_singleton] at replying
      cases replying
    · cases replying

theorem GuestOp.asksToKill_of_ends {machine : Machine} {op : GuestOp} {sid : UInt32}
    (ends : op.ends machine sid = true) (stays : op ≠ .exit sid) :
    op.asksToKill machine sid = true := by
  have kills := (exit_or_kill_of_ends ends).resolve_left stays
  cases issues kills with
  | @send env caller h data _ kills =>
    dsimp only [KernOp.portOps] at kills
    split at kills
    · cases kills
    generalize sent : machine.ports.portSend (machine.sched.uidOf caller) env.allocOk
      caller h data = result at kills
    obtain ⟨outcome, ports⟩ := result
    cases outcome with
    | dispatched endpoint frame =>
      obtain ⟨registry, framed, request, long, named⟩ := Kernel.of_kill_mem_dispatchOps kills
      unfold asksToKill
      dsimp only
      rw [registryRequest_of_dispatched sent, if_pos ⟨registry, framed⟩]
      dsimp only
      rw [request, named]
      simp only [decide_true, Bool.true_and, Bool.and_true, decide_eq_true_eq]
      exact long
    | _ =>
      rw [mem_singleton] at kills
      cases kills

def CpuOp.sparesItself (cpu : Cpu) (op : CpuOp) : Bool :=
  match op.act cpu, cpu.cur with
  | .guest guest, some sid => !guest.asksToKill cpu.toMachine sid
  | _, _ => true

/-- A step in which no session asks to be killed itself. -/
def CpuOp.SparingStep (before : Cpu) (op : CpuOp) (after : Cpu) : Prop :=
  op.sparesItself before = true ∧ op.run before = after

/-! ## The monitor and the machine -/

/--
A dead session is off the processor, its slot a zombie's until it is given
back and free from then on.
-/
def Cpu.Tracks (cpu : Cpu) (sid : UInt32) (dead : Option Nat) : Prop :=
  ∀ times, dead = some times → sid.toNat ∈ slots ∧ cpu.cur ≠ some sid ∧
    (times = 0 ∧ (cpu.sched.sessions sid.toNat).status = .zombie ∨
      times = 1 ∧ (cpu.sched.sessions sid.toNat).status = .free)

section Tracks

variable {cpu : Cpu} {sid : UInt32} {dead : Option Nat} {op : CpuOp}

theorem Cpu.tracks_none (cpu : Cpu) (sid : UInt32) : cpu.Tracks sid none := nofun

theorem CpuOp.kills_other {guest : GuestOp} (spares : op.sparesItself cpu = true)
    (acts : op.act cpu = .guest guest) (kills : guest.kills cpu.toMachine sid = true) :
    cpu.cur ≠ some sid := by
  intro runs
  unfold GuestOp.kills at kills
  rw [Bool.and_eq_true, decide_eq_true_eq] at kills
  obtain ⟨alive, killed⟩ := kills
  obtain ⟨_, _, taken, notZombie⟩ := (Sched.alive_iff _ _).mp alive
  rcases act_guest acts with ⟨idle, _⟩ | ⟨caller, _, may⟩
  · exact absurd (idle.symm.trans runs) nofun
  cases guest.effect_slotStep cpu.toMachine sid.toNat with
  | idle free | spawned _ free => exact taken free
  | kept _ same => exact notZombie (same.symm.trans killed)
  | died ends _ _ =>
    rw [UInt32.ofNat_toNat] at ends
    have asks :=
      asksToKill_of_ends ends (by
        rintro rfl
        exact absurd may (by simp [Cpu.mayCall]))
    simp [sparesItself, acts, runs, asks] at spares
  | reaped _ zombie _ _ => exact notZombie zombie

theorem Sched.reapZombies_status (sched : Sched) {slot : Nat} (inTable : slot ∈ slots) (dead :
      (sched.sessions slot).status = .zombie ∨ (sched.sessions slot).status = .free) :
    (sched.reapZombies.sessions slot).status = .free := by
  dsimp only [reapZombies]
  split
  · rfl
  next alive =>
    rcases dead with zombie | free
    · exact absurd ⟨inTable, zombie⟩ alive
    · exact free

theorem Cpu.reaps_iff (cpu : Cpu) (sid : UInt32) : cpu.reaps sid = true ↔ sid.toNat ∈ slots ∧
    (cpu.sched.sessions sid.toNat).status = .zombie := by
  simp [reaps]

variable (tracks : cpu.Tracks sid dead)
include tracks

theorem Cpu.Tracks.of_alive (alive : cpu.sched.alive sid = true) : dead = none := by
  obtain ⟨_, _, taken, notZombie⟩ := (alive_iff _ _).mp alive
  cases dead with
  | none => rfl
  | some times =>
    rcases (tracks times rfl).2.2 with ⟨_, zombie⟩ | ⟨_, free⟩
    · exact absurd zombie notZombie
    · exact absurd free taken

theorem Cpu.Tracks.of_cur (runs : cpu.cur = some sid) : dead = none := by
  cases dead with
  | none => rfl
  | some times => exact absurd runs (tracks times rfl).2.1

theorem Cpu.Tracks.ran (op : CpuOp) : AllFine dead (if op.runs cpu sid then [.ran] else []) ∧
      (if op.runs cpu sid then [SlotEvent.ran] else []).foldl watch dead = dead := by
  split
  next runs =>
    unfold CpuOp.runs at runs
    rw [Bool.and_eq_true, decide_eq_true_eq] at runs
    exact ⟨⟨tracks.of_cur runs.2, trivial⟩, rfl⟩
  · exact ⟨trivial, rfl⟩

/-- A guest operation kills others, and starts sessions in slots given back. -/
theorem Cpu.Tracks.guest {guest : GuestOp}
    (spares : op.sparesItself cpu = true) (acts : op.act cpu = .guest guest) :
    AllFine dead ((CpuAct.guest guest).events cpu sid) ∧ (cpu.perform (.guest guest)).Tracks sid
      (((CpuAct.guest guest).events cpu sid).foldl watch dead) := by
  dsimp only [CpuAct.events]
  by_cases kills : guest.kills cpu.toMachine sid = true
  · have other := kills_other spares acts kills
    have killed := kills
    unfold GuestOp.kills at killed
    rw [Bool.and_eq_true, decide_eq_true_eq] at killed
    obtain ⟨alive, zombie⟩ := killed
    obtain ⟨positive, inTable, taken, -⟩ := (Sched.alive_iff _ _).mp alive
    have unspawned : (CpuAct.guest guest).spawns cpu sid.toNat = false := by
      simp [CpuAct.spawns, Machine.spawned, taken]
    rw [if_pos kills, unspawned]
    refine ⟨⟨tracks.of_alive alive, trivial⟩, ?_⟩
    rintro times ⟨⟩
    exact ⟨Sched.mem_slots.mpr ⟨lt_iff_toNat_lt.mp positive, inTable⟩,
      other, .inl ⟨rfl, zombie⟩⟩
  rw [if_neg kills]
  by_cases spawns : (CpuAct.guest guest).spawns cpu sid.toNat = true
  · rw [if_pos spawns]
    refine ⟨⟨?_, trivial⟩, Cpu.tracks_none _ _⟩
    intro times isDead
    unfold CpuAct.spawns Machine.spawned at spawns
    rw [Bool.and_eq_true, decide_eq_true_eq] at spawns
    rcases (tracks times isDead).2.2 with ⟨_, zombie⟩ | ⟨one, _⟩
    · exact absurd (zombie.symm.trans spawns.1) (by decide)
    · exact one
  · rw [if_neg spawns]
    refine ⟨trivial, ?_⟩
    intro times isDead
    obtain ⟨inTable, off, state⟩ := tracks times isDead
    refine ⟨inTable, off, ?_⟩
    change times = 0 ∧ ((guest.effect cpu.toMachine).sched.sessions sid.toNat).status = .zombie ∨
      times = 1 ∧ ((guest.effect cpu.toMachine).sched.sessions sid.toNat).status = .free
    cases guest.effect_slotStep cpu.toMachine sid.toNat with
    | idle free still _ =>
      rcases state with ⟨_, zombie⟩ | ⟨one, _⟩
      · exact absurd (zombie.symm.trans free) (by decide)
      · exact .inr ⟨one, still⟩
    | spawned _ free started _ =>
      exact absurd (by simp [CpuAct.spawns, Machine.spawned, free, started]) spawns
    | kept _ same =>
      rw [same]
      exact state
    | died _ taken zombie =>
      rcases state with ⟨zero, _⟩ | ⟨_, free⟩
      · exact .inl ⟨zero, zombie⟩
      · exact absurd free taken
    | reaped given _ _ _ =>
      obtain ⟨rfl, -⟩ := given
      rcases act_guest acts with ⟨_, starts⟩ | ⟨_, _, may⟩
      · cases starts
      · exact absurd may (by simp [Cpu.mayCall, caller])

theorem Cpu.Tracks.swept (received : Bytes) :
    AllFine dead (if cpu.reaps sid then [.reaped] else []) ∧ ∀ times,
      (if cpu.reaps sid then [SlotEvent.reaped] else []).foldl watch dead = some times →
      sid.toNat ∈ Sched.slots ∧ times = 1 ∧
        ((cpu.sweep received).sched.sessions sid.toNat).status = .free := by
  split
  next reaps =>
    obtain ⟨inTable, zombie⟩ := (cpu.reaps_iff sid).mp reaps
    have zero : ∀ times, dead = some times → times = 0 := by
      intro times isDead
      rcases (tracks times isDead).2.2 with ⟨zero, _⟩ | ⟨_, free⟩
      · exact zero
      · exact absurd (zombie.symm.trans free) (by decide)
    refine ⟨⟨zero, trivial⟩, ?_⟩
    intro times counted
    cases dead with
    | none => cases counted
    | some before =>
      cases counted
      exact ⟨inTable, congrArg (· + 1) (zero before rfl),
        cpu.sched.reapZombies_status inTable (.inl zombie)⟩
  next spares =>
    refine ⟨trivial, ?_⟩
    intro times isDead
    obtain ⟨inTable, -, ⟨_, zombie⟩ | ⟨one, free⟩⟩ := tracks times isDead
    · exact absurd ((cpu.reaps_iff sid).mpr ⟨inTable, zombie⟩) spares
    · exact ⟨inTable, one, cpu.sched.reapZombies_status inTable (.inr free)⟩

theorem Cpu.Tracks.turn {received : Bytes} (loop : cpu.cur = none) :
    AllFine dead ((CpuAct.turn received).events cpu sid) ∧ (cpu.perform (.turn received)).Tracks sid
      (((CpuAct.turn received).events cpu sid).foldl watch dead) := by
  dsimp only [CpuAct.events, Cpu.perform]
  rcases cpu.turn_cases received with ⟨ended, rests⟩ | ⟨living, moves⟩
  · rw [if_pos ended, rests]
    exact ⟨trivial, tracks⟩
  obtain ⟨fine, free⟩ := tracks.swept received
  rw [if_neg (by rw [living]; decide), allFine_append, foldl_append]
  generalize (if cpu.reaps sid then [SlotEvent.reaped] else []).foldl watch dead = counted at free ⊢
  rcases moves with ⟨unpicked, same⟩ | ⟨slot, picked, same⟩
  · rw [unpicked, same]
    refine ⟨⟨fine, trivial⟩, ?_⟩
    intro times isDead
    obtain ⟨inTable, one, isFree⟩ := free times isDead
    exact ⟨inTable, by simp [Cpu.sweep, loop], .inr ⟨one, isFree⟩⟩
  · obtain ⟨positive, below, runnable⟩ := Cpu.pick_spec picked
    have apart : ∀ times, counted = some times → slot ≠ sid.toNat := by
      rintro times isDead rfl
      exact absurd ((free times isDead).2.2.symm.trans runnable) (by decide)
    rw [picked, same]
    refine ⟨⟨fine, ?_⟩, ?_⟩
    · split
      next chosen =>
        cases counted with
        | none => exact ⟨rfl, trivial⟩
        | some times => exact absurd (Option.some.inj chosen) (apart times rfl)
      · trivial
    · intro times isDead
      have still : counted = some times := by
        split at isDead
        · exact isDead
        · exact isDead
      obtain ⟨inTable, one, isFree⟩ := free times still
      have other := apart times still
      refine ⟨inTable, ?_, .inr ⟨one, ?_⟩⟩
      · intro runs
        apply other
        have named := congrArg toNat (Option.some.inj runs)
        rwa [toNat_ofNat_of_lt' (Nat.lt_trans below (by decide))] at named
      · dsimp only [Cpu.switchTo]
        rw [Sched.setStatus_of_ne _ _ (Ne.symm other)]
        exact isFree

theorem Cpu.Tracks.leave {gone : UInt32} (runs : cpu.cur = some gone) (status : Status) :
    (cpu.leave gone status).Tracks sid dead := by
  intro times isDead
  obtain ⟨inTable, off, state⟩ := tracks times isDead
  have other : sid.toNat ≠ gone.toNat := by
    intro same
    rw [runs, UInt32.toNat_inj.mp same] at off
    exact off rfl
  refine ⟨inTable, nofun, ?_⟩
  dsimp only [Cpu.leave]
  rw [setStatus_of_ne _ _ other]
  exact state

theorem Cpu.Tracks.run (spares : op.sparesItself cpu = true) : AllFine dead (op.events cpu sid) ∧
      (op.run cpu).Tracks sid ((op.events cpu sid).foldl watch dead) := by
  have ran := tracks.ran op
  unfold CpuOp.events CpuOp.run
  rw [allFine_append, foldl_append, ran.2]
  rw [and_assoc]
  refine ⟨ran.1, ?_⟩
  cases acts : op.act cpu with
  | rest | mark | read => exact ⟨trivial, tracks⟩
  | guest guest => exact tracks.guest spares acts
  | turn received => exact tracks.turn (act_turn acts)
  | yield gone preemptOn =>
    have runs : cpu.cur = some gone := act_actor (by rw [acts]; rfl)
    exact ⟨trivial, tracks.leave runs .runnable⟩
  | finish gone =>
    have runs : cpu.cur = some gone := act_actor (by rw [acts]; rfl)
    exact ⟨trivial, tracks.leave runs .zombie⟩

end Tracks

theorem Cpu.Tracks.allFine {cpu final : Cpu} {sid : UInt32} {dead : Option Nat} {ops : List CpuOp}
    (run : Run CpuOp.SparingStep cpu ops final) (tracks : cpu.Tracks sid dead) :
    AllFine dead (cpu.events sid ops) := by
  induction run generalizing dead with
  | nil => trivial
  | cons first _ hypothesis =>
    obtain ⟨spares, rfl⟩ := first
    obtain ⟨now, next⟩ := tracks.run spares
    rw [Cpu.events, allFine_append]
    exact ⟨now, hypothesis next⟩

/--
In every run in which no session asks to be killed itself, a killed session's
code never runs again, and its slot is given back exactly once before it is
taken.
-/
theorem killed_stays_dead {ops : List CpuOp} {final : Cpu}
    (run : Run CpuOp.SparingStep .boot ops final) (sid : UInt32) :
    StaysDead (boot.events sid ops) :=
  (Cpu.Tracks.allFine run (tracks_none .boot sid)).staysDead

/-! ## Two sessions -/

def killerStart : CpuOp := .start (startOp (ascii "killer") (capKill ||| capPortbind))

def killOp (caller victim : UInt32) : CpuOp :=
  .call (.send plainEnv caller 0 (registryCall 3 1 (put32 victim)))

def selfKillOps : List CpuOp :=
  [killerStart, .pass [], .call (.bind 1 (ascii "registry")), killOp 1 1,
    .compute, .yield true, .pass []]

/--
Behind the kill the session computes and yields, and the next turn of the loop
switches to it again.
-/
theorem self_kill_goes_on : Cpu.boot.events 1 selfKillOps =
      [.spawned, .ran, .ran, .ran, .killed, .ran, .ran, .ran] ∧
    ¬ StaysDead (Cpu.boot.events 1 selfKillOps) := by
  have happens : Cpu.boot.events 1 selfKillOps =
      [.spawned, .ran, .ran, .ran, .killed, .ran, .ran, .ran] := by
    decide +kernel
  refine ⟨happens, fun stays => ?_⟩
  have dead := stays [.spawned, .ran, .ran, .ran] [.ran, .ran, .ran] [] happens (by decide)
  exact absurd dead.1 (by decide)

def killOps : List CpuOp :=
  [killerStart, .start (startOp (ascii "app") 0), .pass [],
    .call (.bind 1 (ascii "registry")), killOp 1 2, .yield true, .pass [],
    .yield true, .start (startOp (ascii "app") 0), .pass []]

theorem killed_stays_dead_of_app :
    Cpu.boot.events 2 killOps = [.spawned, .killed, .reaped, .spawned, .ran] ∧
      StaysDead (Cpu.boot.events 2 killOps) := by
  have run : Run CpuOp.SparingStep .boot killOps (killOps.foldl run .boot) :=
    Run.of_admits (by decide +kernel)
  exact ⟨by decide +kernel, killed_stays_dead run 2⟩


end KernelLane.Kern
