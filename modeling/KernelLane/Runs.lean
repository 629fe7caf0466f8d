import Mathlib.Data.List.Basic
import Mathlib.Data.Nat.Basic

namespace KernelLane

/-!
# Runs of labelled transition systems

A step relation says what one labelled transition may do; a run strings
transitions together.  An invariant that every step keeps holds in every state
that a run reaches.
-/

/-- A finite sequence of steps labelled by a list of operations. -/
inductive Run {State Op : Type} (step : State → Op → State → Prop) :
    State → List Op → State → Prop where
  | nil (state : State) : Run step state [] state
  | cons {initial middle final : State} {op : Op} {rest : List Op} (first : step initial op middle)
    (later : Run step middle rest final) :
    Run step initial (op :: rest) final

namespace Run

variable {State Op : Type} {step other : State → Op → State → Prop} {initial middle final : State}

/-- What every step keeps holds at the end of every run. -/
theorem invariant {holds : State → Prop} {ops : List Op} (run : Run step initial ops final) (keeps :
      ∀ {before op after}, holds before → step before op after → holds after)
    (start : holds initial) : holds final := by
  induction run with
  | nil => exact start
  | cons first _ hypothesis => exact hypothesis (keeps start first)

/--
A reflexive relation that is transitive from ready states on, and that every
step from a ready state refines, relates the ends of every run.
-/
theorem related {ready : State → Prop} {relation : State → State → Prop} {ops : List Op}
    (run : Run step initial ops final) (reflexive : ∀ state, relation state state)
    (transitive : ∀ {first second third}, ready first → relation first second →
      relation second third → relation first third)
    (refines : ∀ {before op after}, ready before → step before op after →
      ready after ∧ relation before after) (start : ready initial) :
    ready final ∧ relation initial final := by
  induction run with
  | nil state => exact ⟨start, reflexive state⟩
  | cons first _ hypothesis =>
    obtain ⟨middleReady, left⟩ := refines start first
    obtain ⟨finalReady, right⟩ := hypothesis middleReady
    exact ⟨finalReady, transitive start left right⟩

/-- A run under a stronger step relation is a run under a weaker one. -/
theorem weaken {ops : List Op} (run : Run step initial ops final) (weaker : ∀ {before op after},
      step before op after → other before op after) : Run other initial ops final := by
  induction run with
  | nil state => exact .nil state
  | cons first _ hypothesis => exact .cons (weaker first) hypothesis

/-- A run of one operation is its step. -/
theorem single {op : Op} (run : Run step initial [op] final) : step initial op final := by
  cases run with
  | cons first later =>
    cases later
    exact first

/-- A run of two operations passes through a middle state. -/
theorem pair {first second : Op} (run : Run step initial [first, second] final) :
    ∃ middle, step initial first middle ∧ step middle second final := by
  cases run with
  | cons start later => exact ⟨_, start, later.single⟩

end Run

/-- A guard admits every operation of a list in its turn. -/
def admits {State Op : Type} (guard : State → Op → Bool) (next : State → Op → State) :
    State → List Op → Bool
  | _, [] => true
  | state, op :: rest => guard state op && admits guard next (next state op) rest

/-- Admitted operations are a run of guarded steps. -/
theorem Run.of_admits {State Op : Type} {guard : State → Op → Bool} {next : State → Op → State}
    {initial : State} {ops : List Op} (admitted : admits guard next initial ops = true) :
    Run (fun before op after => guard before op = true ∧ next before op = after)
      initial ops (ops.foldl next initial) := by
  induction ops generalizing initial with
  | nil => exact .nil initial
  | cons op rest hypothesis =>
    rw [admits, Bool.and_eq_true] at admitted
    exact .cons ⟨admitted.1, rfl⟩ (hypothesis admitted.2)

/-- An endless sequence of steps. -/
structure InfiniteRun {State Op : Type} (step : State → Op → State → Prop) where
  state : Nat → State
  op : Nat → Op
  next : ∀ instant, step (state instant) (op instant) (state (instant + 1))

/-- What every step keeps holds in every state of an endless run. -/
theorem InfiniteRun.invariant {State Op : Type} {step : State → Op → State → Prop}
    (run : InfiniteRun step) {holds : State → Prop}
    (keeps : ∀ {before op after}, holds before → step before op after → holds after)
    (start : holds (run.state 0)) (instant : Nat) : holds (run.state instant) := by
  induction instant with
  | zero => exact start
  | succ instant hypothesis => exact keeps hypothesis (run.next instant)

end KernelLane

namespace KernelLane.Fairness

/-! ## What happens again and again happens in the end -/

/-- Turns keep coming. -/
def Recurs (turn : Nat → Prop) : Prop := ∀ instant, ∃ later, instant ≤ later ∧ turn later

variable {pending : Nat → Nat → Prop} {turn met : Nat → Prop}

variable {instant rank : Nat}

/-- A pending obligation whose rank falls again and again is met. -/
theorem descends (pending : Nat → Nat → Prop) (falls : ∀ {instant rank}, pending instant rank →
      ∃ later, instant ≤ later ∧ (met later ∨ ∃ lower, lower < rank ∧ pending later lower))
    (waits : pending instant rank) : ∃ later, instant ≤ later ∧ met later := by
  induction rank using Nat.strong_induction_on generalizing instant with
  | _ rank hypothesis =>
    obtain ⟨next, after, done | ⟨lower, less, still⟩⟩ := falls waits
    · exact ⟨next, after, done⟩
    · obtain ⟨later, afterwards, done⟩ := hypothesis lower less still
      exact ⟨later, Nat.le_trans after afterwards, done⟩

section

variable (keeps : ∀ {instant rank}, pending instant rank →
  met instant ∨ ∃ lower, lower ≤ rank ∧ pending (instant + 1) lower)
include keeps

/-- Until the next turn the obligation is met or stays pending. -/
theorem pending_until (waits : pending instant rank) (distance : Nat) :
    (∃ later, instant ≤ later ∧ met later) ∨
      ∃ lower, lower ≤ rank ∧ pending (instant + distance) lower := by
  induction distance with
  | zero => exact .inr ⟨rank, Nat.le_refl _, waits⟩
  | succ distance hypothesis =>
    rcases hypothesis with done | ⟨lower, bound, waiting⟩
    · exact .inl done
    · rcases keeps waiting with done | ⟨next, nextBound, still⟩
      · exact .inl ⟨_, Nat.le_add_right _ _, done⟩
      · exact .inr ⟨next, Nat.le_trans nextBound bound, still⟩

/-- A pending obligation whose rank falls at every turn is met. -/
theorem eventually_met (falls : ∀ {instant rank}, pending instant rank → turn instant →
      met instant ∨ ∃ lower, lower < rank ∧ pending (instant + 1) lower) (turns : Recurs turn)
    (waits : pending instant rank) : ∃ later, instant ≤ later ∧ met later := by
  refine descends pending (fun {instant rank} current => ?_) waits
  obtain ⟨next, after, isTurn⟩ := turns instant
  obtain ⟨distance, rfl⟩ := Nat.exists_eq_add_of_le after
  rcases pending_until keeps current distance with
    ⟨later, afterwards, done⟩ | ⟨lower, bound, waiting⟩
  · exact ⟨later, afterwards, .inl done⟩
  · rcases falls waiting isTurn with done | ⟨smaller, less, still⟩
    · exact ⟨_, after, .inl done⟩
    · exact ⟨_, Nat.le_succ_of_le after, .inr ⟨smaller, Nat.lt_of_lt_of_le less bound, still⟩⟩

end

end KernelLane.Fairness
