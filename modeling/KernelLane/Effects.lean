import Mathlib.Logic.Basic

namespace KernelLane

/-!
# Stateful operations that may fail

An effect runs on a state and returns a result or an error together with the
state it leaves, so an operation that fails halfway keeps what it already
did.  The rules below take a sequence apart: by inverting a successful run,
and by composing a relation between the states before and after.
-/

/-- A sequence of fallible computations returns what both parts return. -/
theorem exceptBind_eq_ok_iff {Error Result Next : Type} {first : Except Error Result}
    {second : Result → Except Error Next} {result : Next} :
    (first >>= second) = .ok result ↔ ∃ value, first = .ok value ∧ second value = .ok result := by
  cases first with
  | error | ok => simp [bind, Except.bind]

/-- An operation on a state: a result or an error, and the state it leaves. -/
def Effect (State Error Result : Type) := State → Except Error Result × State

namespace Effect

variable {State Error Result Next : Type}

/-- The effect that only returns a value. -/
protected def pure (value : Result) : Effect State Error Result := fun state => (.ok value, state)

/-- Run one effect after another; an error ends the sequence. -/
protected def bind (first : Effect State Error Result) (second : Result → Effect State Error Next) :
    Effect State Error Next :=
  fun state =>
    match first state with
    | (.ok value, next) => second value next
    | (.error failure, next) => (.error failure, next)

instance : Monad (Effect State Error) where
  pure := Effect.pure
  bind := Effect.bind

/-- Look at the current state. -/
def look : Effect State Error State := fun state => (.ok state, state)

/-- Change the state. -/
def change (update : State → State) : Effect State Error Unit := fun state => (.ok (), update state)

/-- Fail without changing the state. -/
def fail (failure : Error) : Effect State Error Result := fun state => (.error failure, state)

/-- Use a result that was computed without touching the state. -/
def ofExcept : Except Error Result → Effect State Error Result
  | .ok value => Effect.pure value
  | .error failure => Effect.fail failure

@[simp] theorem pure_apply (value : Result) (state : State) :
    (pure value : Effect State Error Result) state = (.ok value, state) := rfl

@[simp] theorem change_apply (update : State → State) (state : State) :
    (change update : Effect State Error Unit) state = (.ok (), update state) := rfl

@[simp] theorem fail_apply (failure : Error) (state : State) :
    (fail failure : Effect State Error Result) state = (.error failure, state) := rfl

@[simp] theorem ofExcept_ok (value : Result) (state : State) :
    (ofExcept (.ok value) : Effect State Error Result) state = (.ok value, state) := rfl

@[simp] theorem ofExcept_error (failure : Error) (state : State) :
    (ofExcept (.error failure) : Effect State Error Result) state = (.error failure, state) := rfl

variable {first : Effect State Error Result} {second : Result → Effect State Error Next}
  {state : State}

/-- How a sequence runs after its first effect succeeded. -/
theorem bind_of_ok {next : State} {value : Result} (succeeded : first state = (.ok value, next)) :
    (first >>= second) state = second value next := by
  change Effect.bind first second state = _
  simp [Effect.bind, succeeded]

/-- A sequence whose first effect fails stops there. -/
theorem bind_of_error {next : State} {failure : Error}
    (failed : first state = (.error failure, next)) :
    (first >>= second) state = (.error failure, next) := by
  change Effect.bind first second state = _
  simp [Effect.bind, failed]

@[simp] theorem look_bind (second : State → Effect State Error Next) (state : State) :
    (look >>= second) state = second state state := rfl

@[simp] theorem change_bind (update : State → State) (second : Unit → Effect State Error Next)
    (state : State) :
    (change update >>= second) state = second () (update state) := rfl

@[simp] theorem ofExcept_ok_bind (value : Result) (second : Result → Effect State Error Next)
    (state : State) :
    (ofExcept (.ok value) >>= second) state = second value state := rfl

/-- A sequence succeeds exactly when both of its parts do. -/
theorem bind_eq_ok_iff {final : State} {result : Next} :
    (first >>= second) state = (.ok result, final) ↔ ∃ value middle,
      first state = (.ok value, middle) ∧ second value middle = (.ok result, final) := by
  constructor
  · intro ran
    cases outcome : first state with
    | mk status middle =>
      cases status with
      | ok value =>
        rw [bind_of_ok outcome] at ran
        exact ⟨value, middle, rfl, ran⟩
      | error failure =>
        rw [bind_of_error outcome] at ran
        simp at ran
  · rintro ⟨value, middle, succeeded, later⟩
    rw [bind_of_ok succeeded, later]

/-- Using a computed result succeeds exactly when there is one. -/
theorem ofExcept_eq_ok_iff {computed : Except Error Result} {final : State} {value : Result} :
    (ofExcept computed : Effect State Error Result) state = (.ok value, final) ↔
      computed = .ok value ∧ final = state := by
  cases computed with
  | ok found => simp [eq_comm]
  | error failure => simp

/-- Whatever the outcome, the state before and the state after are related. -/
def Keeps (ready : State → Prop) (relation : State → State → Prop)
    (effect : Effect State Error Result) : Prop :=
  ∀ state, ready state → ready (effect state).2 ∧ relation state (effect state).2

section Composition

variable {ready : State → Prop} {relation : State → State → Prop}

/-- An effect that leaves the state alone keeps a reflexive relation. -/
theorem keeps_of_unchanged (reflexive : ∀ state, relation state state)
    {effect : Effect State Error Result} (unchanged : ∀ state, (effect state).2 = state) :
    Keeps ready relation effect := by
  intro state isReady
  rw [unchanged state]
  exact ⟨isReady, reflexive state⟩

variable {second : Result → Effect State Error Next}

/-- Sequencing composes what the parts keep. -/
theorem Keeps.bind (transitive : ∀ {first second third}, ready first → ready second →
      relation first second → relation second third →
      relation first third) {first : Effect State Error Result}
    (firstKeeps : Keeps ready relation first)
    (secondKeeps : ∀ value, Keeps ready relation (second value)) :
    Keeps ready relation (first >>= second) := by
  intro state isReady
  have firstPart := firstKeeps state isReady
  cases outcome : first state with
  | mk status middle =>
    rw [outcome] at firstPart
    cases status with
    | ok value =>
      rw [bind_of_ok outcome]
      have secondPart := secondKeeps value middle firstPart.1
      exact ⟨secondPart.1, transitive isReady firstPart.1 firstPart.2 secondPart.2⟩
    | error failure =>
      rw [bind_of_error outcome]
      exact firstPart

/-- Looking at the state first: the rest may depend on what was seen. -/
theorem Keeps.look_bind {second : State → Effect State Error Next}
    (secondKeeps : ∀ seen, Keeps ready relation (second seen)) :
    Keeps ready relation (look >>= second) :=
  fun state isReady => secondKeeps state state isReady

/-- Using a computed result first: the rest may rely on what it is. -/
theorem Keeps.ofExcept_bind (reflexive : ∀ state, relation state state)
    {computed : Except Error Result}
    (secondKeeps : ∀ value, computed = .ok value → Keeps ready relation (second value)) :
    Keeps ready relation (ofExcept computed >>= second) := by
  cases computed with
  | error failure => exact keeps_of_unchanged reflexive fun _ => rfl
  | ok value => exact secondKeeps value rfl

end Composition

/-! ## Effects on a part of the state -/

/-- Run an effect on a part of a larger state. -/
def focus {Part : Type} (get : State → Part) (put : State → Part → State)
    (effect : Effect Part Error Result) :
    Effect State Error Result :=
  fun state => ((effect (get state)).1, put state (effect (get state)).2)

@[simp] theorem focus_apply {Part : Type} (get : State → Part) (put : State → Part → State)
    (effect : Effect Part Error Result) (state : State) :
    focus get put effect state = ((effect (get state)).1, put state (effect (get state)).2) := rfl

/-! ## Properties of the state -/

/-- Whatever the outcome, a property of the state survives. -/
def Preserves (holds : State → Prop) (effect : Effect State Error Result) : Prop :=
  ∀ state, holds state → holds (effect state).2

section Preservation

variable {holds : State → Prop}

/-- A sequence preserves what both of its parts preserve. -/
theorem Preserves.bind {first : Effect State Error Result}
    {second : Result → Effect State Error Next} (firstPreserves : Preserves holds first)
    (secondPreserves : ∀ value, Preserves holds (second value)) :
    Preserves holds (first >>= second) := by
  intro state start
  have middleHolds := firstPreserves state start
  cases outcome : first state with
  | mk status middle =>
    rw [outcome] at middleHolds
    cases status with
    | ok value =>
      rw [bind_of_ok outcome]
      exact secondPreserves value middle middleHolds
    | error failure =>
      rw [bind_of_error outcome]
      exact middleHolds

/-- After looking at the state, the rest runs on what was seen. -/
theorem Preserves.look_bind {second : State → Effect State Error Next} (secondPreserves :
      ∀ seen, holds seen → holds (second seen seen).2) : Preserves holds (look >>= second) :=
  fun state start => secondPreserves state start

end Preservation

end Effect

end KernelLane
