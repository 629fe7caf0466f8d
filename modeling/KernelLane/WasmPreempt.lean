import KernelLane.WasmRuntime

namespace KernelLane.Wasm

/-!
# Preemption is transparent

A request to preempt sets a flag that the interpreter looks at before each
instruction; it then reports a yield and the caller resumes.  Requests may
come before any round of the loop.  Wherever they come, the run ends with the
same status and in the same state as the run without them.
-/

variable {World : Type}

section Runs

variable (engine : Engine World) (capacity : Nat)

/-! ## Runs without requests -/

/-- Resume a call until it reports something other than a yield. -/
inductive Finishes : Runtime World → RunStatus → Runtime World → Prop where
  | ended {runtime final : Runtime World} {status : RunStatus} {fuel : Nat}
    (returned : resume engine capacity fuel runtime = some (status, final))
    (last : status ≠ .yield) :
    Finishes runtime status final
  | resumed {runtime middle final : Runtime World} {status : RunStatus} {fuel : Nat}
    (returned : resume engine capacity fuel runtime = some (.yield, middle))
    (rest : Finishes middle status final) :
    Finishes runtime status final

/-- Invoke an exported function and resume it to its end. -/
inductive Uninterrupted (name : Bytes) (arguments : List UInt64)
    (runtime : Runtime World) : RunStatus → Runtime World → Prop where
  | ended {final : Runtime World} {status : RunStatus} {fuel : Nat} (returned :
      invoke engine name arguments capacity fuel runtime = some (status, final))
    (last : status ≠ .yield) :
    Uninterrupted name arguments runtime status final
  | resumed {middle final : Runtime World} {status : RunStatus} {fuel : Nat} (returned :
      invoke engine name arguments capacity fuel runtime = some (.yield, middle))
    (rest : Finishes engine capacity middle status final) :
    Uninterrupted name arguments runtime status final

/-! ## Runs with requests -/

/--
What follows a round: the next one, also after a yield that the caller
answers by resuming, or the end.
-/
def afterRound (outcome : Except RunStatus Unit × Runtime World)
    (next : Runtime World → Option (RunStatus × Runtime World)) :
    Option (RunStatus × Runtime World) :=
  match outcome.1 with
  | .ok () => next outcome.2
  | .error .yield =>
    if outcome.2.running then next outcome.2
    else some (.error, { outcome.2 with error := .internal })
  | .error status => some (status, outcome.2)

/--
Run to the end under requests: the rounds are counted, and a request may
come right before each of them.
-/
def drive (requests : Nat → Bool) : Nat → Nat → Runtime World → Option (RunStatus × Runtime World)
  | 0, _, _ => none
  | fuel + 1, round, runtime =>
    if runtime.running then
      afterRound (iterate engine capacity
          (if requests round then requestPreempt runtime else runtime))
        (drive requests fuel (round + 1))
    else some (.completed, runtime)

def driveCall (requests : Nat → Bool) (name : Bytes)
    (arguments : List UInt64) (fuel : Nat) (runtime : Runtime World) :
    Option (RunStatus × Runtime World) :=
  match prepare engine name arguments capacity runtime with
  | (some status, ended) => some (status, ended)
  | (none, entered) => drive engine capacity requests fuel 0 entered

/-- A run under requests ends. -/
def Interrupted (requests : Nat → Bool) (name : Bytes)
    (arguments : List UInt64) (runtime : Runtime World)
    (status : RunStatus) (final : Runtime World) : Prop :=
  ∃ fuel, driveCall engine capacity requests name arguments fuel runtime = some (status, final)

end Runs

section Rounds

variable {engine : Engine World} {capacity : Nat} {runtime : Runtime World}

variable {result : RunStatus × Runtime World} {status : RunStatus} {requests : Nat → Bool}
  {fuel : Nat} {final : Runtime World}

/-- What follows a round depends on the rest at one state, or not at all. -/
theorem afterRound_cases {outcome : Except RunStatus Unit × Runtime World}
    {next : Runtime World → Option (RunStatus × Runtime World)}
    (ends : afterRound outcome next = some result) :
    (next outcome.2 = some result ∧ ∀ other, afterRound outcome other = other outcome.2) ∨
      ∀ other, afterRound outcome other = some result := by
  unfold afterRound at ends ⊢
  split at ends
  · exact .inl ⟨ends, fun _ => rfl⟩
  · by_cases running : outcome.2.running
    · rw [if_pos running] at ends
      exact .inl ⟨ends, fun _ => if_pos running⟩
    · rw [if_neg running] at ends
      exact .inr fun _ => by rw [if_neg running, ends]
  · exact .inr fun _ => ends

theorem afterRound_last (last : status ≠ .yield) (final : Runtime World)
    (next : Runtime World → Option (RunStatus × Runtime World)) :
    afterRound (.error status, final) next = some (status, final) := by
  cases status with
  | yield => exact absurd rfl last
  | completed | exited | trapped | error => rfl

theorem iterate_requested (running : runtime.running = true)
    (quiet : runtime.preemptPending = false) :
    iterate engine capacity (requestPreempt runtime) = (.error .yield, runtime) := by
  have requested : requestPreempt runtime = { runtime with preemptPending := true } :=
    if_pos running
  rw [requested, iterate_preempted rfl, ← quiet]

theorem requestPreempt_pending (pending : runtime.preemptPending = true) :
    requestPreempt runtime = runtime := by
  unfold requestPreempt
  split
  · rw [← pending]
  · rfl

/-- The rounds of a run under requests: an added yield, or a plain round. -/
theorem drive_succ (requests : Nat → Bool) (round : Nat) (running : runtime.running = true) :
    (requests round = true ∧ ∀ fuel, drive engine capacity requests (fuel + 1) round runtime =
        drive engine capacity requests fuel (round + 1) runtime) ∨
      ∀ fuel, drive engine capacity requests (fuel + 1) round runtime =
        afterRound (iterate engine capacity runtime)
          (drive engine capacity requests fuel (round + 1)) := by
  by_cases requested : requests round
  · cases pending : runtime.preemptPending with
    | false =>
      refine .inl ⟨requested, fun fuel => ?_⟩
      rw [drive, if_pos running, if_pos requested, iterate_requested running pending]
      unfold afterRound
      rw [if_pos running]
    | true =>
      refine .inr fun fuel => ?_
      rw [drive, if_pos running, if_pos requested, requestPreempt_pending pending]
  · refine .inr fun fuel => ?_
    rw [drive, if_pos running, if_neg requested]

/-! ## The same end with and without requests -/

def silent : Nat → Bool := fun _ => false

theorem drive_silent_succ (fuel round : Nat) (running : runtime.running = true) :
    drive engine capacity silent (fuel + 1) round runtime =
      afterRound (iterate engine capacity runtime)
        (drive engine capacity silent fuel (round + 1)) := by
  rw [drive, if_pos running]
  rfl

theorem drive_stopped (requests : Nat → Bool) (fuel round : Nat)
    (stopped : ¬ runtime.running = true) :
    drive engine capacity requests (fuel + 1) round runtime = some (.completed, runtime) := by
  rw [drive, if_neg stopped]

theorem drive_silent_of_drive {round : Nat}
    (ends : drive engine capacity requests fuel round runtime = some result) :
    ∃ enough, ∀ start, drive engine capacity silent enough start runtime = some result := by
  induction fuel generalizing round runtime with
  | zero => exact absurd ends (by simp [drive])
  | succ fuel hypothesis =>
    by_cases running : runtime.running = true
    · rcases drive_succ requests round running with ⟨_, added⟩ | plain
      · rw [added] at ends
        exact hypothesis ends
      · rw [plain] at ends
        rcases afterRound_cases ends with ⟨later, anyRest⟩ | anyRest
        · obtain ⟨enough, silently⟩ := hypothesis later
          refine ⟨enough + 1, fun start => ?_⟩
          rw [drive_silent_succ enough start running, anyRest]
          exact silently (start + 1)
        · refine ⟨1, fun start => ?_⟩
          rw [drive_silent_succ 0 start running, anyRest]
    · rw [drive_stopped requests fuel round running] at ends
      exact ⟨1, fun start => (drive_stopped silent 0 start running).trans ends⟩

/-- Requests leave gaps: they do not come before every round from some on. -/
def LeavesGaps (requests : Nat → Bool) : Prop :=
  ∀ round, ∃ later, round ≤ later ∧ requests later = false

theorem drive_of_afterRound (gaps : LeavesGaps requests) (running : runtime.running = true)
    (rest : ∀ round, ∃ fuel, afterRound (iterate engine capacity runtime)
      (drive engine capacity requests fuel round) = some result) (round : Nat) :
    ∃ fuel, drive engine capacity requests fuel round runtime = some result := by
  obtain ⟨later, after, gap⟩ := gaps round
  obtain ⟨distance, rfl⟩ := Nat.exists_eq_add_of_le after
  -- By induction on the distance to the gap, counting added yields.
  induction distance generalizing round with
  | zero =>
    obtain ⟨fuel, ends⟩ := rest (round + 1)
    rcases drive_succ requests round running with ⟨requested, _⟩ | plain
    · rw [Nat.add_zero, requested] at gap
      exact absurd gap (by simp)
    · exact ⟨fuel + 1, (plain fuel).trans ends⟩
  | succ distance hypothesis =>
    have shifted : round + (distance + 1) = round + 1 + distance := by omega
    rcases drive_succ requests round running with ⟨_, added⟩ | plain
    · obtain ⟨fuel, delayed⟩ := hypothesis (round + 1) (Nat.le_add_right _ _) (shifted ▸ gap)
      exact ⟨fuel + 1, (added fuel).trans delayed⟩
    · obtain ⟨fuel, ends⟩ := rest (round + 1)
      exact ⟨fuel + 1, (plain fuel).trans ends⟩

theorem drive_of_drive_silent (gaps : LeavesGaps requests) {start : Nat}
    (ends : drive engine capacity silent fuel start runtime = some result) (round : Nat) :
    ∃ enough, drive engine capacity requests enough round runtime = some result := by
  induction fuel generalizing start runtime round with
  | zero => exact absurd ends (by simp [drive])
  | succ fuel hypothesis =>
    by_cases running : runtime.running = true
    · rw [drive_silent_succ fuel start running] at ends
      refine drive_of_afterRound gaps running ?_ round
      intro next
      rcases afterRound_cases ends with ⟨later, anyRest⟩ | anyRest
      · obtain ⟨enough, disturbed⟩ := hypothesis later next
        exact ⟨enough, (anyRest _).trans disturbed⟩
      · exact ⟨0, anyRest _⟩
    · rw [drive_stopped silent fuel start running] at ends
      exact ⟨1, (drive_stopped requests 0 round running).trans ends⟩

/-! ## Rounds and calls -/

section

variable (running : runtime.running = true)
include running

theorem step_succ (fuel : Nat) : step engine capacity (fuel + 1) runtime =
      match (iterate engine capacity runtime).1 with
      | .ok () => step engine capacity fuel (iterate engine capacity runtime).2
      | .error status =>
        some (status, (iterate engine capacity runtime).2) := by
  rw [step, if_pos running]
  rcases iterate engine capacity runtime with ⟨status | ⟨⟩, next⟩ <;> rfl

theorem resume_running (fuel : Nat) :
    resume engine capacity fuel runtime = step engine capacity fuel runtime :=
  if_pos running

theorem Finishes.of_round {next : Runtime World}
    (ran : iterate engine capacity runtime = (.ok (), next)) (goesOn : next.running = true)
    (rest : Finishes engine capacity next status final) :
    Finishes engine capacity runtime status final := by
  have longer : ∀ fuel, resume engine capacity (fuel + 1) runtime =
      resume engine capacity fuel next := by
    intro fuel
    rw [resume_running running (fuel + 1), resume_running goesOn fuel, step_succ running fuel, ran]
  cases rest with
  | ended returned last => exact .ended ((longer _).trans returned) last
  | resumed returned rest => exact .resumed ((longer _).trans returned) rest

theorem Finishes.of_drive {round : Nat}
    (ends : drive engine capacity silent fuel round runtime = some (status, final)) :
    Finishes engine capacity runtime status final := by
  induction fuel generalizing round runtime with
  | zero => exact absurd ends (by simp [drive])
  | succ fuel hypothesis =>
    rw [drive_silent_succ fuel round running] at ends
    have called (more : Nat) : resume engine capacity (more + 1) runtime = _ :=
      (resume_running running (more + 1)).trans (step_succ running more)
    rcases ran : iterate engine capacity runtime with ⟨outcome, next⟩
    rw [ran] at ends called
    cases outcome with
    | ok nothing =>
      change drive engine capacity silent fuel (round + 1) next = _ at ends
      by_cases goesOn : next.running = true
      · exact .of_round running ran goesOn (hypothesis goesOn ends)
      cases fuel with
      | zero => exact absurd ends (by simp [drive])
      | succ fuel =>
        rw [drive_stopped silent fuel (round + 1) goesOn] at ends
        cases ends
        refine .ended ((called 1).trans ?_) (by simp)
        rw [step, if_neg goesOn]
    | error reported =>
      by_cases yielded : reported = .yield
      · subst yielded
        refine .resumed (called 0) ?_
        change (if next.running then _ else _) = _ at ends
        by_cases goesOn : next.running = true
        · rw [if_pos goesOn] at ends
          exact hypothesis goesOn ends
        rw [if_neg goesOn] at ends
        cases ends
        have refused : resume engine capacity 0 next =
            some (.error, { next with error := .internal }) :=
          if_neg goesOn
        exact .ended refused (by simp)
      · have reports : some (reported, next) = some (status, final) :=
          (afterRound_last yielded next _).symm.trans ends
        refine .ended ((called 0).trans reports) ?_
        cases reports
        exact yielded

/-- A call of the loop is its rounds, and then what follows its report. -/
theorem drive_of_step (more : Nat) {middle : Runtime World}
    (stepped : step engine capacity fuel runtime = some (status, middle))
    (rest : ∀ round, afterRound (.error status, middle)
      (drive engine capacity silent more round) = some result) :
    ∃ enough, ∀ round, drive engine capacity silent enough round runtime = some result := by
  induction fuel generalizing runtime with
  | zero => exact absurd stepped (by simp [step])
  | succ fuel hypothesis =>
    rw [step_succ running fuel] at stepped
    rcases ran : iterate engine capacity runtime with ⟨outcome, next⟩
    rw [ran] at stepped
    cases outcome with
    | error reported =>
      cases stepped
      refine ⟨more + 1, fun round => ?_⟩
      rw [drive_silent_succ more round running, ran]
      exact rest (round + 1)
    | ok nothing =>
      have goesOn : ∀ enough round, drive engine capacity silent (enough + 1) round runtime =
          drive engine capacity silent enough (round + 1) next := by
        intro enough round
        rw [drive_silent_succ enough round running, ran]
        rfl
      by_cases runs : next.running = true
      · obtain ⟨enough, ends⟩ := hypothesis runs stepped
        exact ⟨enough + 1, fun round => (goesOn enough round).trans (ends (round + 1))⟩
      cases fuel with
      | zero => exact absurd stepped (by simp [step])
      | succ fuel =>
        rw [step, if_neg runs] at stepped
        cases stepped
        refine ⟨2, fun round => ?_⟩
        rw [goesOn 1 round, drive_stopped silent 0 (round + 1) runs]
        exact rest 0

end

theorem Finishes.of_stopped (finishes : Finishes engine capacity runtime status final)
    (stopped : ¬ runtime.running = true) :
    some (status, final) = some (.error, { runtime with error := .internal }) := by
  have refused : ∀ fuel, resume engine capacity fuel runtime =
      some (.error, { runtime with error := .internal }) :=
    fun _ => if_neg stopped
  cases finishes with
  | ended returned _ => exact returned.symm.trans (refused _)
  | resumed returned _ =>
    rw [refused] at returned
    exact absurd returned (by simp)

theorem Finishes.drive (finishes : Finishes engine capacity runtime status final)
    (running : runtime.running = true) :
    ∃ enough, ∀ round, drive engine capacity silent enough round runtime =
      some (status, final) := by
  induction finishes with
  | ended returned last =>
    rw [resume_running running] at returned
    exact drive_of_step running 0 returned fun round => afterRound_last last _ _
  | resumed returned rest hypothesis =>
    rename_i start middle final status fuel
    rw [resume_running running] at returned
    by_cases goesOn : middle.running = true
    · obtain ⟨more, finished⟩ := hypothesis goesOn
      exact drive_of_step running more returned fun round => (if_pos goesOn).trans (finished round)
    · exact drive_of_step running 0 returned fun round =>
        (if_neg goesOn).trans (rest.of_stopped goesOn).symm

end Rounds

/-! ## Calls -/

section Calls

variable {engine : Engine World} {capacity : Nat} {runtime : Runtime World}
variable {name : Bytes} {arguments : List UInt64}

theorem running_enterFrame (functionIndex : Nat) (before : Runtime World) :
    (enterFrame engine functionIndex before).2.running = before.running := by
  unfold enterFrame
  split
  · dsimp only
    have lowered : (ensureLowered engine functionIndex before).2.running = before.running := by
      unfold ensureLowered
      split
      · rfl
      · split <;> rfl
    split
    · exact lowered
    · exact lowered
  · rfl

variable {entered : Runtime World}

/-- A call enters its function and runs, or reports an error or a trap. -/
theorem prepare_spec {report : Option RunStatus}
    (prepared : prepare engine name arguments capacity runtime = (report, entered)) :
    (report = none → entered.running = true) ∧ report ≠ some .yield := by
  unfold prepare at prepared
  split at prepared
  · cases prepared
    simp
  split at prepared
  · cases prepared
    simp
  split at prepared
  · dsimp only at prepared
    split at prepared
    · cases prepared
      exact ⟨fun _ => running_enterFrame _ _, by simp⟩
    · cases prepared
      split <;> simp
  · cases prepared
    simp

theorem uninterrupted_iff_finishes {final : Runtime World} {status : RunStatus} (prepared :
      prepare engine name arguments capacity runtime = (none, entered)) :
    Uninterrupted engine capacity name arguments runtime status final ↔
      Finishes engine capacity entered status final := by
  have same : ∀ fuel, invoke engine name arguments capacity fuel runtime =
      resume engine capacity fuel entered := by
    intro fuel
    rw [resume_running ((prepare_spec prepared).1 rfl)]
    unfold invoke
    rw [prepared]
  constructor
  · intro uninterrupted
    cases uninterrupted with
    | ended returned last => exact .ended ((same _).symm.trans returned) last
    | resumed returned rest => exact .resumed ((same _).symm.trans returned) rest
  · intro finishes
    cases finishes with
    | ended returned last => exact .ended ((same _).trans returned) last
    | resumed returned rest => exact .resumed ((same _).trans returned) rest

theorem uninterrupted_iff (status : RunStatus) (final : Runtime World) :
    Uninterrupted engine capacity name arguments runtime status final ↔
      Interrupted engine capacity silent name arguments runtime status final := by
  rcases prepared : prepare engine name arguments capacity runtime with
    ⟨report, entered⟩
  unfold Interrupted driveCall
  rw [prepared]
  cases report with
  | some reported =>
    have invoked : ∀ fuel, invoke engine name arguments capacity fuel runtime =
        some (reported, entered) := by
      intro fuel
      unfold invoke
      rw [prepared]
    constructor
    · intro uninterrupted
      cases uninterrupted with
      | ended returned _ => exact ⟨0, (invoked _).symm.trans returned⟩
      | resumed returned _ =>
        have yields := (invoked _).symm.trans returned
        rw [(Prod.mk.inj (Option.some.inj yields)).1] at prepared
        exact absurd rfl (prepare_spec prepared).2
    · rintro ⟨_, reports⟩
      have same := (Prod.mk.inj (Option.some.inj reports)).1
      refine .ended ((invoked 0).trans reports) fun yields => ?_
      rw [same, yields] at prepared
      exact absurd rfl (prepare_spec prepared).2
  | none =>
    have running := (prepare_spec prepared).1 rfl
    rw [uninterrupted_iff_finishes prepared]
    constructor
    · intro finishes
      obtain ⟨enough, ends⟩ := finishes.drive running
      exact ⟨enough, ends 0⟩
    · rintro ⟨fuel, ends⟩
      exact .of_drive running ends

/--
Wherever requests to preempt come, a call that ends under them ends without
them with the same status and in the same state; and if the requests leave
gaps, a call that ends without them also ends under them.
-/
theorem preemption_transparent (engine : Engine World) (requests : Nat → Bool) (name : Bytes)
    (arguments : List UInt64) (capacity : Nat) (runtime : Runtime World) (status : RunStatus)
    (final : Runtime World) :
    (Interrupted engine capacity requests name arguments runtime status final →
      Uninterrupted engine capacity name arguments runtime status final) ∧
      (LeavesGaps requests → Uninterrupted engine capacity name arguments runtime status final →
        Interrupted engine capacity requests name arguments runtime status final) := by
  rw [uninterrupted_iff]
  unfold Interrupted driveCall
  rcases prepare engine name arguments capacity runtime with
    ⟨report, entered⟩
  cases report with
  | some reported => exact ⟨fun ends => ends, fun _ ends => ends⟩
  | none =>
    constructor
    · rintro ⟨fuel, ends⟩
      obtain ⟨enough, silently⟩ := drive_silent_of_drive ends
      exact ⟨enough, silently 0⟩
    · rintro gaps ⟨fuel, ends⟩
      exact drive_of_drive_silent gaps ends 0

end Calls

end KernelLane.Wasm
