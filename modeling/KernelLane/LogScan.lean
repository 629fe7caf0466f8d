import Mathlib.Data.List.Basic

namespace KernelLane

open Option

/-!
# Scanning an append-only log

A log reader walks a byte stream record by record: it decodes the entry at
the cursor, applies it, and stops at the first position that holds no
acceptable entry.  This module is generic in the entry and state types.  It
relates the reader's loop to the list of entries that lie at consecutive
positions of the stream, which is the form in which writers talk about a log.
-/

namespace LogScan

/-- What applying one decoded entry to the reader's state does. -/
inductive Step (State : Type) where
  | applied : State → Step State
  | rejected : Step State
  | crashed : Step State

variable {Entry State : Type}

/--
The reader's loop.  The result is the state together with the cursor at which
the scan ended, or nothing when applying an entry crashed the reader.
-/
def scan (entryAt : Nat → Option (Entry × Nat)) (apply : State → Entry → Step State) :
    Nat → State → Nat → Option (State × Nat)
  | 0, state, position => some (state, position)
  | fuel + 1, state, position =>
    match entryAt position with
    | none => some (state, position)
    | some (entry, size) =>
      match apply state entry with
      | .applied next => scan entryAt apply fuel next (position + size)
      | .rejected => some (state, position)
      | .crashed => none

/-- Entries lie one after the other between two positions of the stream. -/
inductive Laid (entryAt : Nat → Option (Entry × Nat)) : Nat → List Entry → Nat → Prop where
  | nil (position : Nat) : Laid entryAt position [] position
  | cons {position size final : Nat} {entry : Entry} {rest : List Entry}
    (head : entryAt position = some (entry, size))
    (tail : Laid entryAt (position + size) rest final) :
    Laid entryAt position (entry :: rest) final

/-- Read the listed entries one after the other. -/
def follow [DecidableEq Entry] (entryAt : Nat → Option (Entry × Nat)) : Nat → List Entry → Option Nat
  | position, [] => some position
  | position, entry :: rest =>
    match entryAt position with
    | none => none
    | some (found, size) =>
      if found = entry then follow entryAt (position + size) rest else none

theorem laid_of_follow [DecidableEq Entry] {entryAt : Nat → Option (Entry × Nat)}
    {entries : List Entry} {position final : Nat}
    (followed : follow entryAt position entries = some final) :
    Laid entryAt position entries final := by
  induction entries generalizing position with
  | nil =>
    cases followed
    exact .nil _
  | cons entry rest hypothesis =>
    unfold follow at followed
    split at followed
    · cases followed
    next found size head =>
    split at followed
    next same =>
      subst same
      exact .cons head (hypothesis followed)
    · cases followed

/-- Apply a whole entry list; nothing unless every entry is applied. -/
def applyAll (apply : State → Entry → Step State) : State → List Entry → Option State
  | state, [] => some state
  | state, entry :: rest =>
    match apply state entry with
    | .applied next => applyAll apply next rest
    | .rejected => none
    | .crashed => none

/-- The reader goes no further from this state and position. -/
def Stuck (entryAt : Nat → Option (Entry × Nat)) (apply : State → Entry → Step State)
    (state : State)
    (position : Nat) : Prop :=
  ∀ entry size, entryAt position = some (entry, size) → apply state entry = .rejected

variable {entryAt : Nat → Option (Entry × Nat)} {apply : State → Entry → Step State}

/-- Applying a concatenation applies the first part and then the second. -/
theorem applyAll_append (state : State) (first second : List Entry) :
    applyAll apply state (first ++ second) = (applyAll apply state first).bind
      (fun middle => applyAll apply middle second) := by
  induction first generalizing state with
  | nil => rfl
  | cons entry rest hypothesis =>
    simp only [List.cons_append, applyAll]
    cases apply state entry with
    | applied next => exact hypothesis next
    | rejected => rfl
    | crashed => rfl

namespace Laid

variable {start final : Nat} {first second entries : List Entry}

/-- Consecutive runs of entries concatenate. -/
theorem append {middle : Nat} (left : Laid entryAt start first middle)
    (right : Laid entryAt middle second final) : Laid entryAt start (first ++ second) final := by
  induction left with
  | nil => exact right
  | cons head _ hypothesis => exact .cons head (hypothesis right)

/-- A layout of a concatenation has a position between its parts. -/
theorem split (laid : Laid entryAt start (first ++ second) final) :
    ∃ middle, Laid entryAt start first middle ∧ Laid entryAt middle second final := by
  induction first generalizing start with
  | nil => exact ⟨start, .nil _, laid⟩
  | cons entry rest hypothesis =>
    cases laid with
    | cons head tail =>
      obtain ⟨middle, left, right⟩ := hypothesis tail
      exact ⟨middle, .cons head left, right⟩

/-- The same entries laid out from the same position end alike. -/
theorem end_unique {firstEnd secondEnd : Nat} (first : Laid entryAt start entries firstEnd)
    (second : Laid entryAt start entries secondEnd) : firstEnd = secondEnd := by
  induction first with
  | nil =>
    cases second
    rfl
  | cons head _ hypothesis =>
    cases second with
    | cons otherHead otherTail =>
      rw [head, some.injEq, Prod.mk.injEq] at otherHead
      obtain ⟨_, rfl⟩ := otherHead
      exact hypothesis otherTail

/-- Entries of positive size are determined by where they start and end. -/
theorem unique (forward : ∀ {position entries stop}, Laid entryAt position entries stop →
      start ≤ position → entries ≠ [] → position < stop) (left : Laid entryAt start first final)
    (right : Laid entryAt start second final) : first = second := by
  induction left generalizing second with
  | nil position =>
    by_contra different
    exact Nat.lt_irrefl _ (forward right (Nat.le_refl _) fun same => different same.symm)
  | @cons position size final entry rest head tail hypothesis =>
    cases right with
    | nil => exact absurd (forward (.cons head tail) (Nat.le_refl _) (by simp)) (Nat.lt_irrefl _)
    | cons otherHead otherTail =>
      rw [head, Option.some.injEq, Prod.mk.injEq] at otherHead
      obtain ⟨rfl, rfl⟩ := otherHead
      rw [hypothesis ?_ otherTail]
      intro later entries stop laid beyond nonempty
      exact forward laid (by omega) nonempty

/-- Extend a run of entries by the entry at its end. -/
theorem snoc {middle size : Nat} {entry : Entry} (left : Laid entryAt start entries middle)
    (last : entryAt middle = some (entry, size)) :
    Laid entryAt start (entries ++ [entry]) (middle + size) :=
  left.append (.cons last (.nil _))

/--
Every layout has a longest beginning whose bytes are all good: the entry
behind it, if there is one, has a bad byte.
-/
theorem longest (laid : Laid entryAt start entries final) (good : Nat → Prop) :
    ∃ kept rest stop, entries = kept ++ rest ∧ Laid entryAt start kept stop ∧
      Laid entryAt stop rest final ∧ (∀ index, start ≤ index → index < stop → good index) ∧
      ∀ entry more, rest = entry :: more → ∃ size, entryAt stop = some (entry, size) ∧
        ∃ index, stop ≤ index ∧ index < stop + size ∧ ¬ good index := by
  induction laid with
  | nil position => exact ⟨[], [], position, rfl, .nil _, .nil _, by omega, by simp⟩
  | @cons position size final entry rest head tail hypothesis =>
    by_cases whole : ∀ index, position ≤ index → index < position + size → good index
    · obtain ⟨kept, later, stop, split, keptLaid, laterLaid, allGood, next⟩ := hypothesis
      refine ⟨entry :: kept, later, stop, by rw [split]; rfl,
        .cons head keptLaid, laterLaid, ?_, next⟩
      intro index low high
      by_cases inFirst : index < position + size
      · exact whole index low inFirst
      · exact allGood index (by omega) high
    · refine ⟨[], entry :: rest, position, rfl, .nil _, .cons head tail, by omega, ?_⟩
      intro first more split
      obtain ⟨rfl, rfl⟩ := List.cons_eq_cons.mp split
      simp only [not_forall] at whole
      obtain ⟨index, low, high, bad⟩ := whole
      exact ⟨size, head, index, low, high, bad⟩

end Laid

variable {start final fuel : Nat} {entries : List Entry} {state next : State}

/-- A stuck reader returns what it has, whatever fuel is left. -/
theorem scan_stuck {position : Nat} (stuck : Stuck entryAt apply state position) (fuel : Nat) :
    scan entryAt apply fuel state position = some (state, position) := by
  cases fuel with
  | zero => rfl
  | succ fuel =>
    simp only [scan]
    cases found : entryAt position with
    | none => rfl
    | some pair =>
      obtain ⟨entry, size⟩ := pair
      simp [stuck entry size found]

section

variable (laid : Laid entryAt start entries final)
  (applies : applyAll apply state entries = some next)
include laid applies

/-- The scan passes over every laid entry that the reader applies. -/
theorem scan_laid : scan entryAt apply (entries.length + fuel) state start =
    scan entryAt apply fuel next final := by
  induction laid generalizing state with
  | nil =>
    simp only [applyAll, some.injEq] at applies
    subst next
    simp
  | @cons position size final entry rest head _ hypothesis =>
    have fuelShape : (entry :: rest).length + fuel = (rest.length + fuel) + 1 := by
      simp only [List.length_cons]
      omega
    rw [fuelShape]
    simp only [applyAll] at applies
    cases applied : apply state entry with
    | applied middle =>
      simp only [applied] at applies
      simp only [scan, head, applied]
      exact hypothesis applies
    | rejected | crashed => simp [applied] at applies

/-- The reader consumes exactly the laid entries before a stuck position. -/
theorem scan_laid_stuck (stuck : Stuck entryAt apply next final) (enough : entries.length ≤ fuel) :
    scan entryAt apply fuel state start = some (next, final) := by
  obtain ⟨spare, rfl⟩ := Nat.exists_eq_add_of_le enough
  rw [scan_laid laid applies, scan_stuck stuck]

/-- The reader crashes on the first laid entry whose application does. -/
theorem scan_laid_crash {size : Nat} {entry : Entry} (found : entryAt final = some (entry, size))
    (crashes : apply next entry = .crashed) (enough : entries.length < fuel) :
    scan entryAt apply fuel state start = none := by
  obtain ⟨spare, rfl⟩ := Nat.exists_eq_add_of_lt enough
  rw [Nat.add_assoc, scan_laid laid applies]
  simp only [scan, found, crashes]

end

/-- Every completed scan applied a run of laid entries. -/
theorem scan_eq_some {result : State × Nat}
    (scanned : scan entryAt apply fuel state start = some result) :
    ∃ entries, Laid entryAt start entries result.2 ∧ applyAll apply state entries = some result.1 ∧
      entries.length ≤ fuel ∧ (entries.length = fuel ∨ Stuck entryAt apply result.1 result.2) := by
  induction fuel generalizing state start with
  | zero =>
    simp only [scan, some.injEq] at scanned
    subst result
    exact ⟨[], .nil start, rfl, Nat.le_refl 0, Or.inl rfl⟩
  | succ fuel hypothesis =>
    simp only [scan] at scanned
    cases found : entryAt start with
    | none =>
      simp only [found, some.injEq] at scanned
      subst result
      refine ⟨[], .nil start, rfl, Nat.zero_le _, Or.inr ?_⟩
      intro entry size contradiction
      rw [found] at contradiction
      exact absurd contradiction (by simp)
    | some pair =>
      obtain ⟨entry, size⟩ := pair
      simp only [found] at scanned
      cases applied : apply state entry with
      | applied next =>
        simp only [applied] at scanned
        obtain ⟨entries, laid, applies, bounded, ended⟩ := hypothesis scanned
        refine ⟨entry :: entries, .cons found laid, ?_, ?_, ?_⟩
        · simp [applyAll, applied, applies]
        · simpa using bounded
        · rcases ended with exhausted | stuck
          · exact Or.inl (by simp [exhausted])
          · exact Or.inr stuck
      | rejected =>
        simp only [applied, some.injEq] at scanned
        subst result
        refine ⟨[], .nil start, rfl, Nat.zero_le _, Or.inr ?_⟩
        intro otherEntry otherSize other
        rw [found] at other
        cases other
        exact applied
      | crashed => simp [applied] at scanned

/-- A reader that crashes does so on an entry behind the applied ones. -/
theorem scan_eq_none (scanned : scan entryAt apply fuel state start = none) :
    ∃ entries middle next entry size, Laid entryAt start entries middle ∧
      applyAll apply state entries = some next ∧ entryAt middle = some (entry, size) ∧
      apply next entry = .crashed := by
  induction fuel generalizing state start with
  | zero => simp [scan] at scanned
  | succ fuel hypothesis =>
    rw [scan] at scanned
    cases found : entryAt start with
    | none => simp [found] at scanned
    | some pair =>
      obtain ⟨entry, size⟩ := pair
      simp only [found] at scanned
      cases applied : apply state entry with
      | applied next =>
        simp only [applied] at scanned
        obtain ⟨entries, middle, later, last, lastSize, laid, applies,
          lastFound, crashes⟩ := hypothesis scanned
        refine ⟨entry :: entries, middle, later, last, lastSize,
          .cons found laid, ?_, lastFound, crashes⟩
        simp [applyAll, applied, applies]
      | rejected => simp [applied] at scanned
      | crashed => exact ⟨[], start, state, entry, size, .nil start, rfl, found, applied⟩

/-- A reader that never crashes returns something. -/
theorem scan_isSome (steady : ∀ state entry, apply state entry ≠ .crashed) (fuel : Nat)
    (state : State) (position : Nat) :
    ∃ result, scan entryAt apply fuel state position = some result := by
  induction fuel generalizing state position with
  | zero => exact ⟨_, rfl⟩
  | succ fuel hypothesis =>
    rw [scan]
    cases entryAt position with
    | none => exact ⟨_, rfl⟩
    | some found =>
      cases applied : apply state found.1 with
      | applied next =>
        simp only [applied]
        exact hypothesis next _
      | rejected =>
        simp only [applied]
        exact ⟨_, rfl⟩
      | crashed => exact absurd applied (steady state found.1)

/-- Every layout is the beginning of one that ends where nothing lies. -/
theorem Laid.initial {middle : Nat} {first whole : List Entry}
    (left : Laid entryAt start first middle) (right : Laid entryAt start whole final)
    (last : entryAt final = none) : ∃ rest, whole = first ++ rest := by
  induction left generalizing whole with
  | nil => exact ⟨whole, rfl⟩
  | cons head _ hypothesis =>
    cases right with
    | nil =>
      rw [head] at last
      cases last
    | cons otherHead otherTail =>
      rw [head, some.injEq, Prod.mk.injEq] at otherHead
      obtain ⟨rfl, rfl⟩ := otherHead
      obtain ⟨rest, split⟩ := hypothesis otherTail
      exact ⟨rest, by rw [split]; rfl⟩

/-! ## The entries that a scan applies -/

/-- Apply entries and keep the list of those applied. -/
def traced (apply : State → Entry → Step State) :
    State × List Entry → Entry → Step (State × List Entry)
  | (state, entries), entry =>
    match apply state entry with
    | .applied next => .applied (next, entries ++ [entry])
    | .rejected => .rejected
    | .crashed => .crashed

theorem applyAll_traced (applies : applyAll apply state entries = some next)
    (leading : List Entry) :
    applyAll (traced apply) (state, leading) entries = some (next, leading ++ entries) := by
  induction entries generalizing state leading with
  | nil =>
    cases applies
    simp [applyAll]
  | cons entry rest hypothesis =>
    rw [applyAll] at applies ⊢
    cases taken : apply state entry with
    | applied middle =>
      simp only [taken] at applies
      simp only [traced, taken]
      rw [hypothesis applies, List.append_assoc]
      rfl
    | rejected | crashed => simp [taken] at applies

/-- The traced reader returns the laid entries before a stuck position. -/
theorem scan_traced (laid : Laid entryAt start entries final)
    (applies : applyAll apply state entries = some next) (stuck : Stuck entryAt apply next final)
    (enough : entries.length ≤ fuel) :
    scan entryAt (traced apply) fuel (state, []) start = some ((next, entries), final) := by
  have stuckTraced : Stuck entryAt (traced apply) (next, entries) final := by
    intro entry size found
    simp only [traced, stuck entry size found]
  refine scan_laid_stuck laid ?_ stuckTraced enough
  simpa using applyAll_traced applies []

end LogScan

end KernelLane
