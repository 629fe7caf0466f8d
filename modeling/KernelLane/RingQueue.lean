import Mathlib.Data.List.Basic
import Mathlib.Data.Nat.ModEq

namespace KernelLane.RingQueue

open Function List Nat

/-!
# Ring buffers as queues

A ring of slots with a head position represents a queue when the slots from
the head on, taken around the ring, hold exactly the queued items and every
other slot is empty.  Writing at the tail appends an item and clearing the
head removes the first one.
-/

variable {α : Type}

/-- The slot that lies some places behind the head. -/
def place (capacity head offset : Nat) : Nat := (head + offset) % capacity

/-- The slots from the head on hold exactly these items. -/
structure Holds (capacity : Nat) (slots : Nat → Option α) (head tail : Nat)
    (items : List α) : Prop where
  headIn : head < capacity
  short : items.length ≤ capacity
  tailAt : tail = place capacity head items.length
  cells : ∀ offset, offset < capacity → slots (place capacity head offset) = items[offset]?

/-- Different places of one turn of the ring are different slots. -/
theorem place_injective {capacity head first second : Nat} (firstIn : first < capacity)
    (secondIn : second < capacity) (same : place capacity head first = place capacity head second) :
    first = second := by
  have congruent : first ≡ second [MOD capacity] := Nat.ModEq.add_left_cancel' head same
  rwa [Nat.ModEq, mod_eq_of_lt firstIn, mod_eq_of_lt secondIn] at congruent

theorem place_zero {capacity head : Nat} (headIn : head < capacity) :
    place capacity head 0 = head := by
  rw [place, add_zero, mod_eq_of_lt headIn]

theorem place_succ (capacity head offset : Nat) : (place capacity head offset + 1) % capacity =
    place capacity head (offset + 1) := by
  rw [place, place, mod_add_mod, add_assoc]

theorem place_next (capacity head offset : Nat) : place capacity ((head + 1) % capacity) offset =
    place capacity head (offset + 1) := by
  rw [place, place, mod_add_mod, add_right_comm, add_assoc]

/-- Every slot of the ring lies some places behind the head. -/
theorem exists_place {capacity head slot : Nat} (headIn : head < capacity)
    (slotIn : slot < capacity) :
    ∃ offset, offset < capacity ∧ place capacity head offset = slot := by
  by_cases behind : head ≤ slot
  · refine ⟨slot - head, by omega, ?_⟩
    rw [place, Nat.add_sub_cancel' behind, Nat.mod_eq_of_lt slotIn]
  refine ⟨slot + capacity - head, by omega, ?_⟩
  have around : head + (slot + capacity - head) = slot + capacity := by omega
  rw [place, around, add_mod_right, mod_eq_of_lt slotIn]

/-- The items from the head on, in a ring whose slots are not cleared. -/
def window (capacity : Nat) (slots : Nat → α) (head count : Nat) : List α :=
  (range count).map fun offset => slots (place capacity head offset)

@[simp] theorem length_window (capacity : Nat) (slots : Nat → α) (head count : Nat) :
    (window capacity slots head count).length = count := by
  simp [window]

/-- Writing the slot behind the window appends an item. -/
theorem window_push {capacity count : Nat} (room : count < capacity) (slots : Nat → α) (head : Nat)
    (item : α) : window capacity (update slots (place capacity head count) item) head (count + 1) =
      window capacity slots head count ++ [item] := by
  unfold window
  rw [range_succ, map_append, map_singleton, update_self]
  congr 1
  refine map_congr_left fun offset member => ?_
  have inside := mem_range.mp member
  rw [update_of_ne]
  intro same
  exact absurd (place_injective (Nat.lt_trans inside room) room same) (Nat.ne_of_lt inside)

/-- The window starts at the head. -/
theorem window_pop {capacity head : Nat} (headIn : head < capacity) (slots : Nat → α)
    (count : Nat) : window capacity slots head (count + 1) = slots head ::
      window capacity slots ((head + 1) % capacity) count := by
  unfold window
  rw [range_succ_eq_map, map_cons, map_map, place_zero headIn]
  congr 1
  refine map_congr_left fun offset _ => ?_
  rw [place_next]
  rfl

namespace Holds

variable {capacity head tail : Nat} {slots : Nat → Option α} {item : α} {items : List α}

/-- A ring of empty slots is the empty queue. -/
theorem empty (headIn : head < capacity) (blank : ∀ slot, slot < capacity → slots slot = none) :
    Holds capacity slots head head [] where
  headIn := headIn
  short := zero_le _
  tailAt := (place_zero headIn).symm
  cells := by
    intro offset _
    rw [place, blank _ (mod_lt _ (by omega))]
    rfl

/-- Writing the tail slot appends an item. -/
theorem push (holds : Holds capacity slots head tail items) (room : items.length < capacity) :
    Holds capacity (update slots tail (some item)) head
      ((tail + 1) % capacity) (items ++ [item]) where
  headIn := holds.headIn
  short := by
    simp only [length_append, length_singleton]
    omega
  tailAt := by rw [holds.tailAt, place_succ, length_append, length_singleton]
  cells := by
    intro offset inRing
    by_cases atTail : offset = items.length
    · subst atTail
      rw [← holds.tailAt, update_self]
      simp
    have elsewhere : place capacity head offset ≠ tail := by
      rw [holds.tailAt]
      intro same
      exact atTail (place_injective inRing room same)
    rw [update_of_ne elsewhere, holds.cells offset inRing]
    rcases lt_or_gt_of_ne atTail with inside | outside
    · rw [List.getElem?_append_left inside]
    · rw [List.getElem?_eq_none (by omega), List.getElem?_eq_none (by simp; omega)]

/-- The head slot holds the first item. -/
theorem front (holds : Holds capacity slots head tail (item :: items)) :
    slots head = some item := by
  have headIn := holds.headIn
  have first := holds.cells 0 (by omega)
  rwa [place_zero headIn] at first

/-- Clearing the head slot removes the first item. -/
theorem pop (holds : Holds capacity slots head tail (item :: items)) :
    Holds capacity (update slots head none) ((head + 1) % capacity) tail items where
  headIn := mod_lt _ (lt_of_le_of_lt (zero_le _) holds.headIn)
  short := by
    have short := holds.short
    simp only [length_cons] at short
    omega
  tailAt := by rw [place_next, holds.tailAt, length_cons]
  cells := by
    intro offset inRing
    have headIn := holds.headIn
    rw [place_next]
    by_cases lastPlace : offset + 1 = capacity
    · -- The last place behind the new head is the old head itself.
      have around : place capacity head (offset + 1) = head := by
        rw [place, lastPlace, add_mod_right, mod_eq_of_lt headIn]
      have short := holds.short
      simp only [length_cons] at short
      rw [around, update_self, List.getElem?_eq_none (by omega)]
    · have elsewhere : place capacity head (offset + 1) ≠ head := by
        intro same
        have zero : offset + 1 = 0 :=
          place_injective (by omega) (by omega) (same.trans (place_zero headIn).symm)
        omega
      rw [update_of_ne elsewhere, holds.cells _ (by omega), List.getElem?_cons_succ]

/-- Every slot of an empty queue's ring is empty. -/
theorem slot_of_nil (holds : Holds capacity slots head tail []) {slot : Nat}
    (slotIn : slot < capacity) : slots slot = none := by
  obtain ⟨offset, offsetIn, rfl⟩ := exists_place holds.headIn slotIn
  exact holds.cells offset offsetIn

end Holds

end KernelLane.RingQueue
