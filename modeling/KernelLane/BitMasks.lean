import Mathlib.Logic.Basic

namespace KernelLane.BitMasks

open BitVec

/-!
# Inclusion and disjointness of bit masks

Masks are machine words; the set that a mask denotes is the set of its bits.
-/

/-- Every bit of a mask is a bit of another. -/
def Within (mask held : UInt64) : Prop := mask &&& ~~~held = 0

/-- Two masks share no bit. -/
def Apart (mask bits : UInt64) : Prop := mask &&& bits = 0

instance (mask bits : UInt64) : Decidable (Apart mask bits) := inferInstanceAs (Decidable (_ = _))

variable {mask held bits : UInt64}

/-- A mask is within another when each of its bits is set there. -/
theorem within_iff : Within mask held ↔
    ∀ bit, mask.toBitVec.getLsbD bit → held.toBitVec.getLsbD bit := by
  unfold Within
  rw [← UInt64.toBitVec_inj, eq_of_getLsbD_eq_iff]
  constructor
  · intro same bit set
    have below : bit < 64 := lt_of_getLsbD set
    simp_all
  · intro included bit below
    simp only [UInt64.toBitVec_and, UInt64.toBitVec_not, getLsbD_and, getLsbD_not]
    cases set : mask.toBitVec.getLsbD bit with
    | false => simp
    | true => simp [included bit set]

/-- Masks are apart when no bit is set in both. -/
theorem apart_iff : Apart mask bits ↔
    ∀ bit, mask.toBitVec.getLsbD bit → ¬ bits.toBitVec.getLsbD bit := by
  unfold Apart
  rw [← UInt64.toBitVec_inj, eq_of_getLsbD_eq_iff]
  constructor
  · intro same bit set
    have below : bit < 64 := lt_of_getLsbD set
    simp_all
  · intro disjoint bit below
    simp only [UInt64.toBitVec_and, getLsbD_and]
    cases set : mask.toBitVec.getLsbD bit with
    | false => simp
    | true => simpa using disjoint bit set

/-- What lies within a mask is apart from everything the mask is apart from. -/
theorem Within.apart (within : Within mask held) (apart : Apart held bits) : Apart mask bits :=
  apart_iff.mpr fun bit set => apart_iff.mp apart bit (within_iff.mp within bit set)

/-- Inclusion of masks is transitive. -/
theorem Within.trans {first second third : UInt64} (left : Within first second)
    (right : Within second third) : Within first third :=
  within_iff.mpr fun bit set => within_iff.mp right bit (within_iff.mp left bit set)

/-- A union grows with its second mask. -/
theorem Within.or_mono (other : UInt64) (within : Within mask held) :
    Within (other ||| mask) (other ||| held) := by
  rw [within_iff] at within ⊢
  intro bit set
  simp only [UInt64.toBitVec_or, getLsbD_or, Bool.or_eq_true] at set ⊢
  exact set.imp_right (within bit)

/-- A mask lies within its union with another on the left. -/
theorem within_or_right (other mask : UInt64) : Within mask (other ||| mask) := by
  rw [within_iff]
  intro bit set
  simp [set]

/-- A mask lies within its union with another. -/
theorem within_or_left (mask other : UInt64) : Within mask (mask ||| other) := by
  rw [within_iff]
  intro bit set
  simp [set]

/-- The empty mask is apart from every mask. -/
theorem apart_zero (bits : UInt64) : Apart 0 bits := by simp [Apart]

/-- Clearing bits and setting others keeps a mask apart from the rest. -/
theorem Apart.clear_set {set : UInt64} (apart : Apart mask bits) (setApart : Apart set bits)
    (clear : UInt64) : Apart ((mask &&& ~~~clear) ||| set) bits := by
  rw [apart_iff] at apart setApart ⊢
  intro bit held
  simp only [UInt64.toBitVec_or, UInt64.toBitVec_and, getLsbD_or,
    getLsbD_and, Bool.or_eq_true, Bool.and_eq_true] at held
  rcases held with ⟨kept, _⟩ | added
  · exact apart bit kept
  · exact setApart bit added

end KernelLane.BitMasks
