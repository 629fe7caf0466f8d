import KernelLane.Words
import Mathlib.Data.Int.ModEq
import Mathlib.Tactic.Linarith

namespace KernelLane.Wasm

open Nat

/-!
# Numbers of a binary module

The decoder reads numbers in LEB128, seven bits a byte.  Its readers are
loops with an accumulator; the binary format gives numbers by productions
that take one byte and leave seven bits less.  The readers get the bytes from
the position on and give back the value and the bytes behind the number.

The unsigned reader reads what the format has.  The signed readers also read
numbers whose last byte has unused bits that are alike but not the sign.
-/

/-! ## The readers -/

def uleb32From : Nat → Nat → Nat → Bytes → Option (Nat × Bytes)
  | 0, _, _, _ => none
  | _ + 1, _, _, [] => none
  | count + 1, shift, result, byte :: rest =>
    -- The upper four bits of the last byte have to be clear.
    if shift = 28 ∧ 16 ≤ byte.toNat then none
    else
      let result := result ||| (byte.toNat % 128) <<< shift
      if byte.toNat < 128 then some (result % 2 ^ 32, rest)
      else uleb32From count (shift + 7) result rest

def uleb32 (bytes : Bytes) : Option (Nat × Bytes) := uleb32From 5 0 0 bytes

/--
A reader of signed numbers of `width` bits, over words of 64 bits; at the
shift `last` the bits of the mask have to be alike.
-/
def slebFrom (width last mask : Nat) : Nat → Nat → Nat → Bytes → Option (Int × Bytes)
  | 0, _, _, _ => none
  | _ + 1, _, _, [] => none
  | count + 1, shift, result, byte :: rest =>
    let extension := byte.toNat &&& mask
    if shift = last ∧ extension ≠ 0 ∧ extension ≠ mask then none
    else
      let result := result ||| (byte.toNat % 128) <<< shift % 2 ^ 64
      let shift := shift + 7
      if byte.toNat < 128 then
        let result :=
          if shift < width ∧ 64 ≤ byte.toNat then result ||| (2 ^ 64 - 1) <<< shift % 2 ^ 64
          else result
        some (Int.bmod result (2 ^ width), rest)
      else slebFrom width last mask count shift result rest

def sleb32 (bytes : Bytes) : Option (Int × Bytes) := slebFrom 32 28 0x70 5 0 0 bytes

def sleb64 (bytes : Bytes) : Option (Int × Bytes) := slebFrom 64 63 0x7e 10 0 0 bytes

/-! ## The format -/

def unsignedNumber (bits : Nat) : Bytes → Option (Nat × Bytes)
  | [] => none
  | byte :: rest =>
    if byte.toNat < 2 ^ 7 ∧ byte.toNat < 2 ^ bits then some (byte.toNat, rest)
    else if 2 ^ 7 ≤ byte.toNat ∧ 7 < bits then
      (unsignedNumber (bits - 7) rest).map fun later =>
        (2 ^ 7 * later.1 + (byte.toNat - 2 ^ 7), later.2)
    else none

/-- A signed number of some bits, by the productions of the format. -/
def signedNumber (bits : Nat) : Bytes → Option (Int × Bytes)
  | [] => none
  | byte :: rest =>
    if byte.toNat < 2 ^ 6 ∧ byte.toNat < 2 ^ (bits - 1) then some (byte.toNat, rest)
    else if 2 ^ 6 ≤ byte.toNat ∧ byte.toNat < 2 ^ 7 ∧ 2 ^ 7 - 2 ^ (bits - 1) ≤ byte.toNat then
      some (byte.toNat - 2 ^ 7, rest)
    else if 2 ^ 7 ≤ byte.toNat ∧ 7 < bits then
      (signedNumber (bits - 7) rest).map fun later =>
        (2 ^ 7 * later.1 + (byte.toNat - 2 ^ 7), later.2)
    else none

/--
A number of full length whose last byte has alike unused bits that are not its
sign bit.
-/
def LooseEnd (bits : Nat) : Bytes → Prop
  | [] => False
  | byte :: rest =>
    if byte.toNat < 2 ^ 7 then
      bits < 7 ∧ (2 ^ (bits - 1) ≤ byte.toNat ∧ byte.toNat < 2 ^ bits ∨
        2 ^ 7 - 2 ^ bits ≤ byte.toNat ∧ byte.toNat < 2 ^ 7 - 2 ^ (bits - 1))
    else 7 < bits ∧ LooseEnd (bits - 7) rest

/-! ## One byte more -/

section

variable {result shift payload width bits : Nat} (low : result < 2 ^ shift)
include low

theorem or_shift (payload : Nat) : result ||| payload <<< shift = result + 2 ^ shift * payload := by
  rw [Nat.or_comm, Nat.shiftLeft_eq, Nat.mul_comm, ← Nat.two_pow_add_eq_or_of_lt low, Nat.add_comm]

theorem more_lt (small : payload < 2 ^ bits) :
    result + 2 ^ shift * payload < 2 ^ (shift + bits) := by
  calc
    result + 2 ^ shift * payload < 2 ^ shift * (payload + 1) := by
      rw [mul_succ, add_comm]
      exact Nat.add_lt_add_left low _
    _ ≤ 2 ^ (shift + bits) := by
      rw [pow_add]
      exact mul_le_mul_left _ small

theorem uleb32From_eq {count : Nat} {bytes : Bytes} (whole : bits + 3 = 7 * count)
    (word : shift + bits = 32) : uleb32From count shift result bytes =
      (unsignedNumber bits bytes).map fun later => (result + 2 ^ shift * later.1, later.2) := by
  induction bytes generalizing count bits shift result with
  | nil => cases count <;> rfl
  | cons byte rest hypothesis =>
    obtain ⟨count, rfl⟩ : ∃ rounds, count = rounds + 1 := ⟨count - 1, by omega⟩
    have last : shift = 28 ↔ bits = 4 := by omega
    rw [uleb32From, unsignedNumber, or_shift low]
    simp only [last]
    by_cases final : byte.toNat < 128
    · have fits : ¬(bits = 4 ∧ 16 ≤ byte.toNat) ↔ byte.toNat < 2 ^ bits := by
        by_cases ends : bits = 4
        · subst ends
          omega
        · have wide : 2 ^ 7 ≤ 2 ^ bits := Nat.pow_le_pow_right Nat.two_pos (by omega)
          omega
      by_cases small : byte.toNat < 2 ^ bits
      · rw [if_neg (fits.mpr small), if_pos final, if_pos ⟨final, small⟩, mod_eq_of_lt final,
          mod_eq_of_lt (word ▸ more_lt low small)]
        rfl
      · rw [if_pos (not_not.mp (mt fits.mp small)), if_neg (by tauto), if_neg (by omega)]
        rfl
    · by_cases ends : bits = 4
      · rw [if_pos ⟨ends, by omega⟩, if_neg (by omega), if_neg (by omega)]
        rfl
      · have payload : byte.toNat % 128 = byte.toNat - 2 ^ 7 := by
          have bound := byte.toNat_lt
          omega
        rw [if_neg (by tauto), if_neg final, if_neg (by omega), if_pos ⟨by omega, by omega⟩, payload,
          @hypothesis _ (shift + 7) (bits - 7) (more_lt low (by omega)) count
            (by omega) (by omega), Option.map_map]
        refine Option.map_congr fun later _ => Prod.ext ?_ rfl
        dsimp only [Function.comp_apply]
        rw [pow_add 2 shift 7]
        ring

theorem or_word (short : shift ≤ width) (payload : Nat) : result ||| payload <<< shift % 2 ^ width =
      result + 2 ^ shift * (payload % 2 ^ (width - shift)) := by
  obtain ⟨bits, rfl⟩ := Nat.exists_eq_add_of_le short
  rw [Nat.add_sub_cancel_left, Nat.pow_add, Nat.shiftLeft_eq, Nat.mul_comm payload,
    Nat.mul_mod_mul_left, ← or_shift low, Nat.shiftLeft_eq, Nat.mul_comm]

theorem or_word_congr (short : shift ≤ width) (payload : Nat) : ((result ||| payload <<< shift % 2 ^ width : Nat) : Int) ≡
      result + 2 ^ shift * payload [ZMOD 2 ^ width] := by
  have split : (2 : Int) ^ width = 2 ^ shift * 2 ^ (width - shift) := by
    rw [← pow_add, Nat.add_sub_cancel' short]
  rw [or_word low short, split]
  push_cast
  exact ((Int.mod_modEq _ _).mul_left' ..).add_left _

theorem bmod_word {word : Nat} {value : Int} (some : 0 < bits)
    (above : -2 ^ (bits - 1) ≤ value) (below : value < 2 ^ (bits - 1))
    (same : (word : Int) ≡ result + 2 ^ shift * value [ZMOD 2 ^ (shift + bits)]) :
    Int.bmod word (2 ^ (shift + bits)) = result + 2 ^ shift * value := by
  have halves : (2 : Int) ^ (shift + bits) = 2 ^ shift * 2 ^ (bits - 1) * 2 := by
    rw [mul_assoc, ← pow_succ, ← pow_add, Nat.sub_add_cancel some]
  have nonneg : (0 : Int) ≤ 2 ^ shift := by positivity
  have least := mul_le_mul_of_nonneg_left above nonneg
  have most := mul_le_mul_of_nonneg_left (Int.add_one_le_iff.mpr below) nonneg
  have agree : (word : Int) % (2 ^ (shift + bits) : Nat) =
      (result + 2 ^ shift * value) % (2 ^ (shift + bits) : Nat) := by
    push_cast
    exact same
  rw [← Int.emod_bmod, agree, Int.emod_bmod]
  refine Int.bmod_eq_of_le_mul_two ?_ ?_ <;> push_cast <;> rw [halves] <;> linarith

end

section Signed

variable {width last mask spare count bits shift result : Nat} {bytes : Bytes}

/-- The value of a last byte, its sign bit drawn out where there is room. -/
theorem last_value {byte : Nat} (some : 0 < bits) (short : shift + bits ≤ 64)
    (low : result < 2 ^ shift) (small : byte < 128) {value : Int}
    (above : -(2 ^ (bits - 1) : Nat) ≤ value) (below : value < (2 ^ (bits - 1) : Nat))
    (sign : 7 < bits ∧ (byte < 64 ∧ value = byte ∨ ¬byte < 64 ∧ value = byte - 128) ∨
      bits < 7 ∧ (value = byte ∨ value = byte - 128)) :
    Int.bmod (if shift + 7 < shift + bits ∧ 64 ≤ byte then
        result ||| byte <<< shift % 2 ^ 64 ||| (2 ^ 64 - 1) <<< (shift + 7) % 2 ^ 64
      else result ||| byte <<< shift % 2 ^ 64 : Nat) (2 ^ (shift + bits)) =
      result + 2 ^ shift * value := by
  have room : shift ≤ 64 := by omega
  have narrow : (2 : Int) ^ (shift + bits) ∣ 2 ^ 64 := pow_dvd_pow 2 short
  have plain := (or_word_congr low room byte).of_dvd narrow
  have inside : result ||| byte <<< shift % 2 ^ 64 < 2 ^ (shift + 7) := by
    rw [or_word low room]
    exact more_lt low ((mod_le _ _).trans_lt small)
  refine bmod_word low some (by exact_mod_cast above) (by exact_mod_cast below) ?_
  rcases sign with ⟨wide, ⟨positive, rfl⟩ | ⟨negative, rfl⟩⟩ | ⟨ending, rfl | rfl⟩
  · rw [if_neg (by omega)]
    exact plain
  · rw [if_pos (by omega)]
    have drawn := (or_word_congr inside (by omega) (2 ^ 64 - 1)).of_dvd narrow
    refine drawn.trans ((plain.add_right _).trans (Int.ModEq.symm ?_))
    refine (Int.modEq_iff_dvd.mpr (narrow.trans (Dvd.intro_left (2 ^ (shift + 7)) ?_)))
    push_cast
    ring
  · rw [if_neg (by omega)]
    exact plain
  · rw [if_neg (by omega)]
    refine plain.trans (Int.ModEq.symm (Int.modEq_iff_dvd.mpr ?_))
    refine (pow_dvd_pow 2 (by omega : shift + bits ≤ shift + 7)).trans (dvd_of_eq ?_)
    rw [pow_add]
    ring

theorem slebFrom_eq_iff (whole : bits + spare = 7 * count) (word : shift + bits = width)
    (least : 1 ≤ spare) (most : spare ≤ 6) (short : width ≤ 64) (ends : last + 7 = width + spare)
    (alike : ∀ byte < 256, byte &&& mask ≠ 0 ∧ byte &&& mask ≠ mask ↔
      2 ^ (7 - spare) ≤ byte % 128 ∧ byte % 128 < 2 ^ 7 - 2 ^ (7 - spare))
    (low : result < 2 ^ shift) : slebFrom width last mask count shift result bytes =
        (signedNumber bits bytes).map (fun later => ((result : Int) + 2 ^ shift * later.1, later.2)) ↔
      ¬LooseEnd bits bytes := by
  induction bytes generalizing count bits shift result with
  | nil =>
    refine iff_of_true ?_ not_false
    cases count <;> rfl
  | cons byte rest hypothesis =>
    obtain ⟨count, rfl⟩ : ∃ rounds, count = rounds + 1 := ⟨count - 1, by omega⟩
    have atEnd : shift = last ↔ bits < 7 := by omega
    have wide : 7 < bits ↔ ¬bits < 7 := by omega
    rw [slebFrom, signedNumber, LooseEnd]
    simp only [atEnd, alike _ byte.toNat_lt]
    by_cases final : byte.toNat < 128
    · have read := @last_value _ _ _ byte.toNat (by omega : 0 < bits) (by omega) low final
      have double := two_pow_pred_mul_two (by omega : 0 < bits)
      simp only [if_pos final, if_pos (show byte.toNat < 2 ^ 7 from final), mod_eq_of_lt final,
        ← word]
      generalize Int.bmod _ _ = value at read ⊢
      by_cases ending : bits < 7
      · have small : 2 ^ bits ≤ 2 ^ 6 := Nat.pow_le_pow_right Nat.two_pos (by omega)
        rw [(by omega : 7 - spare = bits), ← double]
        rw [← double] at small
        generalize 2 ^ (bits - 1) = half at read small ⊢
        by_cases positive : byte.toNat < half
        · rw [if_neg (by omega), if_pos ⟨by omega, positive⟩,
            read (by omega) (by omega) (Or.inr ⟨ending, Or.inl rfl⟩)]
          exact iff_of_true rfl (by omega)
        by_cases negative : 2 ^ 7 - half ≤ byte.toNat
        · rw [if_neg (by omega), if_neg (by omega), if_pos ⟨by omega, final, negative⟩,
            read (by omega) (by omega) (Or.inr ⟨ending, Or.inr rfl⟩)]
          exact iff_of_true rfl (by omega)
        by_cases mixed : half * 2 ≤ byte.toNat ∧ byte.toNat < 2 ^ 7 - half * 2
        · rw [if_pos ⟨ending, mixed⟩, if_neg (by omega), if_neg (by omega), if_neg (by omega)]
          exact iff_of_true rfl (by omega)
        · rw [if_neg fun both => mixed both.2, if_neg (by omega), if_neg (by omega),
            if_neg (by omega)]
          exact iff_of_false nofun (by omega)
      · have large : 2 ^ 7 ≤ 2 ^ (bits - 1) := Nat.pow_le_pow_right Nat.two_pos (by omega)
        have wide := wide.mpr ending
        generalize 2 ^ (bits - 1) = half at read large ⊢
        rw [if_neg (by omega)]
        refine iff_of_true ?_ (by omega)
        by_cases positive : byte.toNat < 2 ^ 6
        · rw [if_pos ⟨positive, by omega⟩,
            read (by omega) (by omega) (Or.inl ⟨wide, Or.inl ⟨positive, rfl⟩⟩)]
          rfl
        · rw [if_neg (by omega), if_pos ⟨by omega, final, by omega⟩,
            read (by omega) (by omega) (Or.inl ⟨wide, Or.inr ⟨positive, rfl⟩⟩)]
          rfl
    · have large : ¬byte.toNat < 64 := by omega
      have more : 128 ≤ byte.toNat := by omega
      simp only [reducePow, final, large, more, false_and, and_false, if_false, true_and]
      by_cases ending : bits < 7
      · obtain rfl : count = 0 := by omega
        simp [slebFrom, wide, ending]
      · have payload : byte.toNat % 128 = byte.toNat - 128 := by
          have bound := byte.toNat_lt
          omega
        have kept : (byte.toNat - 128) % 2 ^ (64 - shift) = byte.toNat - 128 := by
          refine mod_eq_of_lt (lt_of_lt_of_le ?_
            (Nat.pow_le_pow_right Nat.two_pos (by omega : 7 ≤ 64 - shift)))
          omega
        have word64 := or_word low (by omega : shift ≤ 64) (byte.toNat % 128)
        rw [payload, kept] at word64
        have step : ∀ later : Int × Bytes,
            ((result : Int) + 2 ^ shift * (2 ^ 7 * later.1 + (byte.toNat - 2 ^ 7)), later.2) =
              (((result + 2 ^ shift * (byte.toNat - 128) : Nat) : Int) + 2 ^ (shift + 7) * later.1,
                later.2) := by
          intro later
          push_cast [cast_sub more, pow_add]
          ring_nf
        simp only [reducePow] at word64
        simp only [ending, false_and, if_false, wide, not_false_eq_true, if_true, true_and,
          Option.map_map, Function.comp_def, step, payload, word64]
        exact hypothesis (by omega) (by omega) (more_lt low (by omega : _ < 2 ^ 7))

end Signed

/--
The unsigned reader is the format's; the signed readers are on the bytes that
do not have a loose end, and only on them.
-/
theorem leb_readers (bytes : Bytes) : uleb32 bytes = unsignedNumber 32 bytes ∧
    (sleb32 bytes = signedNumber 32 bytes ↔ ¬LooseEnd 32 bytes) ∧
    (sleb64 bytes = signedNumber 64 bytes ↔ ¬LooseEnd 64 bytes) := by
  have read := @uleb32From_eq 0 0 32 (by decide) 5 bytes rfl rfl
  have read32 := @slebFrom_eq_iff 32 28 0x70 3 5 32 0 0 bytes rfl rfl (by decide) (by decide)
    (by decide) rfl (by decide +kernel) (by decide)
  have read64 := @slebFrom_eq_iff 64 63 0x7e 6 10 64 0 0 bytes rfl rfl (by decide) (by decide)
    (by decide) rfl (by decide +kernel) (by decide)
  simp only [pow_zero, one_mul, zero_add, cast_zero, Prod.mk.eta, Option.map_id']
    at read read32 read64
  exact ⟨read, read32, read64⟩

/-- A fifth byte of 8 is read as the sign of a number that has none. -/
theorem sleb32_loose_end : sleb32 [0x80, 0x80, 0x80, 0x80, 0x08] = some (-2 ^ 31, []) ∧
    signedNumber 32 [0x80, 0x80, 0x80, 0x80, 0x08] = none := by
  decide +kernel

end KernelLane.Wasm
