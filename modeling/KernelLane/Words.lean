import Mathlib.Data.List.Basic
import Mathlib.Tactic.Ring

namespace KernelLane

/-!
# Little-endian words over byte lists

Every on-disk and on-wire integer of the system is stored little-endian.  One
width-generic writer and one width-generic reader cover the 16-, 32- and
64-bit accessors; the round trip between them is modular in the width.
-/

/-- The bytes of one Go string, datagram, record or sector. -/
abbrev Bytes := List UInt8

/-- The bytes of an ASCII text, as the sources spell their constant names. -/
def ascii (text : String) : Bytes := text.toList.map fun letter => UInt8.ofNat letter.toNat

namespace Words

/-- The low `width` bytes of a value, least significant byte first. -/
def putLE : Nat → Nat → Bytes
  | 0, _ => []
  | width + 1, value => UInt8.ofNat value :: putLE width (value / 256)

/-- The value of a little-endian byte list. -/
def getLE : Bytes → Nat
  | [] => 0
  | byte :: rest => byte.toNat + 256 * getLE rest

/-- Read a little-endian word of the given width at an offset. -/
def getAt (width : Nat) (bytes : Bytes) (offset : Nat) : Nat :=
  getLE ((bytes.drop offset).take width)

theorem toNat_add_ofNat {word : UInt64} {count : Nat} (noWrap : word.toNat + count < 2 ^ 64) :
    (word + UInt64.ofNat count).toNat = word.toNat + count := by
  rw [UInt64.toNat_add, UInt64.toNat_ofNat']
  omega

/-- One step of a word towards another one. -/
theorem distance_succ {start port : UInt16} (apart : port ≠ start) :
    (port - start).toNat = (port - (start + 1)).toNat + 1 := by
  have different : port.toNat ≠ start.toNat := fun same => apart (UInt16.toNat_inj.mp same)
  have one : (1 : UInt16).toNat = 1 := rfl
  have portBelow := port.toNat_lt
  have startBelow := start.toNat_lt
  rw [UInt16.toNat_sub, UInt16.toNat_sub, UInt16.toNat_add, one]
  omega

variable (width value : Nat)

@[simp] theorem length_putLE : (putLE width value).length = width := by
  induction width generalizing value with
  | zero => rfl
  | succ width hypothesis => simp [putLE, hypothesis]

/-- Writing and reading back keeps the value modulo the width. -/
theorem getLE_putLE : getLE (putLE width value) = value % 256 ^ width := by
  induction width generalizing value with
  | zero => simp [putLE, getLE, Nat.mod_one]
  | succ width hypothesis =>
    have split : value % (256 * 256 ^ width) = value % 256 + 256 * (value / 256 % 256 ^ width) :=
      Nat.mod_mul
    have byteValue : (UInt8.ofNat value).toNat = value % 256 := UInt8.toNat_ofNat'
    rw [putLE, getLE, hypothesis, byteValue, pow_succ' 256 width, split]

/-- A little-endian list of `n` bytes encodes a value below `256 ^ n`. -/
theorem getLE_lt (bytes : Bytes) : getLE bytes < 256 ^ bytes.length := by
  induction bytes with
  | nil => simp [getLE]
  | cons byte rest hypothesis =>
    have small : byte.toNat < 256 := byte.toNat_lt
    simp only [getLE, List.length_cons, pow_succ']
    omega

/-- Writing a decoded byte list gives the list back. -/
theorem putLE_getLE (bytes : Bytes) : putLE bytes.length (getLE bytes) = bytes := by
  induction bytes with
  | nil => rfl
  | cons byte rest hypothesis =>
    have small : byte.toNat < 256 := byte.toNat_lt
    have low : UInt8.ofNat (byte.toNat + 256 * getLE rest) = byte := by
      rw [← UInt8.toNat_inj, UInt8.toNat_ofNat']
      omega
    have high : (byte.toNat + 256 * getLE rest) / 256 = getLE rest := by omega
    simp only [List.length_cons, getLE, putLE, low, high, hypothesis]

/-- The word written at the front of a list is the word read at offset zero. -/
theorem getAt_zero_putLE_append (rest : Bytes) :
    getAt width (putLE width value ++ rest) 0 = value % 256 ^ width := by
  have takesWord : (putLE width value ++ rest).take width = putLE width value := by simp
  simp only [getAt, List.drop_zero, takesWord, getLE_putLE]

/-- Reading past a prefix of known length reads at the start of the rest. -/
theorem getAt_append_left {width : Nat} {leading : Bytes} (rest : Bytes) {offset : Nat}
    (atEnd : leading.length = offset) :
    getAt width (leading ++ rest) offset = getAt width rest 0 := by
  subst atEnd
  simp [getAt]

/-! ## Big-endian words -/

/-- The low `width` bytes of a value, most significant byte first. -/
def putBE : Nat → Nat → Bytes
  | 0, _ => []
  | width + 1, value => putBE width (value / 256) ++ [UInt8.ofNat value]

/-- The value of a big-endian byte list. -/
def getBE (bytes : Bytes) : Nat := bytes.foldl (fun value byte => value * 256 + byte.toNat) 0

@[simp] theorem length_putBE : (putBE width value).length = width := by
  induction width generalizing value with
  | zero => rfl
  | succ width hypothesis => simp [putBE, hypothesis]

/-- Reading a big-endian word back is modular in the width. -/
theorem getBE_putBE : getBE (putBE width value) = value % 256 ^ width := by
  induction width generalizing value with
  | zero => simp [putBE, getBE, Nat.mod_one]
  | succ width hypothesis =>
    have front := hypothesis (value / 256)
    rw [getBE] at front
    have last : (UInt8.ofNat value).toNat = value % 256 := UInt8.toNat_ofNat'
    rw [putBE, getBE, List.foldl_append, front, List.foldl_cons, List.foldl_nil, last, Nat.pow_succ,
      Nat.mul_comm (256 ^ width) 256, Nat.mod_mul]
    omega

end Words

end KernelLane
