import KernelLane.Words

namespace KernelLane

open Words

/-!
# Framing primitives of the guest library

The fixed-width little-endian accessors and the length-prefixed strings that
datagrams and on-disk records are built from, with the lemmas that read each
field back behind any leading bytes.
-/

namespace GuestFrame

/-- Encode a 16-bit field. -/
def put16 (value : UInt16) : Bytes := putLE 2 value.toNat

/-- Encode a 32-bit field. -/
def put32 (value : UInt32) : Bytes := putLE 4 value.toNat

/-- Encode a 64-bit field. -/
def put64 (value : UInt64) : Bytes := putLE 8 value.toNat

/-- Decode the 16-bit field at an offset. -/
def get16 (bytes : Bytes) (offset : Nat) : UInt16 := UInt16.ofNat (getAt 2 bytes offset)

/-- Decode the 32-bit field at an offset. -/
def get32 (bytes : Bytes) (offset : Nat) : UInt32 := UInt32.ofNat (getAt 4 bytes offset)

/-- Decode the 64-bit field at an offset. -/
def get64 (bytes : Bytes) (offset : Nat) : UInt64 := UInt64.ofNat (getAt 8 bytes offset)

@[simp] theorem length_put16 (value : UInt16) : (put16 value).length = 2 := by simp [put16]

@[simp] theorem length_put32 (value : UInt32) : (put32 value).length = 4 := by simp [put32]

@[simp] theorem length_put64 (value : UInt64) : (put64 value).length = 8 := by simp [put64]

/-- A 16-bit field reads back behind any leading bytes. -/
theorem get16_put16 (leading : Bytes) (value : UInt16) (rest : Bytes) (offset : Nat)
    (atEnd : leading.length = offset) :
    get16 (leading ++ (put16 value ++ rest)) offset = value := by
  have small : value.toNat % 256 ^ 2 = value.toNat := Nat.mod_eq_of_lt value.toNat_lt
  rw [get16, getAt_append_left _ atEnd, put16, getAt_zero_putLE_append, small, UInt16.ofNat_toNat]

/-- A 32-bit field reads back behind any leading bytes. -/
theorem get32_put32 (leading : Bytes) (value : UInt32) (rest : Bytes) (offset : Nat)
    (atEnd : leading.length = offset) :
    get32 (leading ++ (put32 value ++ rest)) offset = value := by
  have small : value.toNat % 256 ^ 4 = value.toNat := Nat.mod_eq_of_lt value.toNat_lt
  rw [get32, getAt_append_left _ atEnd, put32, getAt_zero_putLE_append, small, UInt32.ofNat_toNat]

/-- A 32-bit field at the front reads back. -/
theorem get32_put32_zero (value : UInt32) (rest : Bytes) :
    get32 (put32 value ++ rest) 0 = value := by
  simpa using get32_put32 [] value rest 0 rfl

/-- A 64-bit field reads back behind any leading bytes. -/
theorem get64_put64 (leading : Bytes) (value : UInt64) (rest : Bytes) (offset : Nat)
    (atEnd : leading.length = offset) :
    get64 (leading ++ (put64 value ++ rest)) offset = value := by
  have small : value.toNat % 256 ^ 8 = value.toNat := Nat.mod_eq_of_lt value.toNat_lt
  rw [get64, getAt_append_left _ atEnd, put64, getAt_zero_putLE_append, small, UInt64.ofNat_toNat]

/-- Encoding a decoded 32-bit field gives its bytes back. -/
theorem put32_get32 {bytes : Bytes} {offset : Nat} (inside : offset + 4 ≤ bytes.length) :
    put32 (get32 bytes offset) = (bytes.drop offset).take 4 := by
  have fieldLength : ((bytes.drop offset).take 4).length = 4 := by
    simp
    omega
  have small := getLE_lt ((bytes.drop offset).take 4)
  have value : (get32 bytes offset).toNat = getLE ((bytes.drop offset).take 4) := by
    rw [fieldLength] at small
    exact UInt32.toNat_ofNat_of_lt' small
  have roundTrip := putLE_getLE ((bytes.drop offset).take 4)
  rw [fieldLength] at roundTrip
  rw [put32, value, roundTrip]

/-- Append a length-prefixed string; the length field wraps at 16 bits. -/
def appendLStr (name : Bytes) : Bytes := put16 (UInt16.ofNat name.length) ++ name

/-- Decode a length-prefixed string; nothing on truncation. -/
def lStr (bytes : Bytes) (offset : Nat) : Option (Bytes × Nat) :=
  if bytes.length < offset + 2 then none
  else
    let count := (get16 bytes offset).toNat
    if bytes.length < offset + 2 + count then none
    else some ((bytes.drop (offset + 2)).take count, offset + 2 + count)

@[simp] theorem length_appendLStr (name : Bytes) : (appendLStr name).length = 2 + name.length := by
  simp [appendLStr]

/-- A decoded string is part of the bytes. -/
theorem bounds_of_lStr {bytes name : Bytes} {offset next : Nat}
    (parsed : lStr bytes offset = some (name, next)) :
    next = offset + 2 + name.length ∧ next ≤ bytes.length := by
  unfold lStr at parsed
  split at parsed
  · cases parsed
  dsimp only at parsed
  split at parsed
  · cases parsed
  cases parsed
  rw [List.length_take, List.length_drop]
  omega

/-- A string short enough for its length field decodes to itself. -/
theorem lStr_appendLStr (leading name rest : Bytes) (offset : Nat) (atEnd : leading.length = offset)
    (short : name.length < 65536) :
    lStr (leading ++ (appendLStr name ++ rest)) offset = some (name, offset + 2 + name.length) := by
  have countValue : (get16 (leading ++ (appendLStr name ++ rest)) offset).toNat = name.length := by
    rw [appendLStr, List.append_assoc, get16_put16 _ _ _ _ atEnd]
    exact UInt16.toNat_ofNat_of_lt' short
  have roomForCount : ¬ (leading ++ (appendLStr name ++ rest)).length < offset + 2 := by
    simp [atEnd]
    omega
  have roomForName : ¬ (leading ++ (appendLStr name ++ rest)).length <
      offset + 2 + name.length := by
    simp [atEnd]
    omega
  have content : ((leading ++ (appendLStr name ++ rest)).drop (offset + 2)).take name.length =
      name := by
    subst atEnd
    have pastLeading : leading.drop (leading.length + 2) = [] := List.drop_eq_nil_of_le (by omega)
    simp [appendLStr, List.drop_append, pastLeading]
  rw [lStr, if_neg roomForCount]
  simp only [countValue, if_neg roomForName, content]

end GuestFrame

end KernelLane
