import Mathlib.Algebra.Group.Int.Defs
import Mathlib.Algebra.Group.Nat.Defs

namespace KernelLane.Wasm

open UInt64

/-!
# Numeric instructions

Every operand is a 64-bit word; an instruction reads the low half or all of
it.  The integer instructions are defined here for both widths at once.  The
floating-point instructions work on bit patterns: the arithmetic of the
machine is a parameter, and what the interpreter adds to it (NaN and signed
zero handling, rounding to the nearest, the ranges of the truncations) is
defined in terms of it.
-/

/-- The statuses of the engine; the last seven are traps. -/
inductive Status where
  | ok
  | malformed
  | unsupported
  | typeMismatch
  | outOfMemory
  | missingImport
  | internal
  | trapUnreachable
  | trapOutOfBounds
  | trapDivideByZero
  | trapIndirectCall
  | trapStackOverflow
  | trapIntegerOverflow
  | trapInvalidConversion
  deriving DecidableEq, Repr

inductive ValueType where
  | i32
  | i64
  | f32
  | f64
  deriving DecidableEq, Repr

/-- The two widths of integers and of floating-point numbers. -/
inductive Width where
  | w32
  | w64
  deriving DecidableEq, Repr

namespace Width

def bits : Width → Nat
  | w32 => 32
  | w64 => 64

def low (width : Width) (operand : UInt64) : Nat := operand.toNat % 2 ^ width.bits

end Width

/-! ## Integers -/

def toSigned (bits value : Nat) : Int :=
  if value < 2 ^ (bits - 1) then value else value - 2 ^ bits

def ofSigned (bits : Nat) (value : Int) : Nat := (value % 2 ^ bits).toNat

def countLeadingZeroes (bits : Nat) : Nat → Nat → Nat
  | 0, _ => 0
  | steps + 1, value =>
    if value.testBit (bits - 1) then 0
    else countLeadingZeroes bits steps (value * 2 % 2 ^ bits) + 1

def countTrailingZeroes : Nat → Nat → Nat
  | 0, _ => 0
  | steps + 1, value =>
    if value % 2 = 1 then 0 else countTrailingZeroes steps (value / 2) + 1

def populationCount : Nat → Nat → Nat
  | 0, _ => 0
  | steps + 1, value => value % 2 + populationCount steps (value / 2)

def rotateLeft (bits value count : Nat) : Nat :=
  if count % bits = 0 then value
  else (value <<< (count % bits)) % 2 ^ bits ||| value >>> (bits - count % bits)

def rotateRight (bits value count : Nat) : Nat :=
  if count % bits = 0 then value
  else value >>> (count % bits) ||| (value <<< (bits - count % bits)) % 2 ^ bits

def shiftRight (bits value count : Nat) (arithmetic : Bool) : Nat :=
  if count % bits = 0 then value
  else if arithmetic && value.testBit (bits - 1) then
    value >>> (count % bits) |||
      ((2 ^ bits - 1) <<< (bits - count % bits)) % 2 ^ bits
  else value >>> (count % bits)

inductive IntUnary where
  | eqz
  | clz
  | ctz
  | popcnt
  deriving DecidableEq, Repr

inductive IntBinary where
  | add
  | sub
  | mul
  | divS
  | divU
  | remS
  | remU
  | and
  | or
  | xor
  | shl
  | shrS
  | shrU
  | rotl
  | rotr
  deriving DecidableEq, Repr

inductive IntRelation where
  | eq
  | ne
  | ltS
  | ltU
  | gtS
  | gtU
  | leS
  | leU
  | geS
  | geU
  deriving DecidableEq, Repr

def ofBool (value : Bool) : Nat :=
  if value then 1 else 0

def IntUnary.eval (bits : Nat) : IntUnary → Nat → Nat
  | eqz, value => ofBool (value == 0)
  | clz, value => countLeadingZeroes bits bits value
  | ctz, value => countTrailingZeroes bits value
  | popcnt, value => populationCount bits value

/-- The divisions trap on zero; the signed quotient also on overflow. -/
def IntBinary.eval (bits : Nat) : IntBinary → Nat → Nat → Except Status Nat
  | add, left, right => .ok ((left + right) % 2 ^ bits)
  | sub, left, right => .ok ((left + 2 ^ bits - right) % 2 ^ bits)
  | mul, left, right => .ok (left * right % 2 ^ bits)
  | divU, left, right =>
    if right = 0 then .error .trapDivideByZero else .ok (left / right)
  | remU, left, right =>
    if right = 0 then .error .trapDivideByZero else .ok (left % right)
  | divS, left, right =>
    if right = 0 then .error .trapDivideByZero
    else if left = 2 ^ (bits - 1) ∧ right = 2 ^ bits - 1 then .error .trapIntegerOverflow
    else .ok (ofSigned bits (Int.tdiv (toSigned bits left) (toSigned bits right)))
  | remS, left, right =>
    if right = 0 then .error .trapDivideByZero
    else if left = 2 ^ (bits - 1) ∧ right = 2 ^ bits - 1 then .ok 0
    else .ok (ofSigned bits (Int.tmod (toSigned bits left) (toSigned bits right)))
  | and, left, right => .ok (left &&& right)
  | or, left, right => .ok (left ||| right)
  | xor, left, right => .ok (left ^^^ right)
  | shl, left, right => .ok ((left <<< (right % bits)) % 2 ^ bits)
  | shrS, left, right => .ok (shiftRight bits left right true)
  | shrU, left, right => .ok (shiftRight bits left right false)
  | rotl, left, right => .ok (rotateLeft bits left right)
  | rotr, left, right => .ok (rotateRight bits left right)

def IntRelation.eval (bits : Nat) : IntRelation → Nat → Nat → Bool
  | eq, left, right => left == right
  | ne, left, right => left != right
  | ltS, left, right => decide (toSigned bits left < toSigned bits right)
  | ltU, left, right => decide (left < right)
  | gtS, left, right => decide (toSigned bits right < toSigned bits left)
  | gtU, left, right => decide (right < left)
  | leS, left, right => decide (toSigned bits left ≤ toSigned bits right)
  | leU, left, right => decide (left ≤ right)
  | geS, left, right => decide (toSigned bits right ≤ toSigned bits left)
  | geU, left, right => decide (right ≤ left)

/-! ## Floating point -/

inductive FloatRelation where
  | eq
  | ne
  | lt
  | gt
  | le
  | ge
  deriving DecidableEq, Repr

/-- The roundings and the square root that the compiler provides. -/
inductive FloatBuiltin where
  | ceil
  | floor
  | trunc
  | sqrt
  deriving DecidableEq, Repr

inductive FloatArithmetic where
  | add
  | sub
  | mul
  | div
  deriving DecidableEq, Repr

/-- The arithmetic of the machine on bit patterns. -/
structure Floats where
  compare : Width → FloatRelation → Nat → Nat → Bool
  builtin : Width → FloatBuiltin → Nat → Nat
  arithmetic : Width → FloatArithmetic → Nat → Nat → Nat
  /-- The cast of a double to an integer of a width, signed or not. -/
  toInt : Width → Bool → Nat → Nat
  /-- The cast of an integer, signed or not, to a float of a width. -/
  ofInt : Width → Bool → Width → Nat → Nat
  demote : Nat → Nat
  promote : Nat → Nat

def signBit (width : Width) : Nat := 2 ^ (width.bits - 1)

def exponentMask : Width → Nat
  | .w32 => 0x7f800000
  | .w64 => 0x7ff0000000000000

def mantissaMask : Width → Nat
  | .w32 => 0x007fffff
  | .w64 => 0x000fffffffffffff

def quietNan : Width → Nat
  | .w32 => 0x7fc00000
  | .w64 => 0x7ff8000000000000

def half : Width → Nat
  | .w32 => 0x3f000000
  | .w64 => 0x3fe0000000000000

def one : Width → Nat
  | .w32 => 0x3f800000
  | .w64 => 0x3ff0000000000000

def isNan (width : Width) (value : Nat) : Bool :=
  value &&& exponentMask width == exponentMask width && value &&& mantissaMask width != 0

def negative (width : Width) (value : Nat) : Bool := value &&& signBit width != 0

def magnitude (width : Width) (value : Nat) : Nat := value &&& (signBit width - 1)

def negate (width : Width) (value : Nat) : Nat := value ^^^ signBit width

inductive FloatUnary where
  | abs
  | neg
  | ceil
  | floor
  | trunc
  | nearest
  | sqrt
  deriving DecidableEq, Repr

inductive FloatBinary where
  | add
  | sub
  | mul
  | div
  | min
  | max
  | copysign
  deriving DecidableEq, Repr

namespace Floats

variable (floats : Floats)

def minimum (width : Width) (left right : Nat) : Nat :=
  if isNan width left || isNan width right then quietNan width
  else if magnitude width left = 0 ∧ magnitude width right = 0 then
    if negative width left || negative width right then signBit width else 0
  else if floats.compare width .lt left right then left
  else right

def maximum (width : Width) (left right : Nat) : Nat :=
  if isNan width left || isNan width right then quietNan width
  else if magnitude width left = 0 ∧ magnitude width right = 0 then
    if negative width left && negative width right then signBit width else 0
  else if floats.compare width .gt left right then left
  else right

/-- Round to the nearest, taking the lowest bit of the pattern for parity. -/
def nearest (width : Width) (value : Nat) : Nat :=
  if value &&& exponentMask width = exponentMask width then value
  else
    let positive :=
      if negative width value then negate width value else value
    let truncated := floats.builtin width .trunc positive
    let fraction := floats.arithmetic width .sub positive truncated
    let rounded :=
      if floats.compare width .gt fraction (half width) ||
          (floats.compare width .eq fraction (half width) && truncated % 2 == 1) then
        floats.arithmetic width .add truncated (one width)
      else truncated
    if negative width value then negate width rounded else rounded

def unary (width : Width) : FloatUnary → Nat → Nat
  | .abs, value => magnitude width value
  | .neg, value => negate width value
  | .ceil, value => floats.builtin width .ceil value
  | .floor, value => floats.builtin width .floor value
  | .trunc, value => floats.builtin width .trunc value
  | .nearest, value => floats.nearest width value
  | .sqrt, value => floats.builtin width .sqrt value

def binary (width : Width) : FloatBinary → Nat → Nat → Nat
  | .add, left, right => floats.arithmetic width .add left right
  | .sub, left, right => floats.arithmetic width .sub left right
  | .mul, left, right => floats.arithmetic width .mul left right
  | .div, left, right => floats.arithmetic width .div left right
  | .min, left, right => floats.minimum width left right
  | .max, left, right => floats.maximum width left right
  | .copysign, left, right => magnitude width left ||| (right &&& signBit width)

def widened : Width → Nat → Nat
  | .w32, value => floats.promote value
  | .w64, value => value

def lowerBound : Width → Bool → Nat
  | .w32, true => 0xc1e0000000000000
  | .w64, true => 0xc3e0000000000000
  | _, false => 0

def upperBound : Width → Bool → Nat
  | .w32, true => 0x41e0000000000000
  | .w32, false => 0x41f0000000000000
  | .w64, true => 0x43e0000000000000
  | .w64, false => 0x43f0000000000000

/-- Truncate a number to an integer; NaNs and values out of range trap. -/
def truncate (source target : Width) (signed : Bool) (value : Nat) : Except Status Nat :=
  let double := floats.widened source value
  if isNan source value then .error .trapInvalidConversion
  else if floats.compare .w64 .ge double (lowerBound target signed) &&
      floats.compare .w64 .lt double (upperBound target signed) then
    .ok (floats.toInt target signed double)
  else .error .trapInvalidConversion

/-- Truncate a number to the nearest integer in range. -/
def saturate (source target : Width) (signed : Bool) (value : Nat) : Nat :=
  let double := floats.widened source value
  if !floats.compare .w64 .eq double double then 0
  else if floats.compare .w64 .le double (lowerBound target signed) then
    if signed then 2 ^ (target.bits - 1) else 0
  else if floats.compare .w64 .ge double (upperBound target signed) then
    if signed then 2 ^ (target.bits - 1) - 1 else 2 ^ target.bits - 1
  else floats.toInt target signed double

end Floats

/-! ## Instructions of one and of two operands -/

/-- An instruction that replaces one operand. -/
inductive Unary where
  | int (width : Width) (op : IntUnary)
  | wrapI64
  | extendI32 (signed : Bool)
  | float (width : Width) (op : FloatUnary)
  | truncate (source target : Width) (signed : Bool)
  | convert (source : Width) (signed : Bool) (target : Width)
  | demoteF64
  | promoteF32
  /-- To a type of integers or back to one of floats. -/
  | reinterpret (width : Width) (toInt : Bool)
  | signExtend (width : Width) (bits : Nat)
  | truncSat (source target : Width) (signed : Bool)
  deriving DecidableEq, Repr

/-- An instruction that replaces two operands. -/
inductive Binary where
  | int (width : Width) (op : IntBinary)
  | intCmp (width : Width) (relation : IntRelation)
  | floatCmp (width : Width) (relation : FloatRelation)
  | float (width : Width) (op : FloatBinary)
  deriving DecidableEq, Repr

namespace Unary

/-- The word that the instruction computes, or the trap that it raises. -/
def eval (floats : Floats) : Unary → UInt64 → Except Status UInt64
  | int width op, value => .ok (ofNat (op.eval width.bits (width.low value)))
  | wrapI64, value => .ok (ofNat (Width.w32.low value))
  | extendI32 true, value => .ok (ofNat (ofSigned 64 (toSigned 32 (Width.w32.low value))))
  | extendI32 false, value => .ok (ofNat (Width.w32.low value))
  | float width op, value => .ok (ofNat (floats.unary width op (width.low value)))
  | truncate source target signed, value =>
    match floats.truncate source target signed (source.low value) with
    | .ok result => .ok (ofNat result)
    | .error status => .error status
  | convert source signed target, value =>
    .ok (ofNat (floats.ofInt source signed target (source.low value)))
  | demoteF64, value => .ok (ofNat (floats.demote value.toNat))
  | promoteF32, value => .ok (ofNat (floats.promote (Width.w32.low value)))
  | reinterpret width _, value => .ok (ofNat (width.low value))
  | signExtend width bits, value =>
    .ok (ofNat (ofSigned width.bits (toSigned bits (value.toNat % 2 ^ bits))))
  | truncSat source target signed, value =>
    .ok (ofNat (floats.saturate source target signed (source.low value)))

end Unary

namespace Binary

/-- The word that the instruction computes, or the trap that it raises. -/
def eval (floats : Floats) : Binary → UInt64 → UInt64 → Except Status UInt64
  | int width op, left, right =>
    match op.eval width.bits (width.low left) (width.low right) with
    | .ok result => .ok (ofNat result)
    | .error status => .error status
  | intCmp width relation, left, right =>
    .ok (ofNat (ofBool (relation.eval width.bits (width.low left) (width.low right))))
  | floatCmp width relation, left, right =>
    .ok (ofNat (ofBool (floats.compare width relation (width.low left) (width.low right))))
  | float width op, left, right =>
    .ok (ofNat (floats.binary width op (width.low left) (width.low right)))

end Binary

end KernelLane.Wasm
