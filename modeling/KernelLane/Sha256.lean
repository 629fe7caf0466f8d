import KernelLane.Words

namespace KernelLane.Sha256

/-!
# SHA-256

The hash works on blocks of sixteen big-endian words.  A sliding window over
the last sixteen words yields the message schedule, and each scheduled word
drives one of the sixty-four rounds on eight chaining words.
-/

/-- The eight chaining words. -/
structure Chain where
  a : UInt32
  b : UInt32
  c : UInt32
  d : UInt32
  e : UInt32
  f : UInt32
  g : UInt32
  h : UInt32
  deriving DecidableEq, Repr

def rotateRight (word amount : UInt32) : UInt32 := (word >>> amount) ||| (word <<< (32 - amount))

def smallSigma0 (word : UInt32) : UInt32 :=
  rotateRight word 7 ^^^ rotateRight word 18 ^^^ (word >>> 3)

def smallSigma1 (word : UInt32) : UInt32 :=
  rotateRight word 17 ^^^ rotateRight word 19 ^^^ (word >>> 10)

def bigSigma0 (word : UInt32) : UInt32 :=
  rotateRight word 2 ^^^ rotateRight word 13 ^^^ rotateRight word 22

def bigSigma1 (word : UInt32) : UInt32 :=
  rotateRight word 6 ^^^ rotateRight word 11 ^^^ rotateRight word 25

def choose (x y z : UInt32) : UInt32 := (x &&& y) ^^^ (~~~x &&& z)

def majority (x y z : UInt32) : UInt32 := (x &&& y) ^^^ (x &&& z) ^^^ (y &&& z)

def roundConstants : List UInt32 :=
  [0x428a2f98, 0x71374491, 0xb5c0fbcf, 0xe9b5dba5, 0x3956c25b, 0x59f111f1, 0x923f82a4, 0xab1c5ed5,
    0xd807aa98, 0x12835b01, 0x243185be, 0x550c7dc3, 0x72be5d74, 0x80deb1fe, 0x9bdc06a7, 0xc19bf174,
    0xe49b69c1, 0xefbe4786, 0x0fc19dc6, 0x240ca1cc, 0x2de92c6f, 0x4a7484aa, 0x5cb0a9dc, 0x76f988da,
    0x983e5152, 0xa831c66d, 0xb00327c8, 0xbf597fc7, 0xc6e00bf3, 0xd5a79147, 0x06ca6351, 0x14292967,
    0x27b70a85, 0x2e1b2138, 0x4d2c6dfc, 0x53380d13, 0x650a7354, 0x766a0abb, 0x81c2c92e, 0x92722c85,
    0xa2bfe8a1, 0xa81a664b, 0xc24b8b70, 0xc76c51a3, 0xd192e819, 0xd6990624, 0xf40e3585, 0x106aa070,
    0x19a4c116, 0x1e376c08, 0x2748774c, 0x34b0bcb5, 0x391c0cb3, 0x4ed8aa4a, 0x5b9cca4f, 0x682e6ff3,
    0x748f82ee, 0x78a5636f, 0x84c87814, 0x8cc70208, 0x90befffa, 0xa4506ceb, 0xbef9a3f7, 0xc67178f2]

def initialChain : Chain :=
  ⟨0x6a09e667, 0xbb67ae85, 0x3c6ef372, 0xa54ff53a, 0x510e527f, 0x9b05688c, 0x1f83d9ab, 0x5be0cd19⟩

def round (chain : Chain) (constant word : UInt32) : Chain :=
  let first := chain.h + bigSigma1 chain.e + choose chain.e chain.f chain.g + constant + word
  let second := bigSigma0 chain.a + majority chain.a chain.b chain.c
  ⟨first + second, chain.a, chain.b, chain.c, chain.d + first, chain.e, chain.f, chain.g⟩

def nextWord (window : List UInt32) : UInt32 :=
  smallSigma1 (window.getD 14 0) + window.getD 9 0 + smallSigma0 (window.getD 1 0) + window.getD 0 0

def rounds : List UInt32 → List UInt32 → Chain → Chain
  | [], _, chain => chain
  | constant :: rest, window, chain =>
    rounds rest (window.tail ++ [nextWord window]) (round chain constant (window.headD 0))

def compress (chain : Chain) (block : List UInt32) : Chain :=
  let mixed := rounds roundConstants block chain
  ⟨chain.a + mixed.a, chain.b + mixed.b, chain.c + mixed.c, chain.d + mixed.d, chain.e + mixed.e,
    chain.f + mixed.f, chain.g + mixed.g, chain.h + mixed.h⟩

def words : Bytes → List UInt32
  | w :: x :: y :: z :: rest =>
    ((w.toUInt32 <<< 24) ||| (x.toUInt32 <<< 16) ||| (y.toUInt32 <<< 8) |||
      z.toUInt32) :: words rest
  | _ => []

def pad (message : Bytes) : Bytes :=
  message ++ [0x80] ++ List.replicate ((119 - message.length % 64) % 64) 0 ++
    Words.putBE 8 (8 * message.length)

def absorb (chain : Chain) (blocks : Nat) (message : List UInt32) : Chain :=
  match blocks with
  | 0 => chain
  | rest + 1 => absorb (compress chain (message.take 16)) rest (message.drop 16)

def sum256 (message : Bytes) : Bytes :=
  let padded := pad message
  let last := absorb initialChain (padded.length / 64) (words padded)
  [last.a, last.b, last.c, last.d, last.e, last.f, last.g, last.h].flatMap
    fun word => Words.putBE 4 word.toNat

/-! ## Lower-case hexadecimal text -/

def hexDigit (value : Nat) : UInt8 := UInt8.ofNat (if value < 10 then 48 + value else 87 + value)

def encodeToString (bytes : Bytes) : Bytes :=
  bytes.flatMap fun byte => [hexDigit (byte.toNat / 16), hexDigit (byte.toNat % 16)]

example : encodeToString (sum256 (ascii "abc")) = ascii "ba7816bf8f01cfea414140de5dae2223" ++
    ascii "b00361a396177a9cb410ff61f20015ad" := by
  decide +kernel

end KernelLane.Sha256
