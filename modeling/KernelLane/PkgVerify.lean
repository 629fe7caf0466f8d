import KernelLane.WasmSections
import Mathlib.Data.List.DropRight

namespace KernelLane.Pkg

open Sections List RawSection

/-!
# What the package manager verifies

A signed module carries its signature in a custom section of its own.  The
package manager takes the ABI version and the name of a module from other
custom sections, and checks the signature over the ABI byte and the module
with its first `sig` section cut out.

`extractCustomSection_strip` is the result that ties the two together: the
other custom sections are read the same with the `sig` section in the module
and without it, wherever it stood.  So whoever holds a signature over one
message cannot use it to have another name or version installed.
-/

/-! ## Custom sections -/

def wasmMagic : Bytes := [0x00, 0x61, 0x73, 0x6d]

def abiVerName : Bytes := ascii "abi_ver"

def sigName : Bytes := ascii "sig"

def moduleNameName : Bytes := ascii "module_name"

def nameName : Bytes := ascii "name"

/--
A number at the front of a section body and the bytes behind it; zero and the
whole body when there is no number of at most five bytes.
-/
def readLEB128Full (body : Bytes) : Nat × Bytes := (readLEB128 5 0 0 body).getD (0, body)

def payloadOf (name body : Bytes) : Option Bytes :=
  match readLEB128Full body with
  | (nameLen, behind) =>
    if nameLen ≤ behind.length ∧ behind.take nameLen = name then some (behind.drop nameLen)
    else none

def customSection (data name : Bytes) : Option (Found Bytes) :=
  if data.length < 8 ∨ data.take 4 ≠ wasmMagic then none
  else findSection (payloadOf name) data.length 8 (data.drop 8)

def extractCustomSection (data name : Bytes) : Option Bytes :=
  (customSection data name).map (·.value)

def findSectionSize (data name : Bytes) : Option (Nat × Nat) :=
  (customSection data name).map fun found => (found.offset, found.size)

def extractABIVer (data : Bytes) : Option UInt8 := (extractCustomSection data abiVerName).bind head?

def extractSig (data : Bytes) : Option Bytes := extractCustomSection data sigName

def stripSigSection (data : Bytes) : Bytes :=
  match findSectionSize data sigName with
  | none => data
  | some (offset, secSize) => data.take offset ++ data.drop (offset + secSize)

def verifyMessage (abiVer : UInt8) (wasm : Bytes) : Bytes :=
  match findSectionSize wasm sigName with
  | none => abiVer :: wasm
  | some (offset, secSize) => abiVer :: wasm.take offset ++ wasm.drop (offset + secSize)

/-- A public key, of the size that the loader of the trusted keys admits. -/
abbrev PublicKey := { key : Bytes // key.length = 32 }

/--
Check the signature of a module against the trusted keys.  The signature
scheme is a function of key, message and signature.
-/
def verify (checks : PublicKey → Bytes → Bytes → Bool) (trusted : List PublicKey) (wasm : Bytes) :
    Except String Unit :=
  if trusted = [] then .error "no trusted keys loaded"
  else
    match extractABIVer wasm with
    | none => .error "no abi_ver section found"
    | some abiVer =>
      match extractSig wasm with
      | none => .error "no sig section found"
      | some sig =>
        if trusted.any fun key => checks key (verifyMessage abiVer wasm) sig then
          .ok ()
        else .error "signature did not match any trusted key"

def abiVer (wasm : Bytes) : UInt8 := (extractABIVer wasm).getD 0

/--
The name of a module: its `module_name` section, or else its `name` section
without the zero bytes at its end.
-/
def moduleName (wasm : Bytes) : Bytes :=
  match extractCustomSection wasm moduleNameName with
  | some (first :: rest) => first :: rest
  | _ =>
    match extractCustomSection wasm nameName with
    | none => []
    | some body => body.rdropWhile (· = 0)

def signedMessage (wasm : Bytes) : Bytes := verifyMessage (abiVer wasm) wasm

/-! ## One name for one section -/

variable {name : Bytes}

theorem payloadOf_of_other {other body payload : Bytes} (different : other ≠ name)
    (taken : payloadOf name body = some payload) : payloadOf other body = none := by
  unfold payloadOf at taken ⊢
  dsimp only at taken ⊢
  split at taken
  next named =>
    rw [if_neg]
    rintro ⟨_, alsoNamed⟩
    exact different (alsoNamed.symm.trans named.2)
  · cases taken

theorem hit_of_other {other payload : Bytes} {entry : RawSection} (different : other ≠ name)
    (taken : entry.hit (payloadOf name) = some payload) : entry.hit (payloadOf other) = none := by
  unfold hit at taken ⊢
  split at taken
  next custom =>
    rw [if_pos custom]
    exact payloadOf_of_other different taken
  · cases taken

/-! ## Cutting the signature out -/

theorem extractCustomSection_eq {data : Bytes} (long : 8 ≤ data.length)
    (magic : data.take 4 = wasmMagic) (name : Bytes) :
    extractCustomSection data name = (sections (data.drop 8)).findSome?
      (hit (payloadOf name)) := by
  have admitted : ¬(data.length < 8 ∨ data.take 4 ≠ wasmMagic) := by
    rintro (short | other)
    · omega
    · exact other magic
  have enough : (data.drop 8).length ≤ data.length := by
    rw [length_drop]
    omega
  rw [extractCustomSection, customSection, if_neg admitted]
  exact findSection_value (payloadOf name) 8 enough

theorem cut_eq {data : Bytes} {found : Found Bytes} (long : 8 ≤ data.length)
    (walked : Walked (payloadOf name) 8 (data.drop 8) found) :
    data.take found.offset ++ data.drop (found.offset + found.size) =
      data.take 8 ++ walked.remaining := by
  have whole : data = (data.take 8 ++ walked.before.flatMap bytes) ++
      (walked.here.bytes ++ walked.rest) := by
    rw [append_assoc, ← walked.whole, take_append_drop]
  have front : (data.take 8 ++ walked.before.flatMap bytes).length = found.offset := by
    rw [walked.offset, length_append, length_take]
    omega
  have taken : data.take found.offset = data.take 8 ++ walked.before.flatMap bytes := by
    conv_lhs => rw [whole]
    exact take_left' front
  have dropped : data.drop (found.offset + found.size) = walked.rest := by
    conv_lhs => rw [whole]
    rw [← drop_drop, drop_left' front, walked.size]
    exact drop_left
  rw [taken, dropped, Walked.remaining, append_assoc]

theorem extractCustomSection_strip (different : name ≠ sigName) (data : Bytes) :
    extractCustomSection (stripSigSection data) name = extractCustomSection data name := by
  unfold stripSigSection findSectionSize
  cases located : customSection data sigName with
  | none => rfl
  | some found =>
    have walk := located
    rw [customSection] at walk
    split at walk
    · cases walk
    next admitted =>
      rw [not_or, not_lt, not_not] at admitted
      obtain ⟨long, magic⟩ := admitted
      obtain ⟨walked⟩ := findSection_walked walk
      have passes := hit_of_other different walked.taken
      have eight : (data.take 8).length = 8 := by
        rw [length_take]
        omega
      have stillLong : 8 ≤ (data.take 8 ++ walked.remaining).length := by
        rw [length_append, eight]
        omega
      have stillMagic : (data.take 8 ++ walked.remaining).take 4 = wasmMagic := by
        rw [take_append_of_le_length (by omega), take_take]
        exact magic
      simp only [Option.map_some]
      rw [cut_eq long walked, extractCustomSection_eq stillLong stillMagic,
        drop_left' eight, extractCustomSection_eq long magic]
      exact walked.findSome_remaining passes

theorem verifyMessage_eq (version : UInt8) (wasm : Bytes) :
    verifyMessage version wasm = version :: stripSigSection wasm := by
  unfold verifyMessage stripSigSection
  split <;> rfl

theorem moduleName_strip (wasm : Bytes) : moduleName (stripSigSection wasm) = moduleName wasm := by
  unfold moduleName
  rw [extractCustomSection_strip (by decide), extractCustomSection_strip (by decide)]

/-! ## What is signed is what is installed -/

theorem verify_ok {checks : PublicKey → Bytes → Bytes → Bool} {trusted : List PublicKey}
    {wasm : Bytes} (accepted : verify checks trusted wasm = .ok ()) :
    ∃ version sig key, extractABIVer wasm = some version ∧ extractSig wasm = some sig ∧
      key ∈ trusted ∧ checks key (signedMessage wasm) sig = true := by
  unfold verify at accepted
  split at accepted
  · cases accepted
  split at accepted
  · cases accepted
  next version versioned =>
    split at accepted
    · cases accepted
    next sig signed =>
      split at accepted
      next matched =>
        obtain ⟨key, member, good⟩ := any_eq_true.mp matched
        refine ⟨version, sig, key, versioned, signed, member, ?_⟩
        rw [signedMessage, abiVer, versioned]
        exact good
      · cases accepted

/--
Two modules that are accepted for one signed message have the same ABI
version and the same name.
-/
theorem signed_is_installed (checks : PublicKey → Bytes → Bytes → Bool) (trusted : List PublicKey)
    (first second : Bytes) (firstAccepted : verify checks trusted first = .ok ())
    (secondAccepted : verify checks trusted second = .ok ())
    (sameMessage : signedMessage first = signedMessage second) :
    (∃ version, extractABIVer first = some version ∧ extractABIVer second = some version) ∧
    moduleName first = moduleName second := by
  obtain ⟨version, _, _, firstVersion, _⟩ := verify_ok firstAccepted
  obtain ⟨version', _, _, secondVersion, _⟩ := verify_ok secondAccepted
  rw [signedMessage, signedMessage, verifyMessage_eq, verifyMessage_eq, List.cons.injEq, abiVer,
    abiVer, firstVersion, secondVersion, Option.getD_some, Option.getD_some] at sameMessage
  obtain ⟨rfl, sameModule⟩ := sameMessage
  refine ⟨⟨version, firstVersion, secondVersion⟩, ?_⟩
  rw [← moduleName_strip first, sameModule, moduleName_strip]

def unsignedModule : Bytes :=
  wasmMagic ++ [1, 0, 0, 0] ++ [0, 9, 7] ++ abiVerName ++ [2] ++
    [0, 13, 11] ++ moduleNameName ++ [0x6d]

def oneByteSig : Bytes := [0, 5, 3] ++ sigName ++ [0x55]

/-- The signature at the end and the signature behind the preamble. -/
theorem signed_is_installed_moved : (∃ version,
      extractABIVer (unsignedModule ++ oneByteSig) = some version ∧
      extractABIVer (unsignedModule.take 8 ++ oneByteSig ++ unsignedModule.drop 8) = some version) ∧
    moduleName (unsignedModule ++ oneByteSig) = moduleName (unsignedModule.take 8 ++ oneByteSig ++
      unsignedModule.drop 8) :=
  signed_is_installed (fun _ _ _ => true) [⟨replicate 32 0, by decide⟩] _ _
    (by decide) (by decide) (by decide)

end KernelLane.Pkg
