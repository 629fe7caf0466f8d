import KernelLane.PkgVerify
import KernelLane.WasmLeb
import KernelLane.WasmNumeric

namespace KernelLane.Wasm

open Sections Pkg List

/-!
# The ABI version of a module

The decoder of the kernel walks the sections of a module and records the ABI
version of each `abi_ver` section that has one, so that the last one counts.
The package manager takes the first `abi_ver` section, also an empty one.  The
decoders of the other sections and the checks at the end are parameters.
-/

def kMaxSections : Nat := 64

def sectionOrder (id : UInt8) : Option Nat :=
  if 1 ≤ id.toNat ∧ id.toNat ≤ 9 then some id.toNat
  else if id = 12 then some 10
  else if id = 10 then some 11
  else if id = 11 then some 12
  else none

/-- The decoders of the sections, each with the bytes that it leaves, and the checks at the end. -/
structure Decoders (Builder : Type) where
  start : Builder
  decode : UInt8 → Bytes → Builder → Except Status (Bytes × Builder)
  finish : Builder → Except Status Unit

def readName (bytes : Bytes) : Option (Bytes × Bytes) :=
  match uleb32 bytes with
  | none => none
  | some (length, behind) =>
    if behind.length < length then none else some (behind.take length, behind.drop length)

section Decoding

variable {Builder : Type} (decoders : Decoders Builder)

/-- Decode the sections, with the number of sections that may still come. -/
def decodeSections : Nat → Nat → Builder → Option UInt8 → Bytes →
    Except Status (Builder × Option UInt8)
  | _, _, builder, version, [] => .ok (builder, version)
  | 0, _, _, _, _ :: _ => .error .unsupported
  | left + 1, lastOrder, builder, version, id :: rest =>
    match uleb32 rest with
    | none => .error .malformed
    | some (size, behind) =>
      if behind.length < size then .error .malformed
      else if id = 0 then
        match readName (behind.take size) with
        | none => .error .malformed
        | some (name, body) =>
          let version := if name = abiVerName then body.head?.or version else version
          decodeSections left lastOrder builder version (behind.drop size)
      else
        match sectionOrder id with
        | none => .error .unsupported
        | some order =>
          if order ≤ lastOrder then .error .malformed
          else
            match decoders.decode id (behind.take size) builder with
            | .error status => .error status
            | .ok (unread, builder) =>
              if unread ≠ [] then .error .malformed
              else decodeSections left order builder version (behind.drop size)

/-- Decode a module: the ABI version that is recorded, if any.  The copy of the blob may fail. -/
def decodeImpl (copied : Bool) (blob : Bytes) : Except Status (Option UInt8) :=
  if blob.length < 8 then .error .malformed
  else if blob.take 4 ≠ wasmMagic ∨ (blob.drop 4).take 4 ≠ [1, 0, 0, 0] then .error .malformed
  else if copied = false then .error .outOfMemory
  else do
    let (builder, version) ← decodeSections decoders kMaxSections 0 decoders.start none (blob.drop 8)
    decoders.finish builder
    return version

end Decoding

/-! ## The two walks -/

theorem uleb32From_reads {count shift result value : Nat} {bytes behind : Bytes}
    (word : shift + 7 * count = 35) (low : result < 2 ^ shift)
    (read : uleb32From count shift result bytes = some (value, behind)) :
    readLEB128 count shift result bytes = some (value, behind) := by
  induction bytes generalizing count shift result with
  | nil => cases count <;> cases read
  | cons byte rest hypothesis =>
    cases count with
    | zero => cases read
    | succ count =>
      rw [uleb32From] at read
      rw [readLEB128]
      dsimp only at read
      split_ifs at read with upper final
      · have bound : byte.toNat % 128 < 2 ^ (32 - shift) := by
          by_cases last : shift = 28
          · subst last
            omega
          · exact (Nat.mod_lt _ (by decide)).trans_le
              (Nat.pow_le_pow_right Nat.two_pos (by omega : 7 ≤ 32 - shift))
        have inWord := more_lt low bound
        rw [Nat.add_sub_cancel' (by omega)] at inWord
        rw [or_shift low, Nat.mod_eq_of_lt inWord] at read
        rw [if_pos final, or_shift low, read]
      · rw [if_neg final]
        refine hypothesis (by omega) ?_ read
        rw [or_shift low]
        exact more_lt low (Nat.mod_lt _ (by decide))

/-- A section that the decoder has read is a section for the package manager. -/
theorem sections_of_uleb32 {id : UInt8} {rest behind : Bytes} {size : Nat}
    (read : uleb32 rest = some (size, behind)) (fits : ¬behind.length < size) :
    ∃ field, sections (id :: rest) = ⟨id, field, behind.take size⟩ :: sections (behind.drop size) := by
  have sized := uleb32From_reads rfl (by decide) read
  refine ⟨rest.take (rest.length - behind.length), sections_of_some ?_⟩
  simp only [nextSection, sized, if_neg fits]

theorem payloadOf_of_readName {bytes name body : Bytes} (read : readName bytes = some (name, body))
    (wanted : Bytes) : payloadOf wanted bytes = if name = wanted then some body else none := by
  unfold readName at read
  split at read
  · cases read
  next length behind sized =>
    split_ifs at read with short
    cases read
    have same := uleb32From_reads rfl (by decide) sized
    simp only [payloadOf, readLEB128Full, same, Option.getD_some, not_lt.mp short, true_and]

def abiPayloads (blob : Bytes) : List Bytes :=
  (sections (blob.drop 8)).filterMap (RawSection.hit (payloadOf abiVerName))

section Decoding

variable {Builder : Type} {decoders : Decoders Builder}

/-- The decoder records the first byte of the last section that has one. -/
theorem decodeSections_version {left lastOrder : Nat} {builder after : Builder}
    {version recorded : Option UInt8} {bytes : Bytes}
    (decoded : decodeSections decoders left lastOrder builder version bytes =
      .ok (after, recorded)) :
    recorded = (((sections bytes).filterMap (RawSection.hit (payloadOf abiVerName))).filterMap
      head?).getLast?.or version := by
  induction left generalizing lastOrder builder version bytes with
  | zero =>
    cases bytes with
    | nil =>
      cases decoded
      rw [sections_of_none rfl]
      rfl
    | cons => cases decoded
  | succ left hypothesis =>
    cases bytes with
    | nil =>
      cases decoded
      rw [sections_of_none rfl]
      rfl
    | cons id rest =>
      rw [decodeSections] at decoded
      split at decoded
      · cases decoded
      next size behind read =>
        split_ifs at decoded with short custom
        all_goals obtain ⟨field, walked⟩ := @sections_of_uleb32 id _ _ _ read short
        · split at decoded
          · cases decoded
          next name body named =>
            rw [hypothesis decoded, walked, filterMap_cons]
            simp only [RawSection.hit, custom, if_true, payloadOf_of_readName named]
            by_cases wanted : name = abiVerName
            · cases body with
              | nil => simp [wanted]
              | cons first others => simp [wanted, getLast?_cons]
            · simp [wanted]
        · repeat' split at decoded
          all_goals first | cases decoded | skip
          rw [hypothesis decoded, walked, filterMap_cons]
          simp only [RawSection.hit, custom, if_false]

/--
For a module that the decoder accepts, the version that it records is the one
that the package manager reads exactly when the last `abi_ver` section that is
not empty starts with the byte with which the first `abi_ver` section starts.
-/
theorem abi_version_agrees_iff {copied : Bool} {blob : Bytes} {recorded : Option UInt8}
    (accepted : decodeImpl decoders copied blob = .ok recorded) : recorded = extractABIVer blob ↔
      ∀ byte, ((abiPayloads blob).filterMap head?).getLast? = some byte →
        ∃ rest, (abiPayloads blob).head? = some (byte :: rest) := by
  have versions : recorded = ((abiPayloads blob).filterMap head?).getLast? ∧
      extractABIVer blob = (abiPayloads blob).head?.bind head? := by
    unfold decodeImpl at accepted
    split_ifs at accepted with long preamble copied
    cases walked : decodeSections decoders kMaxSections 0 decoders.start none (blob.drop 8) with
    | error status =>
      rw [walked] at accepted
      cases accepted
    | ok walk =>
      have recordedLast := decodeSections_version walked
      rw [walked] at accepted
      rw [Option.or_none] at recordedLast
      constructor
      · cases finished : decoders.finish walk.1 with
        | error => simp [bind, Except.bind, finished] at accepted
        | ok =>
          simp [bind, Except.bind, finished, pure, Except.pure] at accepted
          exact accepted.symm.trans recordedLast
      · have custom : ¬(blob.length < 8 ∨ blob.take 4 ≠ wasmMagic) :=
          not_or.mpr ⟨long, fun other => preamble (Or.inl other)⟩
        have short : (blob.drop 8).length ≤ blob.length := by simp
        rw [extractABIVer, extractCustomSection, customSection, if_neg custom,
          findSection_value _ _ short, abiPayloads, head?_filterMap]
  rw [versions.1, versions.2]
  constructor
  · intro same byte found
    rw [same] at found
    obtain ⟨payload, first, starts⟩ := Option.bind_eq_some_iff.mp found
    obtain ⟨rest, rfl⟩ := head?_eq_some_iff.mp starts
    exact ⟨rest, first⟩
  · intro starts
    cases found : ((abiPayloads blob).filterMap head?).getLast? with
    | none =>
      rw [getLast?_eq_none_iff, filterMap_eq_nil_iff] at found
      cases shape : abiPayloads blob with
      | nil => rfl
      | cons payload others =>
        exact (found payload (shape ▸ mem_cons_self)).symm
    | some byte =>
      obtain ⟨rest, first⟩ := starts byte found
      rw [first]
      rfl

end Decoding

def plainDecoders : Decoders Unit where
  start := ()
  decode _ _ _ := .ok ([], ())
  finish _ := .ok ()

def versioned (payloads : List Bytes) : Bytes :=
  [0x00, 0x61, 0x73, 0x6d, 1, 0, 0, 0] ++ payloads.flatMap fun payload =>
    0 :: UInt8.ofNat (8 + payload.length) :: 7 :: (abiVerName ++ payload)

theorem abi_version_agrees_of_one :
    decodeImpl plainDecoders true (versioned [[5]]) = .ok (extractABIVer (versioned [[5]])) := by
  have accepted : decodeImpl plainDecoders true (versioned [[5]]) = .ok (some 5) := by
    decide +kernel
  have walked : sections ((versioned [[5]]).drop 8) = [⟨0, [9], 7 :: (abiVerName ++ [5])⟩] := by
    rw [@sections_of_some [] ⟨0, [9], 7 :: (abiVerName ++ [5])⟩ _ (by decide +kernel),
      sections_of_none rfl]
  rw [accepted, (abi_version_agrees_iff accepted).mpr]
  unfold abiPayloads
  rw [walked]
  rintro byte ⟨⟩
  exact ⟨[], by decide +kernel⟩

/-- Of two versions the decoder records the second and the package manager reads the first. -/
theorem abi_versions_differ : decodeImpl plainDecoders true (versioned [[1], [2]]) = .ok (some 2) ∧
      extractABIVer (versioned [[1], [2]]) = some 1 := by
  decide +kernel

end KernelLane.Wasm
