import KernelLane.Words

namespace KernelLane.Sections

open List

/-!
# Sections of a binary module

A binary module is eight bytes of preamble and then sections, each an
identifier, the size of its body as an unsigned LEB128 number, and the body.
Tools that only look for custom sections walk this sequence until they find
one, or until the bytes no longer hold a section.  This module has the walk,
and the list of sections that it amounts to.
-/

/--
Read an unsigned LEB128 number of at most `limit` bytes: its value and the
bytes behind it.
-/
def readLEB128 : Nat → Nat → Nat → Bytes → Option (Nat × Bytes)
  | 0, _, _, _ => none
  | _ + 1, _, _, [] => none
  | limit + 1, shift, result, byte :: rest =>
    if byte.toNat < 128 then some (result ||| (byte.toNat % 128) <<< shift, rest)
    else readLEB128 limit (shift + 7) (result ||| (byte.toNat % 128) <<< shift) rest

/-- A section as it stands in the file, its size field undecoded. -/
structure RawSection where
  id : UInt8
  sizeField : Bytes
  body : Bytes
  deriving Repr, DecidableEq

def RawSection.bytes (entry : RawSection) : Bytes := entry.id :: entry.sizeField ++ entry.body

def nextSection : Bytes → Option (RawSection × Bytes)
  | [] => none
  | id :: rest =>
    match readLEB128 5 0 0 rest with
    | none => none
    | some (size, behind) =>
      if behind.length < size then none
      else some (⟨id, rest.take (rest.length - behind.length), behind.take size⟩, behind.drop size)

def RawSection.hit (probe : Bytes → Option β) (entry : RawSection) : Option β :=
  if entry.id = 0 then probe entry.body else none

/-- A section that a walk has found: its place, its size and its value. -/
structure Found (β : Type) where
  offset : Nat
  size : Nat
  value : β
  deriving Repr, DecidableEq

/--
Walk the sections up to the first one that the probe takes.  The fuel is the
number of bytes, as every section takes two or more.
-/
def findSection (probe : Bytes → Option β) : Nat → Nat → Bytes → Option (Found β)
  | 0, _, _ => none
  | fuel + 1, start, bytes =>
    match nextSection bytes with
    | none => none
    | some (entry, later) =>
      match entry.hit probe with
      | some value => some ⟨start, entry.bytes.length, value⟩
      | none => findSection probe fuel (start + entry.bytes.length) later

/-! ## A section reads the same before any bytes -/

/-- A number is read off the bytes it takes, whatever follows them. -/
theorem readLEB128_reads {limit shift result : Nat} {bytes behind : Bytes} {value : Nat}
    (read : readLEB128 limit shift result bytes = some (value, behind)) :
    ∃ field, field.length ≤ limit ∧ bytes = field ++ behind ∧ ∀ other,
      readLEB128 limit shift result (field ++ other) = some (value, other) := by
  induction limit generalizing shift result bytes with
  | zero => simp [readLEB128] at read
  | succ limit hypothesis =>
    cases bytes with
    | nil => simp [readLEB128] at read
    | cons byte rest =>
      rw [readLEB128] at read
      split at read
      next final =>
        simp only [Option.some.injEq, Prod.mk.injEq] at read
        obtain ⟨rfl, rfl⟩ := read
        refine ⟨[byte], by simp, rfl, fun other => ?_⟩
        simp [readLEB128, final]
      next more =>
        obtain ⟨field, short, whole, reads⟩ := hypothesis read
        refine ⟨byte :: field, Nat.succ_le_succ short, by rw [whole]; rfl, fun other => ?_⟩
        rw [cons_append, readLEB128, if_neg more, reads]

/-- A section that is read as itself in front of any bytes. -/
def RawSection.Reads (entry : RawSection) : Prop :=
  ∀ other, nextSection (entry.bytes ++ other) = some (entry, other)

variable {later : Bytes} {entry : RawSection} {fuel : Nat}

theorem nextSection_reads {bytes : Bytes} (next : nextSection bytes = some (entry, later)) :
    bytes = entry.bytes ++ later ∧ entry.Reads := by
  cases bytes with
  | nil => simp [nextSection] at next
  | cons id rest =>
    rw [nextSection] at next
    split at next
    · cases next
    next size behind read =>
      split at next
      · cases next
      next fits =>
        simp only [Option.some.injEq, Prod.mk.injEq] at next
        obtain ⟨rfl, rfl⟩ := next
        obtain ⟨field, _, rfl, reads⟩ := readLEB128_reads read
        have fieldBack : (field ++ behind).take ((field ++ behind).length - behind.length) =
            field := by
          simp
        rw [fieldBack]
        constructor
        · simp [RawSection.bytes]
        · intro other
          have bodyLength : (behind.take size).length = size := by
            rw [length_take]
            omega
          have long : ¬(behind.take size ++ other).length < size := by
            rw [length_append, bodyLength]
            omega
          have bodyBack : (behind.take size ++ other).take size = behind.take size := by
            rw [take_append_of_le_length bodyLength.ge, take_of_length_le bodyLength.le]
          have otherBack : (behind.take size ++ other).drop size = other := drop_left' bodyLength
          have fieldAgain : (field ++ (behind.take size ++ other)).take
                ((field ++ (behind.take size ++ other)).length -
                  (behind.take size ++ other).length) =
              field := by
            simp
          simp only [RawSection.bytes, cons_append, append_assoc, nextSection, reads]
          rw [if_neg long, bodyBack, otherBack, fieldAgain]

theorem nextSection_shorter {bytes : Bytes} (next : nextSection bytes = some (entry, later)) :
    later.length < bytes.length := by
  obtain ⟨whole, _⟩ := nextSection_reads next
  have positive : 0 < entry.bytes.length := by simp [RawSection.bytes]
  rw [whole, length_append]
  omega

/-! ## The list of sections -/

def sections (bytes : Bytes) : List RawSection :=
  match nextSection bytes with
  | none => []
  | some (entry, later) =>
    if later.length < bytes.length then entry :: sections later
    else []
termination_by bytes.length

theorem sections_of_none {bytes : Bytes} (stops : nextSection bytes = none) :
    sections bytes = [] := by
  rw [sections, stops]

theorem sections_of_some {bytes : Bytes} (next : nextSection bytes = some (entry, later)) :
    sections bytes = entry :: sections later := by
  rw [sections, next]
  exact if_pos (nextSection_shorter next)

/-- Sections in front of any bytes are the first sections of the whole. -/
theorem sections_append {front : List RawSection} (reads : ∀ entry ∈ front, entry.Reads)
    (bytes : Bytes) :
    sections (front.flatMap RawSection.bytes ++ bytes) = front ++ sections bytes := by
  induction front with
  | nil => rfl
  | cons entry rest hypothesis =>
    rw [flatMap_cons, append_assoc, sections_of_some (reads entry mem_cons_self _),
      hypothesis fun other member => reads other (mem_cons_of_mem entry member), cons_append]

/-- A walk gives the first value that the probe has for a section. -/
theorem findSection_value (probe : Bytes → Option β) (start : Nat) {bytes : Bytes}
    (enough : bytes.length ≤ fuel) : (findSection probe fuel start bytes).map Found.value =
      (sections bytes).findSome? (RawSection.hit probe) := by
  induction fuel generalizing start bytes with
  | zero =>
    have empty : bytes = [] := length_eq_zero_iff.mp (by omega)
    subst empty
    rw [sections_of_none rfl]
    rfl
  | succ fuel hypothesis =>
    rw [findSection]
    cases next : nextSection bytes with
    | none => rw [sections_of_none next]; rfl
    | some step =>
      obtain ⟨entry, later⟩ := step
      have shorter := nextSection_shorter next
      rw [sections_of_some next, findSome?_cons]
      cases taken : entry.hit probe with
      | some value => simp only [taken, Option.map_some]
      | none =>
        have laterEnough : later.length ≤ fuel := by omega
        simp only [taken]
        exact hypothesis _ laterEnough

/-- Where a walk ends: the sections before, the one found, and the rest. -/
structure Walked (probe : Bytes → Option β) (start : Nat) (bytes : Bytes) (found : Found β) where
  before : List RawSection
  here : RawSection
  rest : Bytes
  whole : bytes = before.flatMap RawSection.bytes ++ (here.bytes ++ rest)
  beforeReads : ∀ entry ∈ before, entry.Reads
  hereReads : here.Reads
  passed : ∀ entry ∈ before, entry.hit probe = none
  taken : here.hit probe = some found.value
  offset : found.offset = start + (before.flatMap RawSection.bytes).length
  size : found.size = here.bytes.length

theorem findSection_walked {probe : Bytes → Option β} {start : Nat} {bytes : Bytes}
    {found : Found β} (walk : findSection probe fuel start bytes = some found) :
    Nonempty (Walked probe start bytes found) := by
  induction fuel generalizing start bytes with
  | zero => cases walk
  | succ fuel hypothesis =>
    rw [findSection] at walk
    cases next : nextSection bytes with
    | none =>
      rw [next] at walk
      cases walk
    | some step =>
      obtain ⟨entry, later⟩ := step
      obtain ⟨whole, reads⟩ := nextSection_reads next
      rw [next] at walk
      cases taken : entry.hit probe with
      | some value =>
        simp only [taken, Option.some.injEq] at walk
        subst walk
        exact ⟨[], entry, later, whole, by simp, reads, by simp, taken, rfl, rfl⟩
      | none =>
        simp only [taken] at walk
        obtain ⟨walked⟩ := hypothesis walk
        refine ⟨entry :: walked.before, walked.here, walked.rest, ?_, ?_, walked.hereReads, ?_,
          walked.taken, ?_, walked.size⟩
        · rw [flatMap_cons, append_assoc, ← walked.whole]
          exact whole
        · exact forall_mem_cons.mpr ⟨reads, walked.beforeReads⟩
        · exact forall_mem_cons.mpr ⟨taken, walked.passed⟩
        · rw [walked.offset, flatMap_cons, length_append]
          omega

namespace Walked

variable {probe : Bytes → Option β} {start : Nat} {bytes : Bytes} {found : Found β}

/-- The sections of the bytes that were walked. -/
theorem sections_eq (walked : Walked probe start bytes found) : sections bytes =
    walked.before ++ walked.here :: sections walked.rest := by
  conv_lhs => rw [walked.whole]
  rw [sections_append walked.beforeReads, sections_of_some (walked.hereReads _)]

def remaining (walked : Walked probe start bytes found) : Bytes :=
  walked.before.flatMap RawSection.bytes ++ walked.rest

/-- A probe that passes the found section cannot tell that it is gone. -/
theorem findSome_remaining (walked : Walked probe start bytes found) {other : Bytes → Option γ}
    (passes : walked.here.hit other = none) :
    (sections walked.remaining).findSome? (RawSection.hit other) =
      (sections bytes).findSome? (RawSection.hit other) := by
  rw [Walked.remaining, sections_append walked.beforeReads, walked.sections_eq,
    findSome?_append, findSome?_append, findSome?_cons, passes]

end Walked

end KernelLane.Sections
