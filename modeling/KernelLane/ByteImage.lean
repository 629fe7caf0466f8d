import KernelLane.Words

namespace KernelLane

open List

/-!
# Byte images

A storage device seen as one byte per address.  `readBytes` extracts a range
and `splice` overwrites one; the lemmas below say how the two commute, and
`cutAt` is the image whose bytes from some address on never reached storage.
Nothing here depends on what the bytes mean.
-/

/-- The content of a device, one byte per absolute address. -/
abbrev Image := Nat → UInt8

namespace Image

/-- The `count` bytes that start at an address. -/
def readBytes (image : Image) : Nat → Nat → Bytes
  | _, 0 => []
  | address, count + 1 => image address :: readBytes image (address + 1) count

/-- Overwrite the bytes from an address on. -/
def splice (image : Image) (address : Nat) (bytes : Bytes) : Image :=
  fun index =>
    if address ≤ index ∧ index < address + bytes.length then bytes.getD (index - address) 0
    else image index

/-- The image in which every byte from an address on is zero. -/
def cutAt (image : Image) (address : Nat) : Image :=
  fun index => if index < address then image index else 0

/-- Two images agree on every address below a bound. -/
def AgreeBelow (bound : Nat) (left right : Image) : Prop :=
  ∀ index, index < bound → left index = right index

variable (image : Image)

@[simp] theorem length_readBytes (address count : Nat) :
    (readBytes image address count).length = count := by
  induction count generalizing address with
  | zero => rfl
  | succ count hypothesis => simp [readBytes, hypothesis]

/-- The byte at one position of a range read. -/
theorem getElem?_readBytes (address count position : Nat) :
    (readBytes image address count)[position]? =
      if position < count then some (image (address + position)) else none := by
  induction count generalizing address position with
  | zero => simp [readBytes]
  | succ count hypothesis =>
    cases position with
    | zero => simp [readBytes]
    | succ position =>
      simp only [readBytes, List.getElem?_cons_succ, hypothesis]
      have shifted : address + 1 + position = address + (position + 1) := by omega
      simp [shifted]

variable {address : Nat} {bytes : Bytes} {count position : Nat} {patch : Bytes}

/-- A list is a range read exactly when it has those bytes. -/
theorem eq_readBytes_iff {image : Image} :
    readBytes image address bytes.length = bytes ↔ ∀ position, position < bytes.length →
      image (address + position) = bytes.getD position 0 := by
  constructor
  · intro same position inRange
    have entry := getElem?_readBytes image address bytes.length position
    rw [same] at entry
    simp only [inRange, ↓reduceIte] at entry
    simp [getD_eq_getElem?_getD, entry]
  · intro pointwise
    apply ext_getElem?
    intro position
    rw [getElem?_readBytes]
    by_cases inRange : position < bytes.length
    · simp only [inRange, ↓reduceIte, pointwise position inRange]
      simp [getD_eq_getElem?_getD, List.getElem?_eq_getElem inRange]
    · simp [inRange]

/-- Range reads concatenate. -/
theorem readBytes_add (address first second : Nat) :
    readBytes image address (first + second) = readBytes image address first ++
      readBytes image (address + first) second := by
  induction first generalizing address with
  | zero => simp [readBytes]
  | succ first hypothesis =>
    have shape : first + 1 + second = (first + second) + 1 := by omega
    have shifted : address + (first + 1) = address + 1 + first := by omega
    rw [shape]
    simp only [readBytes, hypothesis, cons_append, shifted]

/-- A slice of a range read is a range read. -/
theorem drop_take_readBytes {skip wanted : Nat} (inside : skip + wanted ≤ count) :
    ((readBytes image address count).drop skip).take wanted =
      readBytes image (address + skip) wanted := by
  obtain ⟨spare, rfl⟩ := Nat.exists_eq_add_of_le inside
  rw [Nat.add_assoc, readBytes_add, readBytes_add]
  simp

/-- Images that agree on a range give the same range read. -/
theorem readBytes_congr {left right : Image} (agree :
      ∀ index, address ≤ index → index < address + count → left index = right index) :
    readBytes left address count = readBytes right address count := by
  induction count generalizing address with
  | zero => rfl
  | succ count hypothesis =>
    have headSame : left address = right address := agree address (Nat.le_refl _) (by omega)
    have tailSame : readBytes left (address + 1) count = readBytes right (address + 1) count :=
      hypothesis (fun index low high => agree index (by omega) (by omega))
    simp only [readBytes, headSame, tailSame]

/-- Reading below the agreement bound gives the same bytes. -/
theorem AgreeBelow.readBytes {bound : Nat} {left right : Image}
    (agree : AgreeBelow bound left right) (inside : address + count ≤ bound) :
    left.readBytes address count = right.readBytes address count :=
  readBytes_congr (fun index _ high => agree index (by omega))

/-- The spliced bytes read back. -/
theorem readBytes_splice_self (address : Nat) (bytes : Bytes) :
    readBytes (splice image address bytes) address bytes.length = bytes := by
  rw [eq_readBytes_iff]
  intro position inRange
  have inside : address ≤ address + position ∧ address + position < address + bytes.length := by
    omega
  have offset : address + position - address = position := by omega
  simp [splice, inside, offset]

/-- A splice does not change a byte outside its range. -/
theorem splice_outside {index : Nat} (outside : index < address ∨ address + bytes.length ≤ index) :
    splice image address bytes index = image index := by
  have notInside : ¬ (address ≤ index ∧ index < address + bytes.length) := by omega
  simp [splice, notInside]

/-- Splicing nothing changes nothing. -/
@[simp] theorem splice_nil (address : Nat) : splice image address [] = image := by
  funext index
  exact splice_outside image (by simp; omega)

/-- Two adjacent splices are one splice of the concatenation. -/
theorem splice_splice_adjacent (address : Nat) (first second : Bytes) :
    splice (splice image address first) (address + first.length) second =
      splice image address (first ++ second) := by
  funext index
  simp only [splice, length_append]
  by_cases inSecond : address + first.length ≤ index ∧
    index < address + first.length + second.length
  · have inBoth : address ≤ index ∧ index < address + (first.length + second.length) := by omega
    have pastFirst : first.length ≤ index - address := by omega
    have offset : index - address - first.length = index - (address + first.length) := by omega
    simp [inSecond, inBoth, getD_eq_getElem?_getD, List.getElem?_append_right pastFirst, offset]
  · by_cases inFirst : address ≤ index ∧ index < address + first.length
    · have inBoth : address ≤ index ∧ index < address + (first.length + second.length) := by omega
      have insideFirst : index - address < first.length := by omega
      simp [inSecond, inFirst, inBoth, getD_eq_getElem?_getD, List.getElem?_append_left insideFirst]
    · have inNeither : ¬ (address ≤ index ∧ index < address + (first.length + second.length)) := by
        omega
      simp [inSecond, inFirst, inNeither]

/-- Overwrite the bytes of a list from a position on, inside its length. -/
def overlay (bytes : Bytes) (position : Nat) (patch : Bytes) : Bytes :=
  bytes.take position ++ patch ++ bytes.drop (position + patch.length)

@[simp] theorem length_overlay (fits : position + patch.length ≤ bytes.length) :
    (overlay bytes position patch).length = bytes.length := by
  simp only [overlay, length_append, length_take, length_drop]
  omega

/-- The bytes of a patched list, position by position. -/
theorem getD_overlay (fits : position + patch.length ≤ bytes.length) (index : Nat) :
    (overlay bytes position patch).getD index 0 =
      if position ≤ index ∧ index < position + patch.length then patch.getD (index - position) 0
      else bytes.getD index 0 := by
  have headLength : (bytes.take position).length = position := by simp; omega
  simp only [overlay, getD_eq_getElem?_getD]
  by_cases beforePatch : index < position
  · have notIn : ¬ (position ≤ index ∧ index < position + patch.length) := by omega
    rw [append_assoc, List.getElem?_append_left (by omega)]
    simp [notIn, beforePatch]
  by_cases inPatch : index < position + patch.length
  · have isIn : position ≤ index ∧ index < position + patch.length := by omega
    rw [append_assoc, List.getElem?_append_right (by omega),
      headLength, List.getElem?_append_left (by omega)]
    simp [isIn]
  · have notIn : ¬ (position ≤ index ∧ index < position + patch.length) := by omega
    have pastBoth : (bytes.take position ++ patch).length ≤ index := by simp; omega
    have restIndex : position + patch.length + (index - (bytes.take position ++ patch).length) =
        index := by
      simp only [length_append, headLength]
      omega
    rw [List.getElem?_append_right pastBoth, List.getElem?_drop, restIndex]
    simp [notIn]

/--
Reading a block, patching it and writing it back is a splice of the patch
alone: the read-modify-write of one sector touches no other byte.
-/
theorem splice_overlay_readBytes {block size : Nat} (fits : position + patch.length ≤ size) :
    splice image block (overlay (readBytes image block size) position patch) =
      splice image (block + position) patch := by
  have fitsRead : position + patch.length ≤ (readBytes image block size).length := by
    simpa using fits
  funext index
  by_cases inBlock : block ≤ index ∧ index < block + size
  · have inRead : (readBytes image block size).getD (index - block) 0 = image index := by
      have inside : index - block < size := by omega
      have address : block + (index - block) = index := by omega
      rw [getD_eq_getElem?_getD, getElem?_readBytes]
      simp [inside, address]
    simp only [splice, length_overlay fitsRead, length_readBytes, inBlock,
      and_self, ↓reduceIte, getD_overlay fitsRead, inRead]
    have sameOffset : index - block - position = index - (block + position) := by omega
    have sameRange : (position ≤ index - block ∧ index - block < position + patch.length) ↔
        (block + position ≤ index ∧ index < block + position + patch.length) := by
      omega
    simp only [sameRange, sameOffset]
  · rw [splice_outside image (by simp [length_overlay fitsRead]; omega),
      splice_outside image (by omega)]

end Image

/-! ## Words in an image -/

namespace Image

open Words Function

/-- The 64-bit word at an address. -/
def word64 (image : Image) (address : Nat) : Nat := getLE (image.readBytes address 8)

/-- Store a 64-bit word. -/
def setWord64 (image : Image) (address value : Nat) : Image := image.splice address (putLE 8 value)

variable {address value : Nat}

/-- The word depends on its eight bytes only. -/
theorem word64_congr {left right : Image} (agree :
      ∀ index, address ≤ index → index < address + 8 → left index = right index) :
    left.word64 address = right.word64 address := by
  unfold word64
  rw [readBytes_congr agree]

variable (image : Image)

theorem word64_lt (address : Nat) : image.word64 address < 2 ^ 64 := by
  have bound := getLE_lt (image.readBytes address 8)
  rw [length_readBytes] at bound
  exact bound

theorem word64_setWord64 (address : Nat) (small : value < 2 ^ 64) :
    (image.setWord64 address value).word64 address = value := by
  have same := readBytes_splice_self image address (putLE 8 value)
  rw [length_putLE] at same
  unfold word64 setWord64
  rw [same]
  exact (getLE_putLE 8 value).trans (Nat.mod_eq_of_lt small)

theorem setWord64_outside {index : Nat} (outside : index < address ∨ address + 8 ≤ index) :
    image.setWord64 address value index = image index :=
  splice_outside image (by rwa [length_putLE])

/-- A word is not affected by a word stored elsewhere. -/
theorem word64_setWord64_of_apart {other : Nat}
    (apart : other + 8 ≤ address ∨ address + 8 ≤ other) :
    (image.setWord64 address value).word64 other = image.word64 other :=
  word64_congr fun _ low high => setWord64_outside image (by omega)

/-- Storing the word that is there changes nothing. -/
theorem setWord64_self {image : Image} (there : image.word64 address = value) :
    image.setWord64 address value = image := by
  have bytes : image.readBytes address (putLE 8 value).length = putLE 8 value := by
    have same := putLE_getLE (image.readBytes address 8)
    rw [length_readBytes] at same
    rw [length_putLE, ← there]
    exact same.symm
  funext index
  by_cases outside : index < address ∨ address + 8 ≤ index
  · exact setWord64_outside image outside
  have inside : address ≤ index ∧ index < address + (putLE 8 value).length := by
    rw [length_putLE]
    omega
  have position := eq_readBytes_iff.mp bytes (index - address) (by omega)
  rw [setWord64, splice, if_pos inside, ← position, Nat.add_sub_cancel' inside.1]

/-- Clear a range, byte by byte. -/
def zeroBytes (image : Image) (start : Nat) : Nat → Image
  | 0 => image
  | count + 1 => update (zeroBytes image start count) (start + count) 0

/-- Copy a range to another, byte by byte. -/
def copyBytes (image : Image) (target source : Nat) : Nat → Image
  | 0 => image
  | count + 1 =>
    update (copyBytes image target source count) (target + count)
      (copyBytes image target source count (source + count))

theorem zeroBytes_apply (start count index : Nat) : image.zeroBytes start count index =
      if start ≤ index ∧ index < start + count then 0 else image index := by
  induction count with
  | zero => simp [zeroBytes]
  | succ count hypothesis =>
    rw [zeroBytes, update_apply, hypothesis]
    by_cases last : index = start + count
    · rw [if_pos last, if_pos (by omega)]
    · rw [if_neg last]
      exact if_congr (by omega) rfl rfl

/-- A copy between ranges that are apart moves the bytes and nothing else. -/
theorem copyBytes_apply {target source count : Nat}
    (apart : target + count ≤ source ∨ source + count ≤ target) (index : Nat) :
    image.copyBytes target source count index =
      if target ≤ index ∧ index < target + count then image (source + (index - target))
      else image index := by
  induction count generalizing index with
  | zero => simp [copyBytes]
  | succ count hypothesis =>
    have earlier := hypothesis (by omega)
    rw [copyBytes, update_apply, earlier, earlier,
      if_neg (by omega : ¬(target ≤ source + count ∧ _))]
    by_cases last : index = target + count
    · rw [if_pos last, if_pos (by omega), last, Nat.add_sub_cancel_left]
    · rw [if_neg last]
      exact if_congr (by omega) rfl rfl

end Image

end KernelLane
