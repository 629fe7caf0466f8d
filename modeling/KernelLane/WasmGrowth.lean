import KernelLane.WasmMemory

namespace KernelLane.Wasm

/-!
# Growing and using a linear memory

A memory grows at the request of the guest, by pages, or of the kernel, up to
a number of bytes.  Growth stays in the buffer while there is room and moves
to a new one of the allocator otherwise.  The guest's loads, stores, copies
and fills check their range first; so does the initialisation of a segment.
-/

def exceedsPages : Option Nat → Nat → Prop
  | none, _ => False
  | some pages, size => pages * pageSize < size

instance : (maxPages : Option Nat) → (size : Nat) → Decidable (exceedsPages maxPages size)
  | none, _ => inferInstanceAs (Decidable False)
  | some pages, size => inferInstanceAs (Decidable (pages * pageSize < size))

def initialCapacity (minimum limit : Nat) : Nat :=
  let capacity := if minimum = 0 then pageSize else minimum
  if 1024 * 1024 < minimum then
    let reserve := minimum + minimum / 2
    let reserve := if reserve < 4 * 1024 * 1024 then 4 * 1024 * 1024 else reserve
    let reserve := if limit < reserve then limit else reserve
    if capacity < reserve then reserve else capacity
  else capacity

namespace LinearMemory

def absent (limit : Nat) : LinearMemory where
  present := false
  bytes := fun _ => 0
  size := 0
  capacity := 0
  limit := limit
  accesses := []

def fresh (minimum limit : Nat) : LinearMemory where
  present := true
  bytes := fun _ => 0
  size := minimum
  capacity := initialCapacity minimum limit
  limit := limit
  accesses := []

def extend (memory : LinearMemory) (size : Nat) : LinearMemory :=
  { memory with
    bytes := fun address =>
      if memory.size ≤ address ∧ address < size then 0
      else memory.bytes address
    size := size }

def move (memory : LinearMemory) (capacity size : Nat) : LinearMemory :=
  { memory with
    present := true
    bytes := memory.bytes.cutAt memory.size
    size := size
    capacity := capacity }

section Requests

variable {World : Type} (allocate : World → Nat → Bool × World)
variable (maxPages : Option Nat)

/-- Grow to at least a number of bytes, lifting the configured bound. -/
def ensureMemoryBytes (memory : LinearMemory) (minBytes : Nat)
    (world : World) : Bool × LinearMemory × World :=
  let want := alignUpU64 minBytes pageSize
  if want = 0 then (false, memory, world)
  else if want ≤ memory.size then (true, memory, world)
  else if exceedsPages maxPages want then (false, memory, world)
  else if uint64Max < want + ensureSlackBytes ∨ uint64Max - pageSize < want + ensureSlackBytes then
    (false, memory, world)
  else
    let capacity := alignUpU64 (want + ensureSlackBytes) pageSize
    if capacity = 0 then (false, memory, world)
    else
      let lifted := { memory with limit := max memory.limit capacity }
      if memory.capacity < want then
        match allocate world capacity with
        | (true, later) => (true, lifted.move capacity want, later)
        | (false, later) => (false, lifted, later)
      else (true, lifted.extend want, world)

/-- Grow by a number of pages. -/
def growMemory (memory : LinearMemory) (pages : Nat) (world : World) :
    Bool × LinearMemory × World :=
  let grown := memory.size + pages * pageSize
  if uint64Max < grown ∨ memory.limit < grown then (false, memory, world)
  else if exceedsPages maxPages grown then (false, memory, world)
  else if grown = memory.size then (true, memory, world)
  else if grown ≤ memory.capacity then (true, memory.extend grown, world)
  else
    match allocate world grown with
    | (true, later) => (true, memory.move grown grown, later)
    | (false, later) => (false, memory, later)

end Requests

/-! ## Accesses of the guest -/

def reaches (memory : LinearMemory) (address offset width : Nat) : Prop :=
  width ≠ 0 ∧ address + offset ≤ uint64Max ∧ memory.checkMemory (address + offset) width

instance (memory : LinearMemory) (address offset width : Nat) :
    Decidable (memory.reaches address offset width) :=
  inferInstanceAs (Decidable (_ ∧ _ ∧ _))

def load (memory : LinearMemory) (address offset width : Nat) : Option (Bytes × LinearMemory) :=
  if memory.reaches address offset width then
    some (memory.bytes.readBytes (address + offset) width, memory.touch (address + offset) width)
  else none

def store (memory : LinearMemory) (address offset width value : Nat) : Option LinearMemory :=
  if memory.reaches address offset width then
    some (memory.put (address + offset) (Words.putLE width value))
  else none

def copy (memory : LinearMemory) (destination source length : Nat) : Option LinearMemory :=
  if destination + length ≤ uint64Max ∧ source + length ≤ uint64Max ∧
      memory.checkMemory destination length ∧
      memory.checkMemory source length then
    some ((memory.touch source length).put destination (memory.bytes.readBytes source length))
  else none

def fill (memory : LinearMemory) (destination length : Nat) (byte : UInt8) : Option LinearMemory :=
  if destination + length ≤ uint64Max ∧ memory.checkMemory destination length then
    some (memory.put destination (List.replicate length byte))
  else none

def initSegment (memory : LinearMemory) (offset : Nat) (bytes : Bytes) : Option LinearMemory :=
  if memory.checkMemory offset bytes.length then some (memory.put offset bytes)
  else none

/-! ## What holds of a memory -/

/-- Whole pages, inside the buffer and inside the declared bound. -/
structure Sound (maxPages : Option Nat) (memory : LinearMemory) : Prop where
  pages : memory.size % pageSize = 0
  fits : memory.size ≤ memory.capacity
  declared : ∀ pages, maxPages = some pages → memory.size ≤ pages * pageSize

/-- The old bytes are kept and the new ones are zero. -/
structure Grown (before after : LinearMemory) : Prop where
  larger : before.size ≤ after.size
  kept : ∀ address, address < before.size → after.bytes address = before.bytes address
  zero : ∀ address, before.size ≤ address → address < after.size → after.bytes address = 0

theorem Grown.of_same {before after : LinearMemory} (sameSize : after.size = before.size)
    (sameBytes : after.bytes = before.bytes) : Grown before after := by
  refine ⟨sameSize.ge, fun address _ => by rw [sameBytes], ?_⟩
  intro address behind inside
  rw [sameSize] at inside
  exact absurd inside (not_lt.mpr behind)

variable {size : Nat}

theorem grown_extend (memory : LinearMemory) (larger : memory.size ≤ size) :
    Grown memory (memory.extend size) := by
  refine ⟨larger, ?_, ?_⟩
  · intro address inside
    have notNew : ¬ (memory.size ≤ address ∧ address < size) := by omega
    simp only [extend, if_neg notNew]
  · intro address behind inside
    have new : memory.size ≤ address ∧ address < size := ⟨behind, inside⟩
    simp only [extend, if_pos new]

theorem grown_move (memory : LinearMemory) (capacity : Nat) (larger : memory.size ≤ size) :
    Grown memory (memory.move capacity size) := by
  refine ⟨larger, ?_, ?_⟩
  · intro address inside
    simp only [move, Image.cutAt, if_pos inside]
  · intro address behind _
    simp only [move, Image.cutAt, if_neg (not_lt.mpr behind)]

theorem le_of_not_exceeds {maxPages : Option Nat} (allowed : ¬ exceedsPages maxPages size)
    (pages : Nat) (declared : maxPages = some pages) : size ≤ pages * pageSize := by
  subst declared
  exact not_lt.mp allowed

theorem alignUpU64_page (value : Nat) (rounded : alignUpU64 value pageSize ≠ 0) :
    alignUpU64 value pageSize % pageSize = 0 ∧ value ≤ alignUpU64 value pageSize := by
  unfold alignUpU64 at rounded ⊢
  split at rounded
  · exact absurd rfl rounded
  rename_i small
  rw [if_neg small]
  refine ⟨Nat.mul_mod_left _ _, ?_⟩
  have division := Nat.div_add_mod (value + (pageSize - 1)) pageSize
  have remainder := Nat.mod_lt (value + (pageSize - 1)) (show 0 < pageSize by decide)
  rw [Nat.mul_comm] at division
  omega

section Growth

variable {World : Type} {allocate : World → Nat → Bool × World}
variable {maxPages : Option Nat} {memory : LinearMemory}

/--
The outcomes of a request of the kernel: the memory is as it was but for a
higher bound, or it grew to a larger number of whole pages.
-/
theorem ensureMemoryBytes_cases {minBytes : Nat} {world : World} {after : LinearMemory} (requested :
      (memory.ensureMemoryBytes allocate maxPages minBytes world).2.1 = after) :
    (∃ limit, after = { memory with limit := limit }) ∨ ∃ size capacity limit,
      memory.size < size ∧ size % pageSize = 0 ∧ ¬ exceedsPages maxPages size ∧ size ≤ capacity ∧
        (after = { memory with limit := limit }.move capacity size ∨ size ≤ memory.capacity ∧
          after = { memory with limit := limit }.extend size) := by
  have same : ∃ limit, memory = { memory with limit := limit } := ⟨memory.limit, rfl⟩
  subst requested
  unfold ensureMemoryBytes
  by_cases none : alignUpU64 minBytes pageSize = 0
  · simp only [if_pos none]
    exact .inl same
  by_cases enough : alignUpU64 minBytes pageSize ≤ memory.size
  · simp only [if_neg none, if_pos enough]
    exact .inl same
  by_cases exceeds : exceedsPages maxPages (alignUpU64 minBytes pageSize)
  · simp only [if_neg none, if_neg enough, if_pos exceeds]
    exact .inl same
  simp only [if_neg none, if_neg enough, if_neg exceeds]
  split
  · exact .inl same
  split
  · exact .inl same
  rename_i slack
  have rounded := alignUpU64_page minBytes none
  have buffer := alignUpU64_page _ slack
  have larger : memory.size < alignUpU64 minBytes pageSize := not_le.mp enough
  have holds : alignUpU64 minBytes pageSize ≤
      alignUpU64 (alignUpU64 minBytes pageSize + ensureSlackBytes) pageSize :=
    le_trans (Nat.le_add_right _ _) buffer.2
  split
  · split
    · exact .inr ⟨_, _, _, larger, rounded.1, exceeds, holds, .inl rfl⟩
    · exact .inl ⟨_, rfl⟩
  · rename_i room
    exact .inr ⟨_, _, _, larger, rounded.1, exceeds, holds, .inr ⟨not_lt.mp room, rfl⟩⟩

theorem growMemory_cases {pages : Nat} {world : World} {after : LinearMemory} (requested :
      (memory.growMemory allocate maxPages pages world).2.1 = after) :
    after = memory ∨ ¬ exceedsPages maxPages (memory.size + pages * pageSize) ∧ (after =
        memory.move (memory.size + pages * pageSize) (memory.size + pages * pageSize) ∨
      memory.size + pages * pageSize ≤ memory.capacity ∧
        after = memory.extend (memory.size + pages * pageSize)) := by
  subst requested
  unfold growMemory
  dsimp only
  split
  · exact .inl rfl
  split
  · exact .inl rfl
  rename_i allowed
  split
  · exact .inl rfl
  split
  · rename_i room
    exact .inr ⟨allowed, .inr ⟨room, rfl⟩⟩
  split
  · exact .inr ⟨allowed, .inl rfl⟩
  · exact .inl rfl

variable (memory)

/-- A request of the kernel keeps the old bytes and clears the new ones. -/
theorem grown_ensureMemoryBytes (minBytes : Nat) (world : World) : Grown memory
    (memory.ensureMemoryBytes allocate maxPages minBytes world).2.1 := by
  generalize requested : (memory.ensureMemoryBytes allocate maxPages minBytes world).2.1 = after
  rcases ensureMemoryBytes_cases requested with
    ⟨limit, same⟩ | ⟨size, capacity, limit, larger, _, _, _, moved | grew⟩
  · rw [same]
    exact .of_same rfl rfl
  · have grown := grown_move { memory with limit := limit } capacity larger.le
    rw [moved]
    exact ⟨grown.larger, grown.kept, grown.zero⟩
  · have grown := grown_extend { memory with limit := limit } larger.le
    rw [grew.2]
    exact ⟨grown.larger, grown.kept, grown.zero⟩

theorem grown_growMemory (pages : Nat) (world : World) : Grown memory
    (memory.growMemory allocate maxPages pages world).2.1 := by
  generalize requested : (memory.growMemory allocate maxPages pages world).2.1 = after
  rcases growMemory_cases requested with same | ⟨_, moved | ⟨_, grew⟩⟩
  · rw [same]
    exact .of_same rfl rfl
  · rw [moved]
    exact grown_move memory _ (Nat.le_add_right _ _)
  · rw [grew]
    exact grown_extend memory (Nat.le_add_right _ _)

variable {memory}

theorem Sound.ensureMemoryBytes (sound : Sound maxPages memory) (minBytes : Nat) (world : World) :
    Sound maxPages (memory.ensureMemoryBytes allocate maxPages minBytes world).2.1 := by
  generalize requested : (memory.ensureMemoryBytes allocate maxPages minBytes world).2.1 = after
  rcases ensureMemoryBytes_cases requested with
    ⟨limit, same⟩ |
      ⟨size, capacity, limit, _, whole, allowed, holds, moved | ⟨room, grew⟩⟩
  · rw [same]
    exact ⟨sound.pages, sound.fits, sound.declared⟩
  · rw [moved]
    exact ⟨whole, holds, le_of_not_exceeds allowed⟩
  · rw [grew]
    exact ⟨whole, room, le_of_not_exceeds allowed⟩

theorem Sound.growMemory (sound : Sound maxPages memory) (pages : Nat) (world : World) :
    Sound maxPages (memory.growMemory allocate maxPages pages world).2.1 := by
  have whole : (memory.size + pages * pageSize) % pageSize = 0 := by
    rw [Nat.add_mul_mod_self_right]
    exact sound.pages
  generalize requested : (memory.growMemory allocate maxPages pages world).2.1 = after
  rcases growMemory_cases requested with
    same | ⟨allowed, moved | ⟨room, grew⟩⟩
  · rw [same]
    exact sound
  · rw [moved]
    exact ⟨whole, le_refl _, le_of_not_exceeds allowed⟩
  · rw [grew]
    exact ⟨whole, room, le_of_not_exceeds allowed⟩

theorem accesses_ensureMemoryBytes (minBytes : Nat) (world : World) :
    (memory.ensureMemoryBytes allocate maxPages minBytes world).2.1.accesses = memory.accesses := by
  generalize requested : (memory.ensureMemoryBytes allocate maxPages minBytes world).2.1 = after
  rcases ensureMemoryBytes_cases requested with
    ⟨limit, same⟩ | ⟨size, capacity, limit, _, _, _, _, moved | grew⟩
  · rw [same]
  · rw [moved]
    rfl
  · rw [grew.2]
    rfl

theorem accesses_growMemory (pages : Nat) (world : World) :
    (memory.growMemory allocate maxPages pages world).2.1.accesses = memory.accesses := by
  generalize requested : (memory.growMemory allocate maxPages pages world).2.1 = after
  rcases growMemory_cases requested with same | ⟨_, moved | ⟨_, grew⟩⟩
  · rw [same]
  · rw [moved]
    rfl
  · rw [grew]
    rfl

end Growth

end LinearMemory

end KernelLane.Wasm
