import KernelLane.WasiBridge

namespace KernelLane.Wasi

open Wasm Words List LinearMemory

/-!
# Memory safety of the WASI imports

Every import checks the ranges that it is about to touch.  Two of them check
less than they touch: the sizes of the arguments are stored as two words, but
the ranges that are checked are those of the arguments themselves, and a read
looks at the first buffer of a table that may have none.
-/

section Loops

variable {Host : Type} (context : OwnedWasiContext Host)

theorem memoryRange_le {memory : LinearMemory} {address size : Nat}
    (range : memoryRange memory address size) : address + size ≤ memory.size := by
  have inside := range.2
  unfold checkMemory at inside
  omega

def textBytes : Nat → Nat → Nat
  | 0, _ => 0
  | remaining + 1, index =>
    ((context.text index).getD []).length + 1 + textBytes remaining (index + 1)

variable {remaining : Nat} {guest : Guest Host}

theorem argsSizeFrom_spec {count size : Nat}
    (counted : (argsSizeFrom context remaining count size).1 ≠ uint32Max) :
    ∃ more, argsSizeFrom context remaining count size =
      (count + more, size + textBytes context more count) := by
  induction remaining generalizing count size with
  | zero => exact ⟨0, rfl⟩
  | succ remaining hypothesis =>
    rw [argsSizeFrom] at counted ⊢
    cases found : context.text count with
    | none => exact ⟨0, rfl⟩
    | some text =>
      simp only [found] at counted ⊢
      split at counted
      · exact absurd rfl counted
      next short =>
        split at counted
        · exact absurd rfl counted
        next room =>
          obtain ⟨more, shape⟩ := hypothesis counted
          refine ⟨more + 1, ?_⟩
          rw [if_neg short, if_neg room, shape, textBytes, found]
          simp only [Option.getD_some, Prod.mk.injEq]
          omega

theorem storeArgs_confined {pointers buffer index offset : Nat} (confined : guest.memory.Confined)
    (pointed : pointers + (index + remaining) * 4 ≤ guest.memory.size)
    (stored : buffer + offset + textBytes context remaining index ≤ guest.memory.size) :
    (storeArgs context pointers buffer remaining index offset guest).memory.Confined := by
  induction remaining generalizing index offset guest with
  | zero => exact confined
  | succ remaining hypothesis =>
    rw [textBytes] at stored
    refine hypothesis ?_ ?_ ?_
    · simp only [Guest.put, confined_put, put_size, length_putLE, length_append, length_singleton]
      exact ⟨⟨confined, by omega⟩, by omega⟩
    · simp only [Guest.put, put_size]
      omega
    · simp only [Guest.put, put_size]
      omega

theorem readVector_confined (guest : Guest Host) (vector : Nat) :
    (guest.readVector vector).memory.Confined ↔
      guest.memory.Confined ∧ vector + 8 ≤ guest.memory.size := by
  simp only [Guest.readVector, Guest.touch, confined_touch, touch_size]
  constructor
  · rintro ⟨⟨confined, -⟩, second⟩
    exact ⟨confined, by omega⟩
  · rintro ⟨confined, inside⟩
    exact ⟨⟨confined, by omega⟩, by omega⟩

theorem writeVectors_confined {write : Int32 → Bytes → Host → UInt32 × Host} {fd : Int32}
    {written vector total : Nat} (confined : guest.memory.Confined)
    (counted : written + 4 ≤ guest.memory.size)
    (listed : vector + remaining * 8 ≤ guest.memory.size) :
    (writeVectors write fd written remaining vector total guest).2.memory.Confined := by
  induction remaining generalizing vector total guest with
  | zero =>
    simp only [writeVectors, Guest.put, confined_put]
    exact ⟨confined, Or.inr counted⟩
  | succ remaining hypothesis =>
    have entry : (guest.readVector vector).memory.Confined :=
      (readVector_confined guest vector).mpr ⟨confined, by omega⟩
    rw [writeVectors]
    dsimp only
    split
    · exact entry
    next range =>
      have buffer := memoryRange_le (not_not.mp range)
      have touched : ((guest.readVector vector).touch (wordAt guest.memory vector)
          (wordAt guest.memory (vector + 4))).memory.Confined := by
        simp only [Guest.touch, confined_touch]
        exact ⟨entry, Or.inr buffer⟩
      split
      · exact touched
      split
      · exact touched
      refine hypothesis touched counted ?_
      change vector + 8 + remaining * 8 ≤ guest.memory.size
      omega

theorem storeRandom_confined {random : Host → UInt32 × Host} {address index : Nat}
    (confined : guest.memory.Confined) (inside : address + index + remaining ≤ guest.memory.size) :
    (storeRandom random address remaining index guest).memory.Confined := by
  induction remaining generalizing index guest with
  | zero => exact confined
  | succ remaining hypothesis =>
    refine hypothesis ?_ ?_
    · simp only [Guest.put, confined_put, length_singleton]
      exact ⟨confined, by omega⟩
    · simp only [Guest.put, put_size]
      omega

theorem fetchRoutedPath_confined (address : Nat) (length : UInt32)
    (confined : guest.memory.Confined) : (fetchRoutedPath address length guest).2.memory.Confined ∧
      (fetchRoutedPath address length guest).2.memory.size = guest.memory.size := by
  unfold fetchRoutedPath
  split
  · exact ⟨confined, rfl⟩
  split
  · exact ⟨confined, rfl⟩
  next range =>
    have inside := memoryRange_le (not_not.mp range)
    have ended : (guest.touch (address + length.toNat) 1).memory.Confined := by
      simp only [Guest.touch, confined_touch]
      exact ⟨confined, by omega⟩
    split
    · exact ⟨ended, rfl⟩
    refine ⟨?_, rfl⟩
    simp only [Guest.touch, confined_touch] at ended ⊢
    exact ⟨ended, Or.inr (by simp only [touch_size]; omega)⟩

end Loops

/-! ## The imports -/

section Imports

variable {Host : Type} {context : OwnedWasiContext Host} {args : Values} {resultCount : Nat}
  {guest : Guest Host}

section

variable (confined : guest.memory.Confined)
include confined

theorem argsGet_confined : (argsGet context args resultCount guest).2.memory.Confined := by
  unfold argsGet
  split
  · exact confined
  split
  · exact confined
  next ranges =>
    obtain ⟨counted, pointers, buffer⟩ := not_not.mp ranges
    obtain ⟨count, shape⟩ := argsSizeFrom_spec context counted
    have size : argsSize context = (0 + count, 0 + _) := shape
    have pointed := memoryRange_le pointers
    have stored := memoryRange_le buffer
    rw [size] at pointed stored ⊢
    refine storeArgs_confined context confined ?_ ?_
    · simpa using pointed
    · simpa using stored

theorem fdWrite_confined : (fdWrite context args resultCount guest).2.memory.Confined := by
  unfold fdWrite
  split
  · exact confined
  split
  · exact confined
  split
  · exact confined
  next ranges =>
    obtain ⟨table, count⟩ := not_not.mp ranges
    exact writeVectors_confined confined (memoryRange_le count) (memoryRange_le table)

theorem randomGet_confined : (randomGet context args resultCount guest).2.memory.Confined := by
  unfold randomGet
  split
  · exact confined
  split
  · exact confined
  split
  · exact confined
  next range => exact storeRandom_confined confined (memoryRange_le (not_not.mp range))

theorem pathOpen_confined : (pathOpen context args resultCount guest).2.memory.Confined := by
  unfold pathOpen
  split
  · exact confined
  split
  · exact confined
  next range =>
    have opened := memoryRange_le (not_not.mp range)
    have fetched := fetchRoutedPath_confined (args.word 2) (args 3).toUInt32 confined
    generalize fetchRoutedPath (args.word 2) (args 3).toUInt32 guest = path at fetched ⊢
    obtain ⟨path, reached⟩ := path
    cases path with
    | none => exact fetched.1
    | some path =>
      dsimp only
      split
      · exact fetched.1
      split
      · exact fetched.1
      · simp only [Guest.put, confined_put]
        exact ⟨fetched.1, Or.inr (by rw [fetched.2]; exact opened)⟩

theorem pathCreateDirectory_confined :
    (pathCreateDirectory context args resultCount guest).2.memory.Confined := by
  unfold pathCreateDirectory
  split
  · exact confined
  have fetched := fetchRoutedPath_confined (args.word 1) (args 2).toUInt32 confined
  generalize fetchRoutedPath (args.word 1) (args 2).toUInt32 guest = path at fetched ⊢
  obtain ⟨path, reached⟩ := path
  cases path with
  | none => exact fetched.1
  | some path =>
    dsimp only
    split
    · exact fetched.1
    · exact fetched.1

theorem clockTimeGet_confined :
    (clockTimeGet context args resultCount guest).2.memory.Confined := by
  unfold clockTimeGet
  split
  · exact confined
  split
  · exact confined
  split
  · exact confined
  split
  · exact confined
  next range =>
    simp only [Guest.put, confined_put]
    exact ⟨confined, Or.inr (memoryRange_le (not_not.mp range))⟩

theorem environSizesGet_confined : (environSizesGet args resultCount guest).2.memory.Confined := by
  unfold environSizesGet
  split
  · exact confined
  split
  · exact confined
  next ranges =>
    rw [not_or, not_not, not_not] at ranges
    simp only [Guest.put, confined_put]
    exact ⟨⟨confined, Or.inr (memoryRange_le ranges.1)⟩, Or.inr (memoryRange_le ranges.2)⟩

theorem pollOneoff_confined : (pollOneoff args resultCount guest).2.memory.Confined := by
  unfold pollOneoff
  split
  · exact confined
  split
  · exact confined
  next range =>
    simp only [Guest.put, confined_put]
    exact ⟨confined, Or.inr (memoryRange_le (not_not.mp range))⟩

theorem fdFdstatGet_confined : (fdFdstatGet args resultCount guest).2.memory.Confined := by
  unfold fdFdstatGet
  split
  · exact confined
  split
  · exact confined
  next range =>
    have inside := memoryRange_le (not_not.mp range)
    dsimp only
    split
    · simp only [Guest.put, confined_put, put_size, length_putLE, length_replicate,
        length_singleton]
      exact ⟨⟨⟨⟨confined, by omega⟩, by omega⟩, by omega⟩, by omega⟩
    · split
      · simp only [Guest.put, confined_put, put_size, length_putLE, length_replicate,
          length_singleton]
        exact ⟨⟨⟨⟨confined, by omega⟩, by omega⟩, by omega⟩, by omega⟩
      · simp only [Guest.put, confined_put, put_size, length_putLE, length_replicate]
        exact ⟨⟨⟨confined, by omega⟩, by omega⟩, by omega⟩

theorem fdPrestatGet_confined : (fdPrestatGet args resultCount guest).2.memory.Confined := by
  unfold fdPrestatGet
  split
  · exact confined
  split
  · exact confined
  split
  · exact confined
  next range =>
    have inside := memoryRange_le (not_not.mp range)
    simp only [Guest.put, confined_put, put_size, length_replicate, length_singleton]
    exact ⟨⟨⟨confined, by omega⟩, by omega⟩, by omega⟩

theorem fdPrestatDirName_confined :
    (fdPrestatDirName args resultCount guest).2.memory.Confined := by
  unfold fdPrestatDirName
  split
  · exact confined
  split
  · exact confined
  split
  · exact confined
  split
  · exact confined
  next range =>
    simp only [Guest.put, confined_put]
    exact ⟨confined, Or.inr (memoryRange_le (not_not.mp range))⟩

end

theorem quiet_confined {ended : ImportStatus × Guest Host} (same : ended.2.memory = guest.memory)
    (confined : guest.memory.Confined) : ended.2.memory.Confined := by
  rw [same]
  exact confined

theorem schedYield_memory (args : Values) :
    (schedYield context args resultCount guest).2.memory = guest.memory := by
  unfold schedYield
  split
  · rfl
  · split <;> rfl

theorem procExit_memory : (procExit context args resultCount guest).2.memory = guest.memory := by
  unfold procExit
  split
  · rfl
  · split <;> rfl

theorem fdClose_memory : (fdClose context args resultCount guest).2.memory = guest.memory := by
  unfold fdClose
  split
  · rfl
  split
  · rfl
  · split <;> rfl

theorem succeed_memory (args : Values) :
    (succeed args resultCount guest).2.memory = guest.memory := by
  unfold succeed
  split <;> rfl

theorem genericStub_memory (args : Values) :
    (genericStub args resultCount guest).2.memory = guest.memory := by
  unfold genericStub
  split <;> rfl

/-! ## The two imports that check less than they touch -/

/-- The two words of the sizes lie in the memory. -/
def SizesCovered (context : OwnedWasiContext Host) (args : Values) (resultCount : Nat)
    (memory : LinearMemory) : Prop :=
  resultCount = 1 → argsInRange context memory args →
    memoryRange memory (args.word 0) 4 ∧ memoryRange memory (args.word 1) 4

/-- The first entry of the table lies in the memory. -/
def EntryCovered (context : OwnedWasiContext Host) (args : Values) (resultCount : Nat)
    (memory : LinearMemory) : Prop :=
  resultCount = 1 → ¬args.signed 0 < 3 → vectorsInRange memory args →
    context.readFd.isSome = true → memoryRange memory (args.word 1) 8

theorem argsSizesGet_confined_iff (confined : guest.memory.Confined) :
    (argsSizesGet context args resultCount guest).2.memory.Confined ↔
      SizesCovered context args resultCount guest.memory := by
  unfold argsSizesGet SizesCovered
  split
  next other => exact ⟨fun _ one => absurd one other, fun _ => confined⟩
  next one =>
    split
    next outside => exact ⟨fun _ _ inside => absurd inside outside, fun _ => confined⟩
    next ranges =>
      obtain ⟨counted, pointers, buffer⟩ := not_not.mp ranges
      simp only [Guest.put, confined_put, put_size, length_putLE]
      constructor
      · rintro ⟨⟨-, first⟩, second⟩ - -
        exact ⟨⟨pointers.1, pointers.2.1, by omega⟩, ⟨buffer.1, buffer.2.1, by omega⟩⟩
      · intro covered
        have words := covered (not_not.mp one) (not_not.mp ranges)
        exact ⟨⟨confined, Or.inr (memoryRange_le words.1)⟩, Or.inr (memoryRange_le words.2)⟩

/-- Filling a buffer that lies in the memory adds only inside accesses. -/
theorem filled_confined {read : Guest Host} {address length : Nat} (bytes : Bytes)
    (buffer : address + length ≤ read.memory.size) :
    ((read.touch address length).put address (bytes.take length)).memory.Confined ↔
      read.memory.Confined := by
  simp only [Guest.put, Guest.touch, confined_put, confined_touch, length_take, touch_size]
  constructor
  · rintro ⟨⟨confined, -⟩, -⟩
    exact confined
  · intro confined
    exact ⟨⟨confined, Or.inr buffer⟩, by omega⟩

theorem fdRead_confined_iff (confined : guest.memory.Confined) :
    (fdRead context args resultCount guest).2.memory.Confined ↔
      EntryCovered context args resultCount guest.memory := by
  unfold fdRead EntryCovered
  split
  next other => exact ⟨fun _ one => absurd one other, fun _ => confined⟩
  next one =>
    split
    next low => exact ⟨fun _ _ high => absurd low high, fun _ => confined⟩
    next high =>
      split
      next outside => exact ⟨fun _ _ _ inside => absurd inside outside, fun _ => confined⟩
      next ranges =>
        obtain ⟨table, count⟩ := not_not.mp ranges
        cases hook : context.readFd with
        | none => simpa using confined
        | some readFd =>
          have entry : (guest.readVector (args.word 1)).memory.Confined ↔
              memoryRange guest.memory (args.word 1) 8 := by
            rw [readVector_confined]
            exact ⟨fun inside => ⟨table.1, table.2.1, by omega⟩,
              fun range => ⟨confined, memoryRange_le range⟩⟩
          simp only [not_not.mp one, high, not_not.mp ranges, Option.isSome_some, forall_const,
            not_false_iff, ← entry]
          split
          · exact Iff.rfl
          next range =>
            have buffer := memoryRange_le (not_not.mp range)
            split
            · exact filled_confined _ buffer
            rw [Guest.put, confined_put]
            exact (and_iff_left (Or.inr (memoryRange_le count))).trans (filled_confined _ buffer)

end Imports

/-! ## All imports -/

def Guest.unrecorded {Host : Type} (guest : Guest Host) : Guest Host :=
  { guest with memory := { guest.memory with accesses := [] } }

/--
A call is safe when it touches only bytes below the size of the memory, or
traps without touching any.
-/
def WasiImport.Safe {Host : Type} (context : OwnedWasiContext Host) (wasi : WasiImport)
    (args : Values) (resultCount : Nat)
    (guest : Guest Host) : Prop :=
  (∀ access ∈ (wasi.invoke context args resultCount guest.unrecorded).2.memory.accesses,
    access.Inside) ∨
  ((wasi.invoke context args resultCount guest.unrecorded).1 = .trapped ∧
    (wasi.invoke context args resultCount guest.unrecorded).2.memory.accesses = [])

/-- The bytes that a call touches without a check lie in the memory. -/
def WasiImport.Covered {Host : Type} (context : OwnedWasiContext Host) (args : Values)
    (resultCount : Nat)
    (memory : LinearMemory) : WasiImport → Prop
  | .argsSizesGet => SizesCovered context args resultCount memory
  | .fdRead => EntryCovered context args resultCount memory
  | _ => True

theorem WasiImport.safe_iff {Host : Type} {context : OwnedWasiContext Host} {wasi : WasiImport}
    {args : Values} {resultCount : Nat} {guest : Guest Host} :
    wasi.Safe context args resultCount guest ↔ (wasi.invoke context args resultCount
      guest.unrecorded).2.memory.Confined := by
  constructor
  · rintro (inside | ⟨-, none⟩)
    · exact inside
    · intro access touched
      rw [none] at touched
      exact nomatch touched
  · exact Or.inl

/--
A call of an import is safe exactly when the two words of the argument sizes
and the first entry of a read's table lie in the memory, where the call gets
as far as touching them.
-/
theorem wasi_call_safe_iff {Host : Type} (context : OwnedWasiContext Host) (wasi : WasiImport)
    (args : Values) (resultCount : Nat) (guest : Guest Host) :
    wasi.Safe context args resultCount guest ↔
      wasi.Covered context args resultCount guest.memory := by
  have start : guest.unrecorded.memory.Confined := fun _ touched => nomatch touched
  rw [WasiImport.safe_iff]
  cases wasi with
  | argsSizesGet => exact argsSizesGet_confined_iff start
  | fdRead => exact fdRead_confined_iff start
  | schedYield => exact iff_true_intro (quiet_confined (schedYield_memory args) start)
  | procExit => exact iff_true_intro (quiet_confined procExit_memory start)
  | fdClose => exact iff_true_intro (quiet_confined fdClose_memory start)
  | environGet | fdFdstatSetFlags =>
    exact iff_true_intro (quiet_confined (succeed_memory args) start)
  | other => exact iff_true_intro (quiet_confined (genericStub_memory args) start)
  | argsGet => exact iff_true_intro (argsGet_confined start)
  | clockTimeGet => exact iff_true_intro (clockTimeGet_confined start)
  | environSizesGet => exact iff_true_intro (environSizesGet_confined start)
  | fdWrite => exact iff_true_intro (fdWrite_confined start)
  | randomGet => exact iff_true_intro (randomGet_confined start)
  | pollOneoff => exact iff_true_intro (pollOneoff_confined start)
  | fdFdstatGet => exact iff_true_intro (fdFdstatGet_confined start)
  | fdPrestatGet => exact iff_true_intro (fdPrestatGet_confined start)
  | fdPrestatDirName => exact iff_true_intro (fdPrestatDirName_confined start)
  | pathOpen => exact iff_true_intro (pathOpen_confined start)
  | pathCreateDirectory => exact iff_true_intro (pathCreateDirectory_confined start)

def onePage : LinearMemory where
  present := true
  bytes := fun _ => 0
  size := pageSize
  capacity := pageSize
  limit := pageSize
  accesses := []

def bareContext : OwnedWasiContext Unit where
  write := none
  exit := none
  yield := none
  nowNs := none
  random := none
  pathOpen := none
  mkdir := none
  readFd := none
  closeFd := none
  args := none
  argCount := 0

/--
A program without arguments asks for their sizes and gives the end of its
memory as the place for both words: both are stored behind the end.
-/
theorem argument_sizes_behind_end : ¬WasiImport.Safe bareContext .argsSizesGet (fun _ => 65536) 1
    ⟨onePage, ()⟩ := by
  rintro (inside | ⟨trapped, -⟩)
  · exact absurd (inside ⟨65536, 4, 65536⟩ (by decide)) (by decide)
  · exact absurd trapped (by decide)

end KernelLane.Wasi
