import KernelLane.WasiBridge

namespace KernelLane.Wasi

open Wasm Words

/-!
# What a path import depends on

The path of an import is fetched by its pointer and its length, and the byte
right behind it must be zero.  Beside these bytes, the size of the memory and
the arguments, nothing of the guest has an influence on the outcome.
-/

variable {Host : Type} {left right : Guest Host}

/-- Two guests of one size that agree on a path and on the byte behind it. -/
structure SamePath (address length : Nat) (left right : Guest Host) : Prop where
  host : left.host = right.host
  present : left.memory.present = right.memory.present
  size : left.memory.size = right.memory.size
  bytes : ∀ index, address ≤ index → index ≤ address + length →
    left.memory.bytes index = right.memory.bytes index

/-- The same host, and the same bytes wherever two memories agreed. -/
structure Alike (left right first second : Guest Host) : Prop where
  host : first.host = second.host
  bytes : ∀ index, left.memory.bytes index = right.memory.bytes index →
    first.memory.bytes index = second.memory.bytes index

theorem SamePath.memoryRange {address length : Nat} (same : SamePath address length left right)
    (start size : Nat) :
    memoryRange left.memory start size ↔ memoryRange right.memory start size := by
  unfold Wasi.memoryRange LinearMemory.checkMemory
  rw [same.present, same.size]

/-- Both fetch the same path, and fetching changes neither host nor bytes. -/
theorem SamePath.fetch {address : Nat} {length : UInt32}
    (same : SamePath address length.toNat left right) :
    ∃ path first second, fetchRoutedPath address length left = (path, first) ∧
      fetchRoutedPath address length right = (path, second) ∧ Alike left right first second := by
  have behind := same.bytes (address + length.toNat) (Nat.le_add_right _ _) (Nat.le_refl _)
  have path : left.memory.bytes.readBytes address length.toNat =
      right.memory.bytes.readBytes address length.toNat :=
    Image.readBytes_congr fun index low high => same.bytes index low (Nat.le_of_lt high)
  unfold fetchRoutedPath
  simp only [same.memoryRange, behind, path]
  split
  · exact ⟨none, left, right, rfl, rfl, same.host, fun _ => id⟩
  split
  · exact ⟨none, left, right, rfl, rfl, same.host, fun _ => id⟩
  split
  · exact ⟨none, _, _, rfl, rfl, same.host, fun _ => id⟩
  · exact ⟨some _, _, _, rfl, rfl, same.host, fun _ => id⟩

theorem Alike.put {first second : Guest Host} (alike : Alike left right first second)
    (address : Nat) (bytes : Bytes) :
    Alike left right (first.put address bytes) (second.put address bytes) := by
  refine ⟨alike.host, fun index agree => ?_⟩
  have same := alike.bytes index agree
  dsimp only [Guest.put, LinearMemory.put, Image.splice]
  rw [same]

/-- The import that takes its path from these two arguments does not look further. -/
def Local (action : Import Host) (pointer length : Nat) : Prop :=
  ∀ args resultCount left right,
    SamePath (args.word pointer) (args length).toUInt32.toNat left right →
    (action args resultCount left).1 = (action args resultCount right).1 ∧
      Alike left right (action args resultCount left).2 (action args resultCount right).2

theorem local_pathOpen (context : OwnedWasiContext Host) : Local (pathOpen context) 2 3 := by
  intro args resultCount left right same
  obtain ⟨path, first, second, fetched, alsoFetched, alike⟩ := same.fetch
  unfold pathOpen
  simp only [same.memoryRange, fetched, alsoFetched]
  split
  · exact ⟨rfl, same.host, fun _ => id⟩
  split
  · exact ⟨rfl, same.host, fun _ => id⟩
  cases path with
  | none => exact ⟨rfl, alike⟩
  | some path =>
    cases context.pathOpen with
    | none => exact ⟨rfl, alike⟩
    | some hook =>
      dsimp only
      rw [alike.host]
      split
      · exact ⟨rfl, rfl, alike.bytes⟩
      · refine ⟨rfl, Alike.put ?_ _ _⟩
        exact ⟨rfl, alike.bytes⟩

theorem local_pathCreateDirectory (context : OwnedWasiContext Host) :
    Local (pathCreateDirectory context) 1 2 := by
  intro args resultCount left right same
  obtain ⟨path, first, second, fetched, alsoFetched, alike⟩ := same.fetch
  unfold pathCreateDirectory
  simp only [fetched, alsoFetched]
  split
  · exact ⟨rfl, same.host, fun _ => id⟩
  cases path with
  | none => exact ⟨rfl, alike⟩
  | some path =>
    cases context.mkdir with
    | none => exact ⟨rfl, alike⟩
    | some hook =>
      dsimp only
      rw [alike.host]
      exact ⟨rfl, rfl, alike.bytes⟩

/-- The outcome of a path import is a function of its path and the byte behind. -/
theorem path_imports_local (context : OwnedWasiContext Host) :
    Local (pathOpen context) 2 3 ∧ Local (pathCreateDirectory context) 1 2 :=
  ⟨local_pathOpen context, local_pathCreateDirectory context⟩

def willingHost : OwnedWasiContext Unit :=
  ⟨none, none, none, none, none, some fun _ _ _ _ => ((0, 4), ()), some fun _ _ _ => (0, ()), none,
    none, none, 0⟩

def oneByteGuest (behind : UInt8) (size : Nat) : Guest Unit :=
  ⟨⟨true, Function.update (fun _ => 97) 1 behind, size, size, size, []⟩, ()⟩

def oneByteArgs (pointer length : Nat) : Values := fun index =>
  if index = length then 1 else if index = pointer then 0 else 4

/-- The byte behind a path decides, and so does the room for the descriptor. -/
theorem path_reads_behind :
    (pathCreateDirectory willingHost (oneByteArgs 1 2) 1 (oneByteGuest 0 8)).1 = .errno 0 ∧
    (pathCreateDirectory willingHost (oneByteArgs 1 2) 1 (oneByteGuest 98 8)).1 = .errno errInval ∧
    (pathOpen willingHost (oneByteArgs 2 3) 1 (oneByteGuest 0 8)).1 = .errno 0 ∧
    (pathOpen willingHost (oneByteArgs 2 3) 1 (oneByteGuest 98 8)).1 = .errno errInval ∧
    (pathOpen willingHost (oneByteArgs 2 3) 1 (oneByteGuest 0 7)).1 = .trapped := by
  decide +kernel

end KernelLane.Wasi
