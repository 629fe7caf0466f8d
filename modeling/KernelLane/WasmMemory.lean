import KernelLane.ByteImage

namespace KernelLane.Wasm

/-!
# Linear memory

The linear memory of an instance is a buffer of the allocator.  Its size grows
in whole pages, by an instruction of the guest or by a request of the kernel,
and moves to a larger buffer when it outgrows the one it has.

Beside the bytes the model keeps a record of the accesses: where each one
started, how long it was, and the size that the memory had then.
-/

def pageSize : Nat := 65536

def ensureSlackBytes : Nat := 8 * 1024 * 1024

def uint64Max : Nat := 2 ^ 64 - 1

def alignUpU64 (value alignment : Nat) : Nat :=
  if uint64Max - (alignment - 1) < value then 0
  else (value + (alignment - 1)) / alignment * alignment

/-- An access to some bytes, with the size of the memory at that time. -/
structure Access where
  start : Nat
  length : Nat
  size : Nat
  deriving DecidableEq, Repr

/-- Every byte of the access lies below the size. -/
def Access.Inside (access : Access) : Prop :=
  access.length = 0 ∨ access.start + access.length ≤ access.size

instance (access : Access) : Decidable access.Inside := inferInstanceAs (Decidable (_ ∨ _))

/-- The memory of an instance and the bound that its configuration sets. -/
structure LinearMemory where
  /-- There is a buffer. -/
  present : Bool
  /-- The bytes from the start of the buffer on. -/
  bytes : Image
  size : Nat
  capacity : Nat
  /-- The configured bound on the size, in bytes. -/
  limit : Nat
  accesses : List Access

namespace LinearMemory

def touch (memory : LinearMemory) (start length : Nat) : LinearMemory :=
  { memory with accesses := memory.accesses ++ [⟨start, length, memory.size⟩] }

def put (memory : LinearMemory) (address : Nat) (bytes : Bytes) : LinearMemory :=
  { memory.touch address bytes.length with bytes := memory.bytes.splice address bytes }

def checkMemory (memory : LinearMemory) (offset size : Nat) : Prop :=
  offset ≤ memory.size ∧ size ≤ memory.size - offset

instance (memory : LinearMemory) (offset size : Nat) : Decidable (memory.checkMemory offset size) :=
  inferInstanceAs (Decidable (_ ∧ _))

/-- All accesses of a record were inside. -/
def Confined (memory : LinearMemory) : Prop := ∀ access ∈ memory.accesses, access.Inside

section Accesses

variable (memory : LinearMemory) (start length : Nat) (bytes : Bytes)

@[simp] theorem touch_size : (memory.touch start length).size = memory.size := rfl

@[simp] theorem put_size : (memory.put start bytes).size = memory.size := rfl

@[simp] theorem confined_touch : (memory.touch start length).Confined ↔
    memory.Confined ∧ (length = 0 ∨ start + length ≤ memory.size) := by
  unfold Confined touch
  rw [List.forall_mem_append, List.forall_mem_singleton]
  exact Iff.rfl

@[simp] theorem confined_put : (memory.put start bytes).Confined ↔ memory.Confined ∧
    (bytes.length = 0 ∨ start + bytes.length ≤ memory.size) :=
  confined_touch memory start bytes.length

end Accesses

end LinearMemory

end KernelLane.Wasm
