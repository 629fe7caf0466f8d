import KernelLane.ByteImage

namespace KernelLane.Rt

open Function

/-!
# The heap of the runtime

The kernel's heap hands out blocks of a pool that only grows.  A block starts
with a header of four words: its size, the link of the free list that it is
on, a magic number and its size class.  Small blocks have the size of their
class and go back to the list of that class; blocks from one megabyte on have
the size that was asked for and go back to one list that is searched first
fit.

The headers and the links live in memory, next to the bytes of the blocks.
Every function gets the answers of the pool as an argument, and the heap
remembers which ranges it has taken.
-/

def headerSize : Nat := 32
def rtMagic : Nat := 0x5254484452414D31
def rtLargeClass : Nat := 2 ^ 64 - 1
def rtLargeMin : Nat := 2 ^ 20
def nclass : Nat := 21

structure Heap where
  memory : Image
  /-- The heads of the lists of the size classes; zero is null. -/
  bins : Nat → Nat
  largeList : Nat
  /-- The ranges that the pool has handed out: start and length. -/
  taken : List (Nat × Nat)

namespace Heap

variable (heap : Heap) (h value : Nat)

def size : Nat := heap.memory.word64 h
def nextFree : Nat := heap.memory.word64 (h + 8)
def magic : Nat := heap.memory.word64 (h + 16)
def cls : Nat := heap.memory.word64 (h + 24)

def setNextFree : Heap := { heap with memory := heap.memory.setWord64 (h + 8) value }

def setMagic : Heap := { heap with memory := heap.memory.setWord64 (h + 16) rtMagic }

end Heap

def clsOf (n : Nat) : Nat := ((List.range' 4 (nclass - 4)).find? fun c => n ≤ 2 ^ c).getD nclass

/--
Follow the list of large blocks to the first that is large enough and take it
off.  The walk ends without an answer when its budget is used up.
-/
def largeWalk (need : Nat) : Nat → Nat → Nat → Heap → Option (Option Nat × Heap)
  | 0, _, _, _ => none
  | budget + 1, prev, h, heap =>
    if h = 0 then some (none, heap)
    else if need ≤ heap.size h then
      let unlinked :=
        if prev ≠ 0 then heap.setNextFree prev (heap.nextFree h)
        else { heap with largeList := heap.nextFree h }
      some (some h, unlinked.setNextFree h 0)
    else largeWalk need budget h (heap.nextFree h) heap

def largeFit (need : Nat) (heap : Heap) : Option (Option Nat × Heap) :=
  largeWalk need (heap.taken.length + 1) 0 heap.largeList heap

def Heap.fresh (heap : Heap) (base bytes cls : Nat) : Heap :=
  { heap with
    memory :=
      ((heap.memory.setWord64 base bytes).setWord64 (base + 24) cls).setWord64 (base + 16) rtMagic
    taken := (base, bytes) :: heap.taken }

def takeFresh (mmAlloc : Nat → Option Nat) (bytes cls : Nat) (heap : Heap) : Nat × Heap :=
  match mmAlloc bytes with
  | none => (0, heap)
  | some base => (base + headerSize, heap.fresh base bytes cls)

def needOf (n : Nat) : Nat := ((if n = 0 then 1 else n) + headerSize + 15) % 2 ^ 64 / 16 * 16

def rtMalloc (mmAlloc : Nat → Option Nat) (n : Nat) (heap : Heap) : Option (Nat × Heap) :=
  let need := needOf n
  if rtLargeMin ≤ need then
    match largeFit need heap with
    | none => none
    | some (some h, heap) => some (h + headerSize, heap.setMagic h)
    | some (none, heap) => some (takeFresh mmAlloc need rtLargeClass heap)
  else
    let c := clsOf need
    if c < nclass then
      let h := heap.bins c
      if h ≠ 0 then
        let popped := { heap with bins := update heap.bins c (heap.nextFree h) }
        some (h + headerSize, popped.setMagic h)
      else some (takeFresh mmAlloc (2 ^ c) c heap)
    else some (takeFresh mmAlloc need rtLargeClass heap)

def rtFree (p : Nat) (heap : Heap) : Heap :=
  if p = 0 then heap
  else
    let h := p - headerSize
    if heap.magic h ≠ rtMagic then heap
    else if heap.cls h = rtLargeClass ∨ rtLargeMin ≤ heap.size h then
      { heap.setNextFree h heap.largeList with largeList := h }
    else
      -- A negative class is a large number here, and out of bands as well.
      let stored := heap.cls h % 2 ^ 32
      let c :=
        if stored < 4 ∨ nclass ≤ stored then clsOf (heap.size h) else stored
      if nclass ≤ c then heap
      else { heap.setNextFree h (heap.bins c) with bins := update heap.bins c h }

def rtRealloc (mmAlloc : Nat → Option Nat) (p n : Nat) (heap : Heap) : Option (Nat × Heap) :=
  if p = 0 then rtMalloc mmAlloc n heap
  else
    let h := p - headerSize
    if heap.magic h ≠ rtMagic then some (p, heap)
    else
      let cap := (heap.size h + 2 ^ 64 - headerSize) % 2 ^ 64
      if n ≤ cap then some (p, heap)
      else
        match rtMalloc mmAlloc n heap with
        | none => none
        | some (q, heap) =>
          if q = 0 then some (0, heap)
          else
            let cp := if cap < n then cap else n
            some (q, rtFree p { heap with memory := heap.memory.copyBytes q p cp })

def rtCalloc (mmAlloc : Nat → Option Nat) (n sz : Nat) (heap : Heap) : Option (Nat × Heap) :=
  if n ≠ 0 ∧ (2 ^ 64 - 1) / n < sz then some (0, heap)
  else
    let total := n * sz % 2 ^ 64
    match rtMalloc mmAlloc total heap with
    | none => none
    | some (p, heap) =>
      if p = 0 then some (0, heap)
      else some (p, { heap with memory := heap.memory.zeroBytes p total })

/-! ## Programs that use the heap -/

/-- The heap and the blocks that are in use: pointer and requested size. -/
structure HeapState where
  heap : Heap
  live : Nat → Option Nat

/-- A call of a program, with the answers of the pool, or a store. -/
inductive HeapOp where
  | malloc (mmAlloc : Nat → Option Nat) (n : UInt64)
  | calloc (mmAlloc : Nat → Option Nat) (n sz : UInt64)
  | realloc (mmAlloc : Nat → Option Nat) (p : Nat) (n : UInt64)
  | free (p : Nat)
  | store (p offset : Nat) (bytes : Bytes)

def bootHeap (memory : Image) : HeapState where
  heap :=
    { memory := memory
      bins := fun _ => 0
      largeList := 0
      taken := [] }
  live := fun _ => none

def granted (live : Nat → Option Nat) (p n : Nat) : Nat → Option Nat :=
  if p = 0 then live else update live p (some n)

/-- The pointer that a call returns and the state after it. -/
def HeapState.perform (state : HeapState) : HeapOp → Option (Nat × HeapState)
  | .malloc mmAlloc n =>
    (rtMalloc mmAlloc n.toNat state.heap).map fun answer =>
      (answer.1, ⟨answer.2, granted state.live answer.1 n.toNat⟩)
  | .calloc mmAlloc n sz =>
    (rtCalloc mmAlloc n.toNat sz.toNat state.heap).map fun answer =>
      (answer.1, ⟨answer.2, granted state.live answer.1 (n.toNat * sz.toNat)⟩)
  | .realloc mmAlloc p n =>
    (rtRealloc mmAlloc p n.toNat state.heap).map fun answer =>
      (answer.1, ⟨answer.2, if answer.1 = 0 then state.live
        else granted (update state.live p none) answer.1 n.toNat⟩)
  | .free p => some (0, ⟨rtFree p state.heap, update state.live p none⟩)
  | .store p offset bytes =>
    some (0, { state with
        heap := { state.heap with memory := state.heap.memory.splice (p + offset) bytes } })

/-- The addresses that belong to the pool. -/
structure Pool where
  lo : Nat
  hi : Nat
  positive : 0 < lo
  addressable : hi ≤ 2 ^ 64

/-- A range of the pool that is aligned and that nobody has taken. -/
def Fresh (pool : Pool) (taken : List (Nat × Nat)) (base bytes : Nat) : Prop :=
  16 ∣ base ∧ pool.lo ≤ base ∧ base + bytes ≤ pool.hi ∧ ∀ range ∈ taken,
    base + bytes ≤ range.1 ∨ range.1 + range.2 ≤ base

/-- The pool answers with fresh ranges or null. -/
def Honest (pool : Pool) (state : HeapState) (mmAlloc : Nat → Option Nat) : Prop :=
  ∀ bytes base, mmAlloc bytes = some base → Fresh pool state.heap.taken base bytes

/-- A pointer that may be given back: null or in use. -/
def HeapState.Held (state : HeapState) (p : Nat) : Prop := p = 0 ∨ (state.live p).isSome = true

/--
The calls of a correct program: sizes are below the bound (a product that does
not fit a word is refused), only held pointers are given back, and stores stay
inside the block.
-/
def Allowed (pool : Pool) (state : HeapState) : HeapOp → Prop
  | .malloc mmAlloc n => n.toNat < 2 ^ 63 ∧ Honest pool state mmAlloc
  | .calloc mmAlloc n sz =>
    (n.toNat * sz.toNat < 2 ^ 63 ∨ 2 ^ 64 ≤ n.toNat * sz.toNat) ∧ Honest pool state mmAlloc
  | .realloc mmAlloc p n => state.Held p ∧ n.toNat < 2 ^ 63 ∧ Honest pool state mmAlloc
  | .free p => state.Held p
  | .store p offset bytes => ∃ n, state.live p = some n ∧ offset + bytes.length ≤ n

/-- One call of a correct program. -/
def HeapStep (pool : Pool) (before : HeapState) (op : HeapOp) (after : HeapState) : Prop :=
  Allowed pool before op ∧ ∃ p, before.perform op = some (p, after)

end KernelLane.Rt
