import KernelLane.LinkedChain
import KernelLane.RtHeap
import Mathlib.Data.List.Nodup
import Mathlib.Data.List.Pairwise

namespace KernelLane.Rt

open Function List Image

/-!
# Blocks, lists and live pointers

The shape of the heap at rest: the ranges that were taken from the pool do not
overlap, each starts with a header that tells its size, the free lists are
chains of blocks that nobody uses, and every pointer in use is the inside of a
block.  The steps from which the calls are built keep this shape.
-/

/-- The class of a block tells its size, or that it is a large one. -/
def Banded (cls bytes : Nat) : Prop :=
  cls = rtLargeClass ∧ rtLargeMin ≤ bytes ∨ 5 ≤ cls ∧ cls ≤ 20 ∧ bytes = 2 ^ cls

theorem Banded.header_le {cls bytes : Nat} (banded : Banded cls bytes) : headerSize ≤ bytes := by
  rcases banded with ⟨-, large⟩ | ⟨low, -, rfl⟩
  · exact le_trans (by decide) large
  · exact Nat.pow_le_pow_right Nat.two_pos low

theorem Banded.cls_lt {cls bytes : Nat} (banded : Banded cls bytes) : cls < 2 ^ 64 := by
  rcases banded with ⟨rfl, -⟩ | ⟨-, high, -⟩
  · unfold rtLargeClass
    omega
  · omega

/-- A range of the pool with the header of a block. -/
structure Block (pool : Pool) (memory : Image) (base bytes : Nat) : Prop where
  above : pool.lo ≤ base
  below : base + bytes ≤ pool.hi
  size : memory.word64 base = bytes
  magic : memory.word64 (base + 16) = rtMagic
  banded : Banded (memory.word64 (base + 24)) bytes

theorem Block.header_le {pool : Pool} {memory : Image} {base bytes : Nat}
    (block : Block pool memory base bytes) : headerSize ≤ bytes :=
  block.banded.header_le

theorem Block.congr {pool : Pool} {memory changed : Image} {base bytes : Nat}
    (block : Block pool memory base bytes) (size : changed.word64 base = memory.word64 base)
    (magic : changed.word64 (base + 16) = memory.word64 (base + 16))
    (cls : changed.word64 (base + 24) = memory.word64 (base + 24)) :
    Block pool changed base bytes where
  above := block.above
  below := block.below
  size := size.trans block.size
  magic := magic.trans block.magic
  banded := by
    rw [cls]
    exact block.banded

theorem Heap.fresh_outside (heap : Heap) (base bytes cls : Nat) {index : Nat}
    (outside : index < base ∨ base + 32 ≤ index) :
    (heap.fresh base bytes cls).memory index = heap.memory index := by
  unfold Heap.fresh
  dsimp only
  rw [setWord64_outside _ (by omega), setWord64_outside _ (by omega),
    setWord64_outside _ (by omega)]

theorem Heap.block_fresh (heap : Heap) {pool : Pool} {base bytes cls : Nat} (above : pool.lo ≤ base)
    (below : base + bytes ≤ pool.hi) (banded : Banded cls bytes) :
    Block pool (heap.fresh base bytes cls).memory base bytes := by
  have positive := pool.positive
  have addressable := pool.addressable
  have small : bytes < 2 ^ 64 := by omega
  refine ⟨above, below, ?_, ?_, ?_⟩
  · unfold Heap.fresh
    rw [word64_setWord64_of_apart _ (by omega), word64_setWord64_of_apart _ (by omega),
      word64_setWord64 _ _ small]
  · exact word64_setWord64 _ _ (by decide)
  · unfold Heap.fresh
    rw [word64_setWord64_of_apart _ (by omega), word64_setWord64 _ _ banded.cls_lt]
    exact banded

/-- The shape of a heap with these free lists. -/
structure Shaped (pool : Pool) (heap : Heap) (live : Nat → Option Nat) (bins : Nat → List Nat)
    (large : List Nat) : Prop where
  apart : heap.taken.Pairwise fun left right =>
    left.1 + left.2 ≤ right.1 ∨ right.1 + right.2 ≤ left.1
  block : ∀ {base bytes}, (base, bytes) ∈ heap.taken → Block pool heap.memory base bytes
  binChain : ∀ c, Chain heap.nextFree (heap.bins c) (bins c)
  binNodup : ∀ c, (bins c).Nodup
  binned : ∀ {c node}, node ∈ bins c →
    c < 20 ∧ (node, 2 ^ c) ∈ heap.taken ∧ live (node + headerSize) = none
  largeChain : Chain heap.nextFree heap.largeList large
  largeNodup : large.Nodup
  listed : ∀ {node}, node ∈ large → ∃ bytes, rtLargeMin ≤ bytes ∧ (node, bytes) ∈ heap.taken ∧
    live (node + headerSize) = none
  held : ∀ {p n}, live p = some n →
    ∃ base bytes, p = base + headerSize ∧ (base, bytes) ∈ heap.taken ∧ n + headerSize ≤ bytes

/-- A node that is on no free list. -/
def Unlisted (bins : Nat → List Nat) (large : List Nat) (node : Nat) : Prop :=
  (∀ c, node ∉ bins c) ∧ node ∉ large

namespace Shaped

variable {pool : Pool} {heap : Heap} {live : Nat → Option Nat} {bins : Nat → List Nat}
  {large : List Nat}
  {base bytes other length node n : Nat}

section

variable (shaped : Shaped pool heap live bins large)
include shaped

section

variable (first : (base, bytes) ∈ heap.taken)
include first

theorem same_or_apart (second : (other, length) ∈ heap.taken) :
    (base = other ∧ bytes = length) ∨ base + bytes ≤ other ∨ other + length ≤ base := by
  have symmetric : Std.Symm fun left right : Nat × Nat =>
      left.1 + left.2 ≤ right.1 ∨ right.1 + right.2 ≤ left.1 :=
    ⟨fun _ _ => Or.symm⟩
  by_cases same : (base, bytes) = (other, length)
  · exact Or.inl (Prod.mk.inj same)
  · exact Or.inr (shaped.apart.forall first second same)

theorem bytes_eq (second : (base, length) ∈ heap.taken) : bytes = length := by
  rcases shaped.same_or_apart first second with same | apart
  · exact same.2
  · have left := (shaped.block first).header_le
    have right := (shaped.block second).header_le
    unfold headerSize at left right
    omega

theorem header_apart (second : (other, length) ∈ heap.taken) :
    base = other ∨ base + headerSize ≤ other ∨ other + headerSize ≤ base := by
  have left := (shaped.block first).header_le
  have right := (shaped.block second).header_le
  have cases := shaped.same_or_apart first second
  omega

end

theorem base_ne_zero (taken : (base, bytes) ∈ heap.taken) : base ≠ 0 := by
  have above := (shaped.block taken).above
  have positive := pool.positive
  omega

theorem unlisted_of_live (used : live (node + headerSize) = some n) : Unlisted bins large node := by
  constructor
  · intro c member
    rw [(shaped.binned member).2.2] at used
    exact nomatch used
  · intro member
    obtain ⟨_, -, -, unused⟩ := shaped.listed member
    rw [unused] at used
    exact nomatch used

theorem block_setNextFree
    (linked : (node, length) ∈ heap.taken) (value : Nat) (taken : (base, bytes) ∈ heap.taken) :
    Block pool (heap.setNextFree node value).memory base bytes := by
  have cases := shaped.header_apart linked taken
  unfold headerSize at cases
  refine (shaped.block taken).congr ?_ ?_ ?_
  all_goals exact word64_setWord64_of_apart _ (by omega)

theorem nextFree_setNextFree
    (linked : (node, length) ∈ heap.taken) (value : Nat) (taken : (base, bytes) ∈ heap.taken)
    (different : base ≠ node) :
    (heap.setNextFree node value).nextFree base = heap.nextFree base := by
  have cases := shaped.header_apart linked taken
  unfold headerSize at cases
  exact word64_setWord64_of_apart _ (by omega)

theorem setNextFree (taken : (node, bytes) ∈ heap.taken)
    (unlisted : Unlisted bins large node) (value : Nat) :
    Shaped pool (heap.setNextFree node value) live bins large := { shaped with
  block := shaped.block_setNextFree taken value
  binChain c :=
    (shaped.binChain c).congr fun entry member =>
      shaped.nextFree_setNextFree taken value (shaped.binned member).2.1
        fun same => unlisted.1 c (same ▸ member)
  largeChain :=
    shaped.largeChain.congr fun entry member => by
      obtain ⟨length, -, found, -⟩ := shaped.listed member
      exact shaped.nextFree_setNextFree taken value found fun same => unlisted.2 (same ▸ member) }

theorem withBytes {memory : Image} (same : ∀ {base bytes}, (base, bytes) ∈ heap.taken →
      ∀ index, base ≤ index → index < base + headerSize → memory index = heap.memory index) :
    Shaped pool { heap with memory := memory } live bins large := by
  unfold headerSize at same
  have word : ∀ {base bytes}, (base, bytes) ∈ heap.taken → ∀ offset, offset + 8 ≤ 32 →
      memory.word64 (base + offset) = heap.memory.word64 (base + offset) :=
    fun member offset inside =>
      word64_congr fun index low high => same member index (by omega) (by omega)
  exact
    { shaped with
      block := fun member =>
        (shaped.block member).congr (word member 0 (by decide))
          (word member 16 (by decide)) (word member 24 (by decide))
      binChain := fun c =>
        (shaped.binChain c).congr fun node member => word (shaped.binned member).2.1 8 (by decide)
      largeChain :=
        shaped.largeChain.congr fun node member => by
          obtain ⟨bytes, -, taken, -⟩ := shaped.listed member
          exact word taken 8 (by decide) }

theorem enliven (taken : (base, bytes) ∈ heap.taken)
    (unlisted : Unlisted bins large base) (room : n + headerSize ≤ bytes) :
    Shaped pool heap (update live (base + headerSize) (some n)) bins large := { shaped with
  binned := by
    intro c node member
    obtain ⟨small, found, unused⟩ := shaped.binned member
    have different : node + headerSize ≠ base + headerSize := by
      intro same
      have equal := Nat.add_right_cancel same
      exact unlisted.1 c (equal ▸ member)
    rw [update_of_ne different]
    exact ⟨small, found, unused⟩
  listed := by
    intro node member
    have different : node + headerSize ≠ base + headerSize := by
      intro same
      have equal := Nat.add_right_cancel same
      exact unlisted.2 (equal ▸ member)
    rw [update_of_ne different]
    exact shaped.listed member
  held := by
    intro p requested used
    by_cases same : p = base + headerSize
    · subst same
      rw [update_self] at used
      obtain rfl := Option.some.inj used
      exact ⟨base, bytes, rfl, taken, room⟩
    · rw [update_of_ne same] at used
      exact shaped.held used }

theorem bury (p : Nat) : Shaped pool heap (update live p none) bins large := { shaped with
  binned := by
    intro c node member
    obtain ⟨small, found, unused⟩ := shaped.binned member
    refine ⟨small, found, ?_⟩
    rw [update_apply]
    split
    · rfl
    · exact unused
  listed := by
    intro node member
    obtain ⟨bytes, big, found, unused⟩ := shaped.listed member
    refine ⟨bytes, big, found, ?_⟩
    rw [update_apply]
    split
    · rfl
    · exact unused
  held := by
    intro q requested used
    by_cases same : q = p
    · subst same
      rw [update_self] at used
      exact nomatch used
    · rw [update_of_ne same] at used
      exact shaped.held used }

theorem popBin {c : Nat} (present : heap.bins c ≠ 0) :
    ∃ rest, bins c = heap.bins c :: rest ∧ Shaped pool
      { heap with bins := update heap.bins c (heap.nextFree (heap.bins c)) }
      live (update bins c rest) large := by
  obtain ⟨rest, shape, later⟩ := (shaped.binChain c).eq_cons present
  have fewer : ∀ {other node}, node ∈ update bins c rest other → node ∈ bins other := by
    intro other node member
    by_cases same : other = c
    · subst same
      rw [update_self] at member
      rw [shape]
      exact mem_cons_of_mem _ member
    · rwa [update_of_ne same] at member
  refine ⟨rest, shape, { shaped with
      binChain := ?_
      binNodup := ?_
      binned := fun member => shaped.binned (fewer member) }⟩
  · intro other
    change Chain heap.nextFree (update heap.bins c (heap.nextFree (heap.bins c)) other)
      (update bins c rest other)
    by_cases same : other = c
    · subst same
      rw [update_self, update_self]
      exact later
    · rw [update_of_ne same, update_of_ne same]
      exact shaped.binChain other
  · have distinct := shaped.binNodup c
    rw [shape] at distinct
    exact (forall_update_iff bins fun _ list => list.Nodup).mpr
      ⟨(nodup_cons.mp distinct).2, fun other _ => shaped.binNodup other⟩

theorem pushBin {c : Nat} (small : c < 20)
    (taken : (node, 2 ^ c) ∈ heap.taken) (unlisted : Unlisted bins large node)
    (unused : live (node + headerSize) = none) (linked : heap.nextFree node = heap.bins c) :
    Shaped pool { heap with bins := update heap.bins c node } live
      (update bins c (node :: bins c)) large := { shaped with
  binChain other := by
    change Chain heap.nextFree (update heap.bins c node other)
      (update bins c (node :: bins c) other)
    by_cases same : other = c
    · subst same
      rw [update_self, update_self]
      exact (shaped.binChain other).push (shaped.base_ne_zero taken) linked fun _ _ => rfl
    · rw [update_of_ne same, update_of_ne same]
      exact shaped.binChain other
  binNodup := (forall_update_iff bins fun _ list => list.Nodup).mpr
    ⟨nodup_cons.mpr ⟨unlisted.1 c, shaped.binNodup c⟩, fun other _ => shaped.binNodup other⟩
  binned := by
    intro other entry member
    by_cases same : other = c
    · subst same
      rw [update_self] at member
      rcases mem_cons.mp member with rfl | old
      · exact ⟨small, taken, unused⟩
      · exact shaped.binned old
    · rw [update_of_ne same] at member
      exact shaped.binned member }

theorem pushLarge (big : rtLargeMin ≤ bytes)
    (taken : (node, bytes) ∈ heap.taken) (unlisted : Unlisted bins large node)
    (unused : live (node + headerSize) = none) (linked : heap.nextFree node = heap.largeList) :
    Shaped pool { heap with largeList := node } live bins (node :: large) := { shaped with
  largeChain := shaped.largeChain.push (shaped.base_ne_zero taken) linked fun _ _ => rfl
  largeNodup := nodup_cons.mpr ⟨unlisted.2, shaped.largeNodup⟩
  listed := by
    intro entry member
    rcases mem_cons.mp member with rfl | old
    · exact ⟨bytes, big, taken, unused⟩
    · exact shaped.listed old }

end

theorem popLarge {second : Nat} (shaped : Shaped pool heap live bins (node :: large))
    (linked : heap.nextFree node = second) :
    Shaped pool { heap with largeList := second } live bins large := by
  obtain ⟨-, -, later⟩ := shaped.largeChain
  rw [linked] at later
  exact
    { shaped with
      largeChain := later
      largeNodup := (nodup_cons.mp shaped.largeNodup).2
      listed := fun member => shaped.listed (mem_cons_of_mem _ member) }

theorem skipLarge {earlier rest : List Nat} {previous : Nat} (shaped : Shaped pool heap live bins
      (earlier ++ previous :: node :: rest)) :
    Shaped pool (heap.setNextFree previous (heap.nextFree node)) live bins
      (earlier ++ previous :: rest) := by
  have inside : previous ∈ earlier ++ previous :: node :: rest := by simp
  obtain ⟨length, big, linked, -⟩ := shaped.listed inside
  have kept : (earlier ++ previous :: rest).Sublist (earlier ++ previous :: node :: rest) :=
    List.Sublist.append_left (List.Sublist.cons_cons _ (sublist_cons_self _ _)) _
  have absent : previous ∉ earlier ++ rest := by
    have distinct := nodup_middle.mp (kept.nodup shaped.largeNodup)
    exact (nodup_cons.mp distinct).1
  exact
    { shaped with
      block := shaped.block_setNextFree linked _
      binChain := fun c =>
        (shaped.binChain c).congr fun entry member => by
          obtain ⟨small, taken, -⟩ := shaped.binned member
          refine shaped.nextFree_setNextFree linked _ taken ?_
          rintro rfl
          have length := shaped.bytes_eq taken linked
          have bound : 2 ^ c < rtLargeMin := Nat.pow_lt_pow_right (by decide) small
          omega
      largeChain := by
        refine shaped.largeChain.unlink (word64_setWord64 _ _ (word64_lt _ _)) ?_
        intro entry member
        have there : entry ∈ earlier ++ previous :: node :: rest := by
          rcases mem_append.mp member with first | last
          · exact mem_append_left _ first
          · simp [last]
        obtain ⟨bytes, -, taken, -⟩ := shaped.listed there
        exact shaped.nextFree_setNextFree linked _ taken fun same => absent (same ▸ member)
      largeNodup := kept.nodup shaped.largeNodup
      listed := fun member => shaped.listed (kept.subset member) }

theorem fresh (shaped : Shaped pool heap live bins large) {cls : Nat}
    (unused : Fresh pool heap.taken base bytes) (banded : Banded cls bytes) :
    Shaped pool (heap.fresh base bytes cls) live bins large := by
  obtain ⟨-, above, below, apart⟩ := unused
  have room := banded.header_le
  unfold headerSize at room
  have word : ∀ {other length}, (other, length) ∈ heap.taken → ∀ offset, offset + 8 ≤ 32 →
      (heap.fresh base bytes cls).memory.word64 (other + offset) =
        heap.memory.word64 (other + offset) := by
    intro other length member offset inside
    have separate := apart _ member
    have header := (shaped.block member).header_le
    unfold headerSize at header
    refine word64_congr fun index low high => ?_
    exact heap.fresh_outside base bytes cls (by omega)
  exact
    { shaped with
      apart := pairwise_cons.mpr ⟨fun range member => apart range member, shaped.apart⟩
      block := by
        intro other length member
        rcases mem_cons.mp member with same | old
        · obtain ⟨rfl, rfl⟩ := Prod.mk.inj same
          exact heap.block_fresh above below banded
        · exact (shaped.block old).congr (word old 0 (by decide))
            (word old 16 (by decide)) (word old 24 (by decide))
      binChain := fun c =>
        (shaped.binChain c).congr fun node member => word (shaped.binned member).2.1 8 (by decide)
      binned := by
        intro c node member
        obtain ⟨small, found, unused⟩ := shaped.binned member
        exact ⟨small, mem_cons_of_mem _ found, unused⟩
      largeChain :=
        shaped.largeChain.congr fun node member => by
          obtain ⟨length, -, found, -⟩ := shaped.listed member
          exact word found 8 (by decide)
      listed := by
        intro node member
        obtain ⟨length, big, found, unused⟩ := shaped.listed member
        exact ⟨length, big, mem_cons_of_mem _ found, unused⟩
      held := by
        intro p n used
        obtain ⟨other, length, shape, found, fits⟩ := shaped.held used
        exact ⟨other, length, shape, mem_cons_of_mem _ found, fits⟩ }

end Shaped

end KernelLane.Rt
