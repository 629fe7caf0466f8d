import KernelLane.RtHeapSafety

namespace KernelLane.Rt

open Function List

/-!
# Blocks that come back

What a free block is good for.  A block in use that is given back serves the
next request of its size, except in the class whose blocks are as long as the
large ones: they go to the list of large blocks, where no small request looks.
A pointer that no call has returned is told by the magic number before it.
-/

/-- The pool hands out whole units of 16 bytes. -/
def Heap.Even (heap : Heap) : Prop := ∀ range ∈ heap.taken, 16 ∣ range.2

section Steps

variable {heap after : Heap} {answer : Nat × Heap} {mmAlloc : Nat → Option Nat}
  {n bytes cls p q sz : Nat}

theorem even_needOf (n : Nat) : 16 ∣ needOf n := Dvd.intro_left _ rfl

theorem Heap.Even.of_taken (even : heap.Even) (same : after.taken = heap.taken) : after.Even := by
  unfold Heap.Even
  rwa [same]

theorem Heap.Even.takeFresh (even : heap.Even) (whole : 16 ∣ bytes) :
    (takeFresh mmAlloc bytes cls heap).2.Even := by
  unfold Rt.takeFresh
  cases mmAlloc bytes with
  | none => exact even
  | some base => exact forall_mem_cons.mpr ⟨whole, even⟩

theorem largeWalk_taken {need budget prev h : Nat} {found : Option Nat}
    (walked : largeWalk need budget prev h heap = some (found, after)) :
    after.taken = heap.taken := by
  induction budget generalizing prev h with
  | zero => cases walked
  | succ budget hypothesis =>
    unfold largeWalk at walked
    split_ifs at walked with ends fits
    · cases walked
      rfl
    · cases walked
      rfl
    · cases walked
      rfl
    · exact hypothesis walked

theorem Heap.Even.rtMalloc (even : heap.Even) (served : rtMalloc mmAlloc n heap = some answer) :
    answer.2.Even := by
  have dividedPower : 16 ∣ 2 ^ clsOf (needOf n) := by
    refine pow_dvd_pow 2 (?_ : 4 ≤ _)
    unfold clsOf
    cases found : (range' 4 (nclass - 4)).find? fun c => needOf n ≤ 2 ^ c with
    | none => decide
    | some c => exact (mem_range'_1.mp (mem_of_find?_eq_some found)).1
  unfold Rt.rtMalloc at served
  dsimp only at served
  split_ifs at served
  · split at served
    · cases served
    next walked =>
      cases served
      exact even.of_taken (largeWalk_taken walked :)
    next walked =>
      cases served
      exact (even.of_taken (largeWalk_taken walked)).takeFresh (even_needOf n)
  · cases served
    exact even
  · cases served
    exact even.takeFresh dividedPower
  · cases served
    exact even.takeFresh (even_needOf n)

theorem rtFree_taken (p : Nat) (heap : Heap) : (rtFree p heap).taken = heap.taken := by
  unfold rtFree Heap.setNextFree
  dsimp only
  split_ifs <;> rfl

end Steps

theorem HeapState.perform_even {state after : HeapState} {op : HeapOp} {p : Nat}
    (even : state.heap.Even) (done : state.perform op = some (p, after)) : after.heap.Even := by
  cases op with
  | malloc mmAlloc n =>
    obtain ⟨answer, served, same⟩ := Option.map_eq_some_iff.mp done
    cases same
    exact even.rtMalloc served
  | calloc mmAlloc n sz =>
    obtain ⟨answer, served, same⟩ := Option.map_eq_some_iff.mp done
    cases same
    unfold rtCalloc at served
    dsimp only at served
    split_ifs at served
    · cases served
      exact even
    · split at served
      · cases served
      next served' =>
        have kept := even.rtMalloc served'
        split_ifs at served <;> cases served <;> exact kept
  | realloc mmAlloc p n =>
    obtain ⟨answer, served, same⟩ := Option.map_eq_some_iff.mp done
    cases same
    unfold rtRealloc at served
    dsimp only at served
    split_ifs at served with null foreign fits grown
    · exact even.rtMalloc served
    · cases served
      exact even
    · cases served
      exact even
    · split at served
      · cases served
      next served' =>
        have kept := even.rtMalloc served'
        split_ifs at served
        · cases served
          exact kept
        · cases served
          exact kept.of_taken (rtFree_taken _ _)
    · exact absurd (not_le.mp fits) grown
  | free p =>
    cases done
    exact even.of_taken (rtFree_taken p state.heap)
  | store p offset bytes =>
    cases done
    exact even

section Reached

variable {pool : Pool} {memory : Image} {ops : List HeapOp} {state : HeapState} {p n : Nat}

theorem even_of_run (run : Run (HeapStep pool) (bootHeap memory) ops state) : state.heap.Even := by
  have kept : ∀ {before op after}, before.heap.Even → HeapStep pool before op after →
      after.heap.Even := by
    rintro before op after even ⟨-, p, done⟩
    exact HeapState.perform_even even done
  exact run.invariant kept nofun

/-! ## Requests that take no new memory -/

/-- A request is served without the pool. -/
def Reuses (n : Nat) (heap : Heap) : Prop := ∀ mmAlloc, ∃ answer,
  rtMalloc mmAlloc n heap = some answer ∧ answer.2.taken = heap.taken

theorem reuses_large {heap : Heap} {base : Nat} (big : rtLargeMin ≤ needOf n) (present : base ≠ 0)
    (head : heap.largeList = base) (fits : needOf n ≤ heap.size base) : Reuses n heap := by
  intro mmAlloc
  unfold rtMalloc largeFit largeWalk
  rw [head]
  simp only [if_pos big, if_neg present, if_pos fits, ne_eq, not_true_eq_false, if_false]
  exact ⟨_, rfl, rfl⟩

theorem reuses_small_iff {heap : Heap} (low : 48 ≤ needOf n) (small : ¬rtLargeMin ≤ needOf n) :
    Reuses n heap ↔ heap.bins (clsOf (needOf n)) ≠ 0 := by
  have inBand := (clsOf_spec low (not_le.mp small)).1
  unfold Reuses rtMalloc
  simp only [if_neg small, if_pos inBand]
  generalize clsOf (needOf n) = c
  constructor
  · intro reuses empty
    obtain ⟨answer, served, same⟩ := reuses fun _ => some 0
    rw [if_neg (not_not.mpr empty)] at served
    cases served
    exact cons_ne_self _ _ same
  · intro present mmAlloc
    rw [if_pos present]
    exact ⟨_, rfl, rfl⟩

/-- A request that fits a block with whole units does so after rounding too. -/
theorem needOf_le {bytes : Nat} (room : n + headerSize ≤ bytes) (whole : 16 ∣ bytes)
    (small : bytes < 2 ^ 64) : 48 ≤ needOf n ∧ (needOf n ≤ bytes ∨ needOf n = 48) := by
  unfold headerSize at room
  unfold needOf headerSize
  split <;> omega

/--
After any calls, a block in use that is given back lets the next request of its
size be served without the pool exactly when the request is a large one, or its
class has a free block already, or the block has the length of the class and
the class is not the one whose blocks are as long as the large ones.
-/
theorem freed_block_reused_iff (run : Run (HeapStep pool) (bootHeap memory) ops state)
    (used : state.live p = some n) : Reuses n (rtFree p state.heap) ↔ rtLargeMin ≤ needOf n ∨
      state.heap.bins (clsOf (needOf n)) ≠ 0 ∨ clsOf (needOf n) < 20 ∧
        state.heap.size (p - headerSize) = 2 ^ clsOf (needOf n) := by
  obtain ⟨bins, large, shaped⟩ := wellShaped_of_run run
  obtain ⟨base, bytes, rfl, taken, room⟩ := shaped.held used
  have block := shaped.block taken
  have present := shaped.base_ne_zero taken
  have size : state.heap.size base = bytes := block.size
  have short : bytes < 2 ^ 64 := by
    have below := block.below
    have addressable := pool.addressable
    omega
  obtain ⟨low, fits⟩ := needOf_le room (even_of_run run _ taken) short
  rw [Nat.add_sub_cancel, size]
  by_cases big : rtLargeMin ≤ needOf n
  · have fits : needOf n ≤ bytes := by
      refine fits.resolve_right fun least => ?_
      rw [least] at big
      exact absurd big (by decide)
    have long := big.trans fits
    rw [rtFree_large block.magic (Or.inr (long.trans_eq size.symm))]
    refine iff_of_true (reuses_large big present rfl ?_) (Or.inl big)
    exact fits.trans_eq (shaped.block_setNextFree taken _ taken).size.symm
  rw [reuses_small_iff low big, or_iff_right big]
  by_cases long : rtLargeMin ≤ bytes
  · rw [rtFree_large block.magic (Or.inr (long.trans_eq size.symm))]
    refine (or_iff_left ?_).symm
    rintro ⟨lower, rfl⟩
    exact absurd long (not_le.mpr (Nat.pow_lt_pow_right (by decide) lower))
  · rcases block.banded with ⟨-, large⟩ | ⟨least, -, width⟩
    · exact absurd large long
    generalize cls : state.heap.memory.word64 (base + 24) = c at least width
    have lower : c < 20 := by
      rw [width] at long
      exact (Nat.pow_lt_pow_iff_right (by decide)).mp (not_le.mp long)
    rw [rtFree_small block.magic (size.trans width) cls least lower, width]
    by_cases same : clsOf (needOf n) = c
    · rw [same]
      simp [present, lower]
    · have apart : 2 ^ c ≠ 2 ^ clsOf (needOf n) := fun equal =>
        same (Nat.pow_right_injective (le_refl 2) equal).symm
      simp [update_of_ne same, apart]

def smallBlock : HeapState := (bootHeap fun _ => 0).called (.malloc (answerAt 4096) 100)

theorem smallBlock_step : HeapStep pagePool (bootHeap fun _ => 0) (.malloc (answerAt 4096) 100)
    smallBlock :=
  ⟨⟨by decide, answerAt_honest (by decide) (by decide) (by decide)⟩, 4128, rfl⟩

theorem freed_block_reused_small :
    smallBlock.live 4128 = some 100 ∧ Reuses 100 (rtFree 4128 smallBlock.heap) := by
  have used : smallBlock.live 4128 = some 100 := by decide +kernel
  refine ⟨used, (freed_block_reused_iff (.cons smallBlock_step (.nil _)) used).mpr ?_⟩
  decide +kernel

/-- A block of 600000 bytes that is given back does not serve the next request of its size. -/
theorem freed_block_not_reused :
    let state := (bootHeap fun _ => 0).called (.malloc (fun _ => some 4096) 600000)
    state.live 4128 = some 600000 ∧
      (rtMalloc (fun _ => some 2097152) 600000 (rtFree 4128 state.heap)).map
        (fun answer => answer.2.taken) = some [(2097152, 2 ^ 20), (4096, 2 ^ 20)] := by
  decide +kernel

/-! ## Pointers that no call has returned -/

/-- Giving a pointer back leaves the lists and the blocks in use as they are. -/
def Unharmed (p : Nat) (state : HeapState) : Prop :=
  (rtFree p state.heap).bins = state.heap.bins ∧
    (rtFree p state.heap).largeList = state.heap.largeList ∧
    KeepsLive state.heap.taken state.live state.heap.memory (rtFree p state.heap).memory

theorem clsOf_lt {size : Nat} (small : ¬rtLargeMin ≤ size) : clsOf size < nclass := by
  unfold clsOf
  cases found : (range' 4 (nclass - 4)).find? fun c => size ≤ 2 ^ c with
  | none =>
    have tooLong := find?_eq_none.mp found 20 (by decide)
    exact absurd (decide_eq_true (not_le.mp small).le) tooLong
  | some c => exact (mem_range'_1.mp (mem_of_find?_eq_some found)).2

theorem rtFree_skips {heap : Heap} (harmless : p = 0 ∨ heap.magic (p - headerSize) ≠ rtMagic) :
    rtFree p heap = heap := by
  unfold rtFree
  dsimp only
  split_ifs with null <;> first | rfl | exact absurd harmless (not_or.mpr ⟨null, by assumption⟩)

/-- A block with the magic number goes to a list, whatever its class is. -/
theorem rtFree_bins {heap : Heap} {h : Nat} (marked : heap.magic h = rtMagic)
    (small : ¬(heap.cls h = rtLargeClass ∨ rtLargeMin ≤ heap.size h)) :
    ∃ c, (rtFree (h + headerSize) heap).bins = update heap.bins c h := by
  unfold rtFree
  rw [if_neg (by unfold headerSize; omega), Nat.add_sub_cancel]
  dsimp only
  rw [if_neg (not_not.mpr marked), if_neg small]
  have fallback := clsOf_lt (not_or.mp small).2
  generalize heap.cls h % 2 ^ 32 = stored
  generalize clsOf (heap.size h) = computed at fallback
  by_cases band : stored < 4 ∨ nclass ≤ stored
  · rw [if_pos band, if_neg (not_le.mpr fallback)]
    exact ⟨computed, rfl⟩
  · rw [if_neg band, if_neg (not_or.mp band).2]
    exact ⟨stored, rfl⟩

/--
After any calls, a pointer that no call has returned is given back without harm
exactly when it is null or the word before it is not the magic number.
-/
theorem foreign_free_iff (run : Run (HeapStep pool) (bootHeap memory) ops state)
    (foreign : ∀ bytes, (p - headerSize, bytes) ∉ state.heap.taken) (inside : p = 0 ∨ headerSize < p) :
    Unharmed p state ↔ p = 0 ∨ state.heap.magic (p - headerSize) ≠ rtMagic := by
  obtain ⟨bins, large, shaped⟩ := wellShaped_of_run run
  constructor
  · rintro ⟨sameBins, sameLarge, -⟩
    refine or_iff_not_imp_left.mpr fun given marked => ?_
    obtain ⟨h, rfl⟩ : ∃ h, p = h + headerSize := ⟨p - headerSize, by omega⟩
    rw [Nat.add_sub_cancel] at marked foreign
    have present : h ≠ 0 := by omega
    by_cases big : state.heap.cls h = rtLargeClass ∨ rtLargeMin ≤ state.heap.size h
    · rw [rtFree_large marked big] at sameLarge
      have chain := shaped.largeChain
      rw [← sameLarge] at chain
      obtain ⟨rest, shape, -⟩ := chain.eq_cons present
      obtain ⟨bytes, -, taken, -⟩ := shaped.listed (shape ▸ mem_cons_self : h ∈ large)
      exact foreign bytes taken
    · obtain ⟨c, pushed⟩ := rtFree_bins marked big
      have chain := shaped.binChain c
      rw [← sameBins, pushed, update_self] at chain
      obtain ⟨rest, shape, -⟩ := chain.eq_cons present
      have binned := shaped.binned (shape ▸ mem_cons_self : h ∈ bins c)
      exact foreign _ binned.2.1
  · intro harmless
    unfold Unharmed
    rw [rtFree_skips harmless]
    exact ⟨rfl, rfl, KeepsLive.refl _ _ _⟩

theorem foreign_free_stack : Unharmed 4352 smallBlock := by
  refine (foreign_free_iff (.cons smallBlock_step (.nil _)) ?_ (by decide)).mpr (by decide +kernel)
  intro bytes
  have taken : smallBlock.heap.taken = [(4096, 256)] := by decide +kernel
  rw [taken]
  simp [headerSize]

/--
A pointer right behind a block whose last bytes are the magic number is given
back: the inside of the block, which is in use, goes to a free list.
-/
theorem foreign_free_harms :
    let state := ((bootHeap fun _ => 0).called (.malloc (answerAt 4096) 32)).called
      (.store 4128 16 (Words.putLE 8 rtMagic))
    state.live 4128 = some 32 ∧ state.heap.taken = [(4096, 64)] ∧
      (rtFree 4160 state.heap).bins 4 = 4128 := by
  decide +kernel

/-! ## The free lists -/

end Reached

end KernelLane.Rt
