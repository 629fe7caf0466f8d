import KernelLane.RtBlocks
import KernelLane.Runs
import Mathlib.Data.List.Perm.Subperm

namespace KernelLane.Rt

open Function List Nat Option HeapState Or Image

/-!
# The heap is correct

Each call of the heap is put together from the steps that keep its shape.  A
call that hands out a block hands out one that nobody uses and that is large
enough, and no call touches the bytes of the blocks that stay in use.
-/

/-- The blocks in use keep their bytes. -/
def KeepsLive (taken : List (Nat × Nat)) (live : Nat → Option Nat) (before after : Image) : Prop :=
  ∀ base bytes, (base, bytes) ∈ taken → live (base + headerSize) ≠ none →
    ∀ index, base ≤ index → index < base + bytes → after index = before index

theorem KeepsLive.refl (taken : List (Nat × Nat)) (live : Nat → Option Nat) (memory : Image) :
    KeepsLive taken live memory memory :=
  fun _ _ _ _ _ _ _ => rfl

theorem KeepsLive.trans {taken : List (Nat × Nat)} {live : Nat → Option Nat}
    {first second third : Image} (left : KeepsLive taken live first second)
    (right : KeepsLive taken live second third) : KeepsLive taken live first third := by
  intro base bytes member used index low high
  rw [right base bytes member used index low high, left base bytes member used index low high]

section Steps

variable {pool : Pool} {heap : Heap} {live : Nat → Option Nat} {bins : Nat → List Nat}
  {large rest : List Nat} {base bytes node length n need : Nat} {mmAlloc : Nat → Option Nat}

section

variable (shaped : Shaped pool heap live bins large)
include shaped

theorem Shaped.keepsLive_setNextFree (linked : (node, length) ∈ heap.taken)
    (unused : live (node + headerSize) = none) (value : Nat) :
    KeepsLive heap.taken live heap.memory (heap.setNextFree node value).memory := by
  intro base bytes taken used index low high
  have room := (shaped.block linked).header_le
  unfold headerSize at room
  refine setWord64_outside _ ?_
  rcases shaped.same_or_apart linked taken with ⟨rfl, -⟩ | apart
  · exact absurd unused used
  · omega

theorem Shaped.not_mem_bins (member : node ∈ large) (c : Nat) : node ∉ bins c := by
  intro inBin
  obtain ⟨small, taken, -⟩ := shaped.binned inBin
  obtain ⟨bytes, big, found, -⟩ := shaped.listed member
  have same := shaped.bytes_eq taken found
  have bound : 2 ^ c < rtLargeMin := Nat.pow_lt_pow_right (by decide) small
  omega

theorem Shaped.length_large : large.length ≤ heap.taken.length := by
  have starts : large ⊆ heap.taken.map Prod.fst := by
    intro node member
    obtain ⟨bytes, -, taken, -⟩ := shaped.listed member
    exact mem_map_of_mem taken
  have shorter := (shaped.largeNodup.subperm starts).length_le
  rwa [length_map] at shorter

theorem Shaped.unlisted_popped {c : Nat} (shape : bins c = node :: rest) :
    Unlisted (update bins c rest) large node := by
  have member : node ∈ bins c := by
    rw [shape]
    exact mem_cons_self
  obtain ⟨-, taken, -⟩ := shaped.binned member
  refine ⟨?_, fun inLarge => shaped.not_mem_bins inLarge c member⟩
  intro other inOther
  by_cases same : other = c
  · subst same
    rw [update_self] at inOther
    have distinct := shaped.binNodup other
    rw [shape] at distinct
    exact (nodup_cons.mp distinct).1 inOther
  · rw [update_of_ne same] at inOther
    have lengths := shaped.bytes_eq taken (shaped.binned inOther).2.1
    exact same (Nat.pow_right_injective (le_refl 2) lengths).symm

/-! ## Taking a block -/

/-- What a request gets: null, or a block that is large enough. -/
structure Served (pool : Pool) (live : Nat → Option Nat) (before : Heap) (n : Nat)
    (answer : Nat × Heap) (bins : Nat → List Nat)
    (large : List Nat) : Prop where
  shaped : Shaped pool answer.2 live bins large
  grown : ∀ range ∈ before.taken, range ∈ answer.2.taken
  kept : KeepsLive before.taken live before.memory answer.2.memory
  block : answer.1 ≠ 0 → ∃ base bytes, answer.1 = base + headerSize ∧
    (base, bytes) ∈ answer.2.taken ∧
    n + headerSize ≤ bytes ∧
    Unlisted bins large base ∧
    live answer.1 = none

theorem served_reused {before : Heap} (same : heap.taken = before.taken)
    (kept : KeepsLive before.taken live before.memory heap.memory)
    (taken : (node, bytes) ∈ heap.taken) (room : n + headerSize ≤ bytes)
    (unlisted : Unlisted bins large node) (unused : live (node + headerSize) = none) :
    Served pool live before n (node + headerSize, heap.setMagic node) bins large := by
  have marked : heap.setMagic node = heap := by
    unfold Heap.setMagic
    rw [setWord64_self (shaped.block taken).magic]
  rw [marked]
  exact
    { shaped := shaped
      grown := fun range member => same ▸ member
      kept := kept
      block := fun _ => ⟨node, bytes, rfl, taken, room, unlisted, unused⟩ }

theorem served_fresh
    (honest : ∀ bytes base, mmAlloc bytes = some base → Fresh pool heap.taken base bytes)
    {cls : Nat} (banded : Banded cls bytes) (room : n + headerSize ≤ bytes) :
    Served pool live heap n (takeFresh mmAlloc bytes cls heap) bins large := by
  unfold takeFresh
  cases answer : mmAlloc bytes with
  | none =>
    exact
      { shaped := shaped
        grown := fun _ member => member
        kept := KeepsLive.refl _ _ _
        block := fun present => absurd rfl present }
  | some base =>
    have unused := honest bytes base answer
    have header := banded.header_le
    have absent : ∀ length, (base, length) ∉ heap.taken := by
      intro length member
      have apart := unused.2.2.2 _ member
      have other := (shaped.block member).header_le
      unfold headerSize at header other
      omega
    exact
      { shaped := shaped.fresh unused banded
        grown := fun _ member => mem_cons_of_mem _ member
        kept := by
          intro other length member used index low high
          have apart := unused.2.2.2 _ member
          unfold headerSize at header
          exact heap.fresh_outside base bytes cls (by omega)
        block := by
          intro _
          refine ⟨base, bytes, rfl, mem_cons_self, room, ⟨?_, ?_⟩, ?_⟩
          · intro c member
            exact absent _ (shaped.binned member).2.1
          · intro member
            obtain ⟨length, -, found, -⟩ := shaped.listed member
            exact absent _ found
          · cases used : live (base + headerSize) with
            | none => rfl
            | some requested =>
              obtain ⟨other, length, shape, found, -⟩ := shaped.held used
              obtain rfl := add_right_cancel shape
              exact absurd found (absent _) }

end

def Heap.unlinked (heap : Heap) (prev h : Nat) : Heap :=
  if prev ≠ 0 then heap.setNextFree prev (heap.nextFree h)
  else { heap with largeList := heap.nextFree h }

theorem Shaped.unlinked {earlier : List Nat} {prev h : Nat}
    (shaped : Shaped pool heap live bins (earlier ++ h :: rest))
    (before : earlier = [] ∧ prev = 0 ∨ ∃ others, earlier = others ++ [prev]) :
    Shaped pool (heap.unlinked prev h) live bins (earlier ++ rest) ∧
      (heap.unlinked prev h).taken = heap.taken ∧
      KeepsLive heap.taken live heap.memory (heap.unlinked prev h).memory := by
  unfold Heap.unlinked
  rcases before with ⟨rfl, rfl⟩ | ⟨others, rfl⟩
  · rw [if_neg (not_not.mpr rfl)]
    exact ⟨shaped.popLarge rfl, rfl, KeepsLive.refl _ _ _⟩
  · obtain ⟨bytes, -, linked, unused⟩ :=
      shaped.listed (by simp : prev ∈ others ++ [prev] ++ h :: rest)
    rw [if_pos (shaped.base_ne_zero linked)]
    refine ⟨?_, rfl, shaped.keepsLive_setNextFree linked unused _⟩
    rw [append_assoc] at shaped ⊢
    exact shaped.skipLarge

theorem largeWalk_spec (need : Nat) (earlier : List Nat) {budget prev h : Nat}
    (shaped : Shaped pool heap live bins (earlier ++ rest)) (enough : rest.length < budget)
    (before : earlier = [] ∧ prev = 0 ∨ ∃ others, earlier = others ++ [prev])
    (here : Chain heap.nextFree h rest) :
    largeWalk need budget prev h heap = some (none, heap) ∨ ∃ node bytes left after,
      largeWalk need budget prev h heap = some (some node, after) ∧ need ≤ bytes ∧
        (node, bytes) ∈ after.taken ∧ live (node + headerSize) = none ∧ Unlisted bins left node ∧
        Shaped pool after live bins left ∧ after.taken = heap.taken ∧
        KeepsLive heap.taken live heap.memory after.memory := by
  induction rest generalizing earlier prev h budget with
  | nil =>
    obtain ⟨fewer, rfl⟩ : ∃ fewer, budget = fewer + 1 :=
      ⟨budget - 1, by rw [length_nil] at enough; omega⟩
    obtain rfl : h = 0 := here
    exact inl rfl
  | cons node rest hypothesis =>
    rw [length_cons] at enough
    obtain ⟨fewer, rfl⟩ : ∃ fewer, budget = fewer + 1 := ⟨budget - 1, by omega⟩
    obtain ⟨rfl, present, later⟩ := here
    have inside : h ∈ earlier ++ h :: rest := by simp
    obtain ⟨bytes, -, taken, unused⟩ := shaped.listed inside
    rw [largeWalk, if_neg present]
    by_cases fits : need ≤ heap.size h
    · have size : heap.size h = bytes := (shaped.block taken).size
      rw [if_pos fits]
      rw [size] at fits
      obtain ⟨without, same, kept⟩ := shaped.unlinked before
      have unlisted : Unlisted bins (earlier ++ rest) h :=
        ⟨shaped.not_mem_bins inside, (nodup_cons.mp (nodup_middle.mp shaped.largeNodup)).1⟩
      have stillTaken : (h, bytes) ∈ (heap.unlinked prev h).taken := by
        rw [same]
        exact taken
      refine inr ⟨h, bytes, earlier ++ rest, _, rfl, fits, stillTaken, unused,
        unlisted, without.setNextFree stillTaken unlisted 0, same, ?_⟩
      have cleared := without.keepsLive_setNextFree stillTaken unused 0
      rw [same] at cleared
      exact kept.trans cleared
    · rw [if_neg fits]
      refine hypothesis (earlier ++ [h]) ?_ (by omega) (inr ⟨earlier, rfl⟩) later
      rw [append_assoc]
      exact shaped

theorem needOf_spec (small : n < 2 ^ 63) : n + headerSize ≤ needOf n ∧ 48 ≤ needOf n := by
  unfold needOf headerSize
  split <;> omega

theorem clsOf_spec (low : 48 ≤ need) (high : need < rtLargeMin) :
    clsOf need < nclass ∧ 5 ≤ clsOf need ∧ need ≤ 2 ^ clsOf need := by
  unfold clsOf
  cases found : (range' 4 (nclass - 4)).find? fun c => need ≤ 2 ^ c with
  | none =>
    have none := List.find?_eq_none.mp found 20 (by decide)
    rw [decide_eq_true_eq] at none
    exact absurd high.le none
  | some c =>
    have fits := List.find?_some found
    rw [decide_eq_true_eq] at fits
    have member := mem_of_find?_eq_some found
    rw [mem_range'_1] at member
    refine ⟨member.2, ?_, fits⟩
    rw [getD_some]
    by_contra tiny
    have power : 2 ^ c ≤ 2 ^ 4 := Nat.pow_le_pow_right Nat.two_pos (by omega)
    omega

theorem rtMalloc_spec (shaped : Shaped pool heap live bins large)
    (honest : ∀ bytes base, mmAlloc bytes = some base → Fresh pool heap.taken base bytes)
    (small : n < 2 ^ 63) : ∃ answer bins large, rtMalloc mmAlloc n heap = some answer ∧
      Served pool live heap n answer bins large := by
  obtain ⟨room, low⟩ := needOf_spec small
  unfold rtMalloc
  by_cases big : rtLargeMin ≤ needOf n
  · rw [if_pos big]
    have enough := lt_succ_of_le shaped.length_large
    rcases largeWalk_spec (needOf n) [] shaped enough (inl ⟨rfl, rfl⟩) shaped.largeChain with
      missed | ⟨node, bytes, left, after, found, fits, taken, unused,
        unlisted, shapedAfter, same, kept⟩
    · rw [largeFit, missed]
      exact ⟨_, bins, large, rfl, served_fresh shaped honest (inl ⟨rfl, big⟩) room⟩
    · rw [largeFit, found]
      exact ⟨_, bins, left, rfl, served_reused shapedAfter same kept taken (room.trans fits)
        unlisted unused⟩
  · rw [if_neg big]
    obtain ⟨inside, above, fits⟩ := clsOf_spec low (not_le.mp big)
    rw [if_pos inside]
    by_cases present : heap.bins (clsOf (needOf n)) ≠ 0
    · rw [if_pos present]
      obtain ⟨rest, shape, popped⟩ := shaped.popBin present
      have member : heap.bins (clsOf (needOf n)) ∈ bins (clsOf (needOf n)) := by
        rw [shape]
        exact mem_cons_self
      obtain ⟨-, taken, unused⟩ := shaped.binned member
      exact ⟨_, _, large, rfl, served_reused popped rfl (KeepsLive.refl _ _ _) taken
        (room.trans fits) (shaped.unlisted_popped shape) unused⟩
    · rw [if_neg present]
      have banded : Banded (clsOf (needOf n)) (2 ^ clsOf (needOf n)) :=
        inr ⟨above, le_of_lt_succ inside, rfl⟩
      exact ⟨_, bins, large, rfl, served_fresh shaped honest banded (room.trans fits)⟩

/-! ## Giving a block back -/

theorem rtFree_large (marked : heap.magic base = rtMagic)
    (big : heap.cls base = rtLargeClass ∨ rtLargeMin ≤ heap.size base) :
    rtFree (base + headerSize) heap =
      { heap.setNextFree base heap.largeList with largeList := base } := by
  unfold rtFree
  rw [if_neg (by unfold headerSize; omega)]
  rw [Nat.add_sub_cancel, if_neg (not_not.mpr marked), if_pos big]

theorem rtFree_small {c : Nat} (marked : heap.magic base = rtMagic) (size : heap.size base = 2 ^ c)
    (cls : heap.cls base = c) (low : 5 ≤ c) (high : c < 20) : rtFree (base + headerSize) heap =
      { heap.setNextFree base (heap.bins c) with
        bins := update heap.bins c base } := by
  have short : ¬rtLargeMin ≤ heap.size base := by
    rw [size]
    exact not_le.mpr (Nat.pow_lt_pow_right (by decide) high)
  have banded : ¬heap.cls base = rtLargeClass := by
    unfold rtLargeClass
    omega
  have stored : heap.cls base % 2 ^ 32 = c := by omega
  unfold rtFree
  rw [if_neg (by unfold headerSize; omega)]
  dsimp only
  rw [Nat.add_sub_cancel, if_neg (not_not.mpr marked), if_neg (not_or.mpr ⟨banded, short⟩), stored,
    if_neg (by unfold nclass; omega : ¬(c < 4 ∨ nclass ≤ c)), if_neg (by unfold nclass; omega)]

theorem Shaped.head_lt (shaped : Shaped pool heap live bins large) {head : Nat} {nodes : List Nat}
    (chain : Chain heap.nextFree head nodes)
    (blocks : ∀ node ∈ nodes, ∃ bytes, (node, bytes) ∈ heap.taken) : head < 2 ^ 64 := by
  cases nodes with
  | nil =>
    obtain rfl : head = 0 := chain
    exact Nat.two_pow_pos 64
  | cons node rest =>
    obtain ⟨rfl, -⟩ := chain
    obtain ⟨bytes, taken⟩ := blocks head mem_cons_self
    have block := shaped.block taken
    have room := block.header_le
    have below := block.below
    have addressable := pool.addressable
    unfold headerSize at room
    omega

theorem rtFree_spec (shaped : Shaped pool heap live bins large) {p : Nat} (used : live p = some n) :
    ∃ bins large, Shaped pool (rtFree p heap) (update live p none) bins large ∧
      (rtFree p heap).taken = heap.taken ∧ ∀ index, index < p - headerSize ∨ p ≤ index →
        (rtFree p heap).memory index = heap.memory index := by
  obtain ⟨base, bytes, rfl, taken, -⟩ := shaped.held used
  have unlisted := shaped.unlisted_of_live used
  have unused : update live (base + headerSize) none (base + headerSize) = none := update_self ..
  have block := shaped.block taken
  have buried := shaped.bury (base + headerSize)
  have untouched : ∀ value index, index < base + headerSize - headerSize ∨
        base + headerSize ≤ index →
      (heap.setNextFree base value).memory index = heap.memory index := by
    intro value index outside
    unfold headerSize at outside
    exact setWord64_outside _ (by omega)
  have linked : ∀ value, value < 2 ^ 64 → (heap.setNextFree base value).nextFree base = value :=
    fun value small => word64_setWord64 _ _ small
  by_cases big : rtLargeMin ≤ bytes
  · have size : rtLargeMin ≤ heap.size base := by
      rw [Heap.size, block.size]
      exact big
    have address : heap.largeList < 2 ^ 64 :=
      shaped.head_lt shaped.largeChain fun node member => by
        obtain ⟨length, -, found, -⟩ := shaped.listed member
        exact ⟨length, found⟩
    rw [rtFree_large block.magic (inr size)]
    refine ⟨bins, base :: large, ?_, rfl, untouched _⟩
    exact (buried.setNextFree taken unlisted heap.largeList).pushLarge big taken
      unlisted unused (linked _ address)
  · rcases block.banded with ⟨-, huge⟩ | ⟨low, -, size⟩
    · exact absurd huge big
    · have high : heap.cls base < 20 := by
        by_contra outside
        exact big (size ▸ Nat.pow_le_pow_right Nat.two_pos (not_lt.mp outside))
      have address : heap.bins (heap.cls base) < 2 ^ 64 :=
        shaped.head_lt (shaped.binChain _) fun node member => ⟨_, (shaped.binned member).2.1⟩
      have length : heap.size base = 2 ^ heap.cls base := block.size.trans size
      rw [rtFree_small block.magic length rfl low high]
      refine ⟨update bins (heap.cls base) (base :: bins (heap.cls base)),
        large, ?_, rfl, untouched _⟩
      exact (buried.setNextFree taken unlisted _).pushBin high (size ▸ taken)
        unlisted unused (linked _ address)

end Steps

/-! ## Programs -/

/-- The heap of a state has its shape. -/
def HeapState.WellShaped (pool : Pool) (state : HeapState) : Prop :=
  ∃ bins large, Shaped pool state.heap state.live bins large

def HeapState.blockEnd (state : HeapState) (p : Nat) : Nat :=
  p - headerSize + state.heap.size (p - headerSize)

/--
The blocks in use, with their headers, do not overlap and lie in the pool, and
each has room for what was asked for.
-/
structure HeapState.Sound (pool : Pool) (state : HeapState) : Prop where
  disjoint : ∀ p q, (state.live p).isSome = true → (state.live q).isSome = true → p ≠ q →
    state.blockEnd p ≤ q - headerSize ∨ state.blockEnd q ≤ p - headerSize
  inside : ∀ p, (state.live p).isSome = true → pool.lo ≤ p - headerSize ∧ state.blockEnd p ≤ pool.hi
  capacity : ∀ p n, state.live p = some n → n ≤ state.heap.size (p - headerSize) - headerSize

/-- What a call promises about its answer and the state after it. -/
def Honoured (before : HeapState) (op : HeapOp) (p : Nat) (after : HeapState) : Prop :=
  match op with
  | .malloc _ n => p = 0 ∨ after.live p = some n.toNat
  | .calloc _ n sz =>
    p = 0 ∨ after.live p = some (n.toNat * sz.toNat) ∧ ∀ index, index < n.toNat * sz.toNat →
      after.heap.memory (p + index) = 0
  | .realloc _ old n =>
    p = 0 ∨ after.live p = some n.toNat ∧ ∀ index, index < min ((before.live old).getD 0) n.toNat →
      after.heap.memory (p + index) = before.heap.memory (old + index)
  | .free _ => True
  | .store _ _ _ => True

/-- The call ends, keeps the shape and does what it promises. -/
def Ends (pool : Pool) (state : HeapState) (op : HeapOp) : Prop :=
  ∃ p after, state.perform op = some (p, after) ∧ after.WellShaped pool ∧ Honoured state op p after

section Programs

variable {pool : Pool} {state : HeapState}

theorem HeapState.WellShaped.sound (shaped : state.WellShaped pool) : state.Sound pool := by
  obtain ⟨bins, large, shaped⟩ := shaped
  have blockOf : ∀ p n, state.live p = some n → ∃ base bytes, p = base + headerSize ∧
      (base, bytes) ∈ state.heap.taken ∧
      n + headerSize ≤ bytes ∧
      p - headerSize = base ∧
      state.heap.size (p - headerSize) = bytes := by
    intro p n used
    obtain ⟨base, bytes, rfl, taken, room⟩ := shaped.held used
    refine ⟨base, bytes, rfl, taken, room, Nat.add_sub_cancel .., ?_⟩
    exact (shaped.block taken).size
  constructor
  · intro p q usedP usedQ different
    obtain ⟨n, usedP⟩ := isSome_iff_exists.mp usedP
    obtain ⟨m, usedQ⟩ := isSome_iff_exists.mp usedQ
    obtain ⟨base, bytes, rfl, taken, -, start, size⟩ := blockOf p n usedP
    obtain ⟨other, length, rfl, found, -, begin, extent⟩ := blockOf q m usedQ
    unfold blockEnd
    have cases := shaped.same_or_apart taken found
    omega
  · intro p used
    obtain ⟨n, used⟩ := isSome_iff_exists.mp used
    obtain ⟨base, bytes, -, taken, -, start, size⟩ := blockOf p n used
    have block := shaped.block taken
    unfold blockEnd
    rw [size, start]
    exact ⟨block.above, block.below⟩
  · intro p n used
    obtain ⟨base, bytes, -, -, room, -, size⟩ := blockOf p n used
    omega

variable {live : Nat → Option Nat} {n : Nat} {answer : Nat × Heap} {bins : Nat → List Nat}
  {large : List Nat} {mmAlloc : Nat → Option Nat} {heap : Heap} {base bytes : Nat}
  {memory : Image}

theorem Served.granted {before : Heap} (served : Served pool live before n answer bins large) :
    HeapState.WellShaped pool ⟨answer.2, granted live answer.1 n⟩ := by
  refine ⟨bins, large, ?_⟩
  unfold Rt.granted
  by_cases null : answer.1 = 0
  · rw [if_pos null]
    exact served.shaped
  obtain ⟨base, bytes, shape, taken, room, unlisted, -⟩ := served.block null
  rw [shape]
  exact served.shaped.enliven taken unlisted room

theorem malloc_honoured {n : UInt64} (shaped : state.WellShaped pool)
    (allowed : Allowed pool state (.malloc mmAlloc n)) : Ends pool state (.malloc mmAlloc n) := by
  obtain ⟨bins, large, shaped⟩ := shaped
  obtain ⟨small, honest⟩ := allowed
  obtain ⟨answer, bins', large', done, served⟩ := rtMalloc_spec shaped honest small
  refine ⟨answer.1, _, by rw [perform, done]; rfl, served.granted, ?_⟩
  by_cases null : answer.1 = 0
  · exact inl null
  refine inr ?_
  unfold granted
  rw [if_neg null]
  exact update_self ..

theorem Shaped.withInside (shaped : Shaped pool heap live bins large)
    (taken : (base, bytes) ∈ heap.taken)
    (same : ∀ index, index < base + headerSize ∨ base + bytes ≤ index →
      memory index = heap.memory index) :
    Shaped pool { heap with memory := memory } live bins large := by
  refine shaped.withBytes fun {other length} member index low high => ?_
  refine same index ?_
  have cases := shaped.same_or_apart taken member
  omega

theorem Served.filled {before : Heap} (served : Served pool live before n answer bins large)
    (present : answer.1 ≠ 0) (same : ∀ index, index < answer.1 ∨ answer.1 + n ≤ index →
      memory index = answer.2.memory index) :
    Served pool live before n (answer.1, { answer.2 with memory := memory }) bins large := by
  obtain ⟨base, bytes, shape, taken, room, unlisted, unused⟩ := served.block present
  refine
    { shaped := served.shaped.withInside taken ?_
      grown := served.grown
      kept := ?_
      block := fun _ => ⟨base, bytes, shape, taken, room, unlisted, unused⟩ }
  · intro index outside
    exact same index (by omega)
  · intro other length member used index low high
    refine (same index ?_).trans (served.kept other length member used index low high)
    rcases served.shaped.same_or_apart taken (served.grown _ member) with
      ⟨rfl, -⟩ | apart
    · rw [shape] at unused
      exact absurd unused used
    · omega

theorem product_lt {sz : Nat} (checked : ¬(n ≠ 0 ∧ (2 ^ 64 - 1) / n < sz)) : n * sz < 2 ^ 64 := by
  by_cases zero : n = 0
  · rw [zero, zero_mul]
    exact Nat.two_pow_pos 64
  have quotient : sz ≤ (2 ^ 64 - 1) / n := not_lt.mp fun less => checked ⟨zero, less⟩
  have product := (le_div_iff_mul_le (pos_of_ne_zero zero)).mp quotient
  rw [mul_comm] at product
  omega

theorem calloc_honoured {n sz : UInt64} (shaped : state.WellShaped pool)
    (allowed : Allowed pool state (.calloc mmAlloc n sz)) :
    Ends pool state (.calloc mmAlloc n sz) := by
  obtain ⟨bins, large, shaped⟩ := shaped
  obtain ⟨sized, honest⟩ := allowed
  unfold Ends perform
  dsimp only
  unfold rtCalloc
  by_cases wrapped : n.toNat ≠ 0 ∧ (2 ^ 64 - 1) / n.toNat < sz.toNat
  · rw [if_pos wrapped]
    exact ⟨0, _, rfl, ⟨bins, large, shaped⟩, inl rfl⟩
  rw [if_neg wrapped]
  have fits := product_lt wrapped
  have small : n.toNat * sz.toNat < 2 ^ 63 := sized.resolve_right (not_le.mpr fits)
  dsimp only
  rw [mod_eq_of_lt fits]
  obtain ⟨answer, bins', large', done, served⟩ := rtMalloc_spec shaped honest small
  rw [done]
  dsimp only
  by_cases null : answer.1 = 0
  · rw [if_pos null]
    refine ⟨0, _, rfl, ?_, inl rfl⟩
    have after := served.granted
    rwa [null] at after
  · rw [if_neg null]
    have cleared : ∀ index, index < answer.1 ∨ answer.1 + n.toNat * sz.toNat ≤ index →
        answer.2.memory.zeroBytes answer.1 (n.toNat * sz.toNat) index = answer.2.memory index := by
      intro index outside
      rw [zeroBytes_apply, if_neg (by omega)]
    refine ⟨answer.1, _, rfl, (served.filled null cleared).granted, inr ⟨?_, ?_⟩⟩
    · unfold granted
      rw [if_neg null]
      exact update_self ..
    · intro index inside
      exact (zeroBytes_apply ..).trans (if_pos (by omega))

theorem Shaped.live_zero (shaped : Shaped pool heap live bins large) : live 0 = none := by
  cases used : live 0 with
  | none => rfl
  | some n =>
    obtain ⟨base, bytes, shape, -, -⟩ := shaped.held used
    unfold headerSize at shape
    omega

theorem Block.capacity (block : Block pool heap.memory base bytes) :
    (heap.size base + 2 ^ 64 - headerSize) % 2 ^ 64 = bytes - headerSize := by
  have size : heap.size base = bytes := block.size
  have small := word64_lt heap.memory base
  rw [block.size] at small
  have room := block.header_le
  omega

theorem moved_honoured {old : Nat} (used : live (base + headerSize) = some old)
    (taken : (base, bytes) ∈ heap.taken) (outgrown : bytes - headerSize < n)
    (served : Served pool live heap n answer bins large) (present : answer.1 ≠ 0)
    (copied : answer.2.memory.copyBytes answer.1 (base + headerSize) (bytes - headerSize) =
      memory) :
    HeapState.WellShaped pool ⟨rtFree (base + headerSize) { answer.2 with memory := memory },
        granted (update live (base + headerSize) none) answer.1 n⟩ ∧
      ∀ index, index < bytes - headerSize → (rtFree (base + headerSize)
          { answer.2 with memory := memory }).memory
          (answer.1 + index) =
        heap.memory (base + headerSize + index) := by
  obtain ⟨target, length, shape, found, room, unlisted, unused⟩ := served.block present
  have different : base ≠ target := by
    rintro rfl
    rw [shape, used] at unused
    exact nomatch unused
  have apart :=
    (served.shaped.same_or_apart found (served.grown _ taken)).resolve_left
      fun same => different same.1.symm
  have place : ∀ index, memory index =
      if answer.1 ≤ index ∧ index < answer.1 + (bytes - headerSize) then
        answer.2.memory (base + headerSize + (index - answer.1))
      else answer.2.memory index := by
    rw [← copied]
    exact copyBytes_apply _ (by omega)
  have filled : Shaped pool { answer.2 with memory := memory } live bins large :=
    (served.filled present fun index outside => (place index).trans (if_neg (by omega))).shaped
  have revived := filled.enliven found unlisted room
  have distinct : base + headerSize ≠ target + headerSize := by omega
  have stillUsed : update live (target + headerSize) (some n) (base + headerSize) = some old := by
    rw [update_of_ne distinct]
    exact used
  obtain ⟨freed, others, final, -, untouched⟩ := rtFree_spec revived stillUsed
  constructor
  · refine ⟨freed, others, ?_⟩
    unfold granted
    rw [shape, update_comm distinct]
    dsimp only at final ⊢
    exact final
  · intro index inside
    rw [untouched _ (by omega)]
    have moved := place (answer.1 + index)
    rw [if_pos (by omega), Nat.add_sub_cancel_left] at moved
    refine moved.trans ?_
    refine served.kept base bytes taken ?_ _ (by omega) (by omega)
    rw [used]
    exact some_ne_none old

section

variable (shaped : state.WellShaped pool)
include shaped

theorem realloc_honoured {p : Nat} {n : UInt64}
    (allowed : Allowed pool state (.realloc mmAlloc p n)) :
    Ends pool state (.realloc mmAlloc p n) := by
  obtain ⟨bins, large, shaped⟩ := shaped
  obtain ⟨held, small, honest⟩ := allowed
  obtain ⟨answer, bins', large', done, served⟩ := rtMalloc_spec shaped honest small
  unfold Ends perform
  dsimp only
  unfold rtRealloc
  rcases held with rfl | used
  · have same : update state.live 0 none = state.live := by
      rw [update_eq_self_iff]
      exact shaped.live_zero.symm
    rw [done]
    refine ⟨answer.1, _, rfl, ?_, ?_⟩
    · rw [same]
      by_cases null : answer.1 = 0
      · rw [if_pos null]
        exact ⟨bins', large', served.shaped⟩
      · rw [if_neg null]
        exact served.granted
    · by_cases null : answer.1 = 0
      · exact inl null
      refine inr ⟨?_, ?_⟩
      · rw [if_neg null, granted, if_neg null]
        exact update_self ..
      · intro index inside
        rw [shaped.live_zero, getD_none] at inside
        omega
  · obtain ⟨old, used⟩ := isSome_iff_exists.mp used
    obtain ⟨base, bytes, rfl, taken, held⟩ := shaped.held used
    have block := shaped.block taken
    have marked : state.heap.magic base = rtMagic := block.magic
    rw [Nat.add_sub_cancel, if_neg (not_not.mpr marked), block.capacity]
    by_cases fits : n.toNat ≤ bytes - headerSize
    · rw [if_pos fits]
      refine ⟨base + headerSize, _, rfl, ?_, inr ⟨?_, fun _ _ => rfl⟩⟩
      · rw [granted, update_idem]
        exact ⟨bins, large, shaped.enliven taken (shaped.unlisted_of_live used) (by omega)⟩
      · exact update_self ..
    · rw [if_neg fits, done]
      dsimp only
      by_cases null : answer.1 = 0
      · rw [if_pos null]
        exact ⟨0, _, rfl, ⟨bins', large', served.shaped⟩, inl rfl⟩
      rw [if_neg null, if_pos (not_le.mp fits)]
      obtain ⟨wellShaped, bytesKept⟩ := moved_honoured used taken (not_le.mp fits) served null rfl
      refine ⟨answer.1, _, rfl, ?_, inr ⟨?_, ?_⟩⟩
      · rw [if_neg null]
        dsimp only at wellShaped ⊢
        exact wellShaped
      · rw [if_neg null, granted, if_neg null]
        exact update_self ..
      · intro index inside
        rw [used, getD_some] at inside
        have kept := bytesKept index (by omega)
        dsimp only at kept ⊢
        exact kept

theorem free_honoured {p : Nat} (allowed : Allowed pool state (.free p)) :
    HeapState.WellShaped pool ⟨rtFree p state.heap, update state.live p none⟩ := by
  obtain ⟨bins, large, shaped⟩ := shaped
  rcases allowed with rfl | used
  · exact ⟨bins, large, shaped.bury 0⟩
  · obtain ⟨n, used⟩ := isSome_iff_exists.mp used
    obtain ⟨freed, others, final, -⟩ := rtFree_spec shaped used
    exact ⟨freed, others, final⟩

theorem store_honoured {p offset : Nat} {bytes : Bytes}
    (allowed : Allowed pool state (.store p offset bytes)) : HeapState.WellShaped pool { state with
        heap :=
          { state.heap with
            memory := state.heap.memory.splice (p + offset) bytes } } := by
  obtain ⟨bins, large, shaped⟩ := shaped
  obtain ⟨n, used, inside⟩ := allowed
  obtain ⟨base, length, rfl, taken, room⟩ := shaped.held used
  refine ⟨bins, large, shaped.withInside taken fun index outside => ?_⟩
  exact splice_outside _ (by omega)

theorem perform_honoured {op : HeapOp} (allowed : Allowed pool state op) : Ends pool state op := by
  cases op with
  | malloc mmAlloc n => exact malloc_honoured shaped allowed
  | calloc mmAlloc n sz => exact calloc_honoured shaped allowed
  | realloc mmAlloc p n => exact realloc_honoured shaped allowed
  | free p => exact ⟨0, _, rfl, free_honoured shaped allowed, trivial⟩
  | store p offset bytes => exact ⟨0, _, rfl, store_honoured shaped allowed, trivial⟩

end

theorem bootHeap_wellShaped (memory : Image) : (bootHeap memory).WellShaped pool :=
  ⟨fun _ => [], [],
    { apart := List.Pairwise.nil
      block := fun member => nomatch member
      binChain := fun _ => rfl
      binNodup := fun _ => nodup_nil
      binned := fun member => nomatch member
      largeChain := rfl
      largeNodup := nodup_nil
      listed := fun member => nomatch member
      held := fun used => nomatch used }⟩

theorem wellShaped_of_run {ops : List HeapOp}
    (run : Run (HeapStep pool) (bootHeap memory) ops state) : state.WellShaped pool := by
  refine run.invariant ?_ (bootHeap_wellShaped memory)
  rintro before op after shaped ⟨allowed, p, done⟩
  obtain ⟨q, next, same, wellShaped, -⟩ := perform_honoured shaped allowed
  rw [done] at same
  obtain ⟨-, rfl⟩ := Prod.mk.inj (some.inj same)
  exact wellShaped

/--
After any calls of a correct program the blocks in use do not overlap, lie in
the pool and are large enough, and the next call ends and does what it
promises: cleared memory is zero, and a resized block keeps its bytes.
-/
theorem heap_correct {ops : List HeapOp} (run : Run (HeapStep pool) (bootHeap memory) ops state) :
    state.Sound pool ∧ ∀ op, Allowed pool state op → ∃ p after, state.perform op = some (p, after) ∧
      HeapStep pool state op after ∧ Honoured state op p after := by
  have shaped := wellShaped_of_run run
  refine ⟨shaped.sound, fun op allowed => ?_⟩
  obtain ⟨p, after, done, -, honoured⟩ := perform_honoured shaped allowed
  exact ⟨p, after, done, ⟨allowed, p, done⟩, honoured⟩

def pagePool : Pool where
  lo := 4096
  hi := 8192
  positive := by decide
  addressable := by decide

def answerAt (base bytes : Nat) : Option Nat :=
  if base + bytes ≤ 8192 then some base else none

def growingProgram : List HeapOp :=
  [.malloc (answerAt 4096) 100, .realloc (answerAt 4352) 4128 1000]

def HeapState.called (state : HeapState) (op : HeapOp) : HeapState :=
  ((state.perform op).map Prod.snd).getD state

theorem answerAt_honest (aligned : 16 ∣ base) (above : 4096 ≤ base)
    (behind : ∀ range ∈ state.heap.taken, range.1 + range.2 ≤ base) :
    Honest pagePool state (answerAt base) := by
  intro bytes start answered
  unfold answerAt at answered
  split at answered
  next fits =>
    obtain rfl := some.inj answered
    exact ⟨aligned, above, fits, fun range member => inr (behind range member)⟩
  · exact nomatch answered

theorem heap_correct_growing : HeapState.Sound pagePool
    (growingProgram.foldl called (bootHeap fun _ => 0)) := by
  have first : HeapStep pagePool (bootHeap fun _ => 0) (.malloc (answerAt 4096) 100)
      (called (bootHeap fun _ => 0) (.malloc (answerAt 4096) 100)) := by
    exact ⟨⟨by decide, answerAt_honest (by decide) (by decide) (by decide)⟩, 4128, rfl⟩
  have second : HeapStep pagePool (called (bootHeap fun _ => 0) (.malloc (answerAt 4096) 100))
      (.realloc (answerAt 4352) 4128 1000)
      (growingProgram.foldl called (bootHeap fun _ => 0)) := by
    exact ⟨⟨inr (by decide +kernel), by decide,
        answerAt_honest (by decide) (by decide) (by decide +kernel)⟩,
      4384, rfl⟩
  exact (heap_correct (.cons first (.cons second (.nil _)))).1

end Programs

end KernelLane.Rt
