import Mathlib.Data.List.Basic

namespace KernelLane

/-!
# Null-terminated chains

A singly linked list in memory: every node holds the address of the next one,
and zero ends the list.  The links are any function, so a chain survives every
change that leaves the links of its nodes alone.
-/

/-- The nodes that are reached from a head by following the links. -/
def Chain (next : Nat → Nat) : Nat → List Nat → Prop
  | head, [] => head = 0
  | head, node :: rest => head = node ∧ node ≠ 0 ∧ Chain next (next node) rest

namespace Chain

variable {next other : Nat → Nat} {head node : Nat} {nodes rest : List Nat}

/-- Links outside the chain do not matter. -/
theorem congr (chain : Chain next head nodes) (same : ∀ node ∈ nodes, other node = next node) :
    Chain other head nodes := by
  induction nodes generalizing head with
  | nil => exact chain
  | cons node rest hypothesis =>
    refine ⟨chain.1, chain.2.1, ?_⟩
    rw [same node List.mem_cons_self]
    exact hypothesis chain.2.2 fun later member => same later (List.mem_cons_of_mem _ member)

/-- A head that is not null is the first node. -/
theorem eq_cons (chain : Chain next head nodes) (present : head ≠ 0) :
    ∃ rest, nodes = head :: rest ∧ Chain next (next head) rest := by
  cases nodes with
  | nil => exact absurd chain present
  | cons node rest =>
    obtain ⟨rfl, -, later⟩ := chain
    exact ⟨rest, rfl, later⟩

/-- A node whose link is the old head is the new head. -/
theorem push (chain : Chain next head nodes) (present : node ≠ 0) (linked : other node = head)
    (same : ∀ later ∈ nodes, other later = next later) : Chain other node (node :: nodes) := by
  refine ⟨rfl, present, ?_⟩
  rw [linked]
  exact chain.congr same

/-- A node leaves the chain when the link before it skips it. -/
theorem unlink {earlier : List Nat} {previous : Nat}
    (chain : Chain next head (earlier ++ previous :: node :: rest))
    (skipped : other previous = next node)
    (same : ∀ kept ∈ earlier ++ rest, other kept = next kept) :
    Chain other head (earlier ++ previous :: rest) := by
  induction earlier generalizing head with
  | nil =>
    obtain ⟨rfl, present, rfl, -, later⟩ := chain
    refine ⟨rfl, present, ?_⟩
    rw [skipped]
    exact later.congr same
  | cons first earlier hypothesis =>
    obtain ⟨rfl, present, later⟩ := chain
    refine ⟨rfl, present, ?_⟩
    rw [same head (List.mem_append_left _ List.mem_cons_self)]
    exact hypothesis later fun kept member => same kept (List.mem_cons_of_mem _ member)

end Chain

end KernelLane
