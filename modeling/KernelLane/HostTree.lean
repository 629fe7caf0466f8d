import KernelLane.FsPaths
import Mathlib.Data.List.DropRight
import Mathlib.Data.List.Range

namespace KernelLane

open List

/-!
# Host directory trees

The image builder copies a directory of the host into a volume.  A host tree
is given by the entries of its top directory, in the order in which the walk
meets them, which is the order of their names.  Numbering the entries of a
tree in that order is what the builder does with inode numbers, except that
inode numbers wrap around and the numbers here do not.
-/

/-- A component that path resolution takes as it is. -/
def ProperName (name : Bytes) : Prop :=
  name ≠ [] ∧ slash ∉ name ∧ name ≠ dotName ∧ name ≠ dotDotName

instance (name : Bytes) : Decidable (ProperName name) := inferInstanceAs (Decidable (_ ∧ _ ∧ _ ∧ _))

/-- The entries of a host directory. -/
inductive Listing where
  | nil
  | file (name data : Bytes) (rest : Listing)
  | dir (name : Bytes) (contents rest : Listing)
  deriving Repr, DecidableEq

open Listing

/-- What a path of a host tree leads to. -/
inductive Node where
  | file (data : Bytes)
  | dir (contents : Listing)
  deriving Repr, DecidableEq

/-- What an entry holds itself, apart from the entries below it. -/
inductive Content where
  | file (data : Bytes)
  | dir
  deriving Repr, DecidableEq

def Content.length : Content → Nat
  | .file data => data.length
  | .dir => 0

/-- An entry of a tree with its number and that of its directory. -/
structure Entry where
  parent : Nat
  name : Bytes
  number : Nat
  content : Content
  deriving Repr, DecidableEq

/-- An entry of one directory with its number. -/
structure Item where
  name : Bytes
  number : Nat
  node : Node
  deriving Repr, DecidableEq

def Node.content : Node → Content
  | .file data => .file data
  | .dir _ => .dir

namespace Listing

def names : Listing → List Bytes
  | nil => []
  | file name _ rest => name :: rest.names
  | dir name _ rest => name :: rest.names

def count : Listing → Nat
  | nil => 0
  | file _ _ rest => rest.count + 1
  | dir _ contents rest => contents.count + rest.count + 1

def get : Listing → Bytes → Option Node
  | nil, _ => none
  | file name data rest, wanted =>
    if name = wanted then some (.file data) else rest.get wanted
  | dir name contents rest, wanted =>
    if name = wanted then some (.dir contents) else rest.get wanted

/-- Every name is proper, and no directory has a name twice. -/
def WellNamed : Listing → Prop
  | nil => True
  | file name _ rest => ProperName name ∧ name ∉ rest.names ∧ rest.WellNamed
  | dir name contents rest =>
    ProperName name ∧ name ∉ rest.names ∧ contents.WellNamed ∧ rest.WellNamed

def items : Nat → Listing → List Item
  | _, nil => []
  | number, file name data rest => ⟨name, number, .file data⟩ :: items (number + 1) rest
  | number, dir name contents rest =>
    ⟨name, number, .dir contents⟩ :: items (number + 1 + contents.count) rest

def entries : Nat → Nat → Listing → List Entry
  | _, _, nil => []
  | parent, number, file name data rest =>
    ⟨parent, name, number, .file data⟩ :: entries parent (number + 1) rest
  | parent, number, dir name contents rest =>
    ⟨parent, name, number, .dir⟩ :: (entries number (number + 1) contents ++
      entries parent (number + 1 + contents.count) rest)

end Listing

def Node.below : Node → Nat
  | .file _ => 0
  | .dir contents => contents.count

def Node.find : Node → List Bytes → Option Node
  | node, [] => some node
  | .file _, _ :: _ => none
  | .dir contents, name :: rest =>
    match contents.get name with
    | none => none
    | some child => child.find rest

/-- A directory of the host: its file names are distinct and proper. -/
structure HostTree where
  listing : Listing
  wellNamed : listing.WellNamed

def Listing.graft (host : Listing) : List Bytes → Listing
  | [] => host
  | name :: rest => .dir name (host.graft rest) .nil

/-! ## Numbers -/

def Item.entry (parent : Nat) (item : Item) : Entry :=
  ⟨parent, item.name, item.number, item.node.content⟩

namespace Listing

theorem names_items (number : Nat) (listing : Listing) :
    (listing.items number).map Item.name = listing.names := by
  induction listing generalizing number with
  | nil => rfl
  | file name data rest hypothesis | dir name contents rest _ hypothesis =>
    simp only [items, names, map_cons, hypothesis]

variable {parent number : Nat} {listing : Listing} {item : Item}

theorem parent_entries {entry : Entry} (member : entry ∈ listing.entries parent number) :
    entry.parent = parent ∨ number ≤ entry.parent ∧ entry.parent < number + listing.count := by
  induction listing generalizing parent number with
  | nil => cases member
  | file name data rest hypothesis =>
    simp only [entries, mem_cons] at member
    rcases member with rfl | later
    · exact .inl rfl
    · have bounds := hypothesis later
      simp only [count]
      omega
  | dir name contents rest contentsHypothesis restHypothesis =>
    simp only [entries, mem_cons, mem_append] at member
    simp only [count]
    rcases member with rfl | below | later
    · exact .inl rfl
    · have bounds := contentsHypothesis below
      omega
    · have bounds := restHypothesis later
      omega

theorem number_items (member : item ∈ listing.items number) :
    number ≤ item.number ∧ item.number + item.node.below < number + listing.count := by
  induction listing generalizing number with
  | nil => cases member
  | file name data rest hypothesis | dir name contents rest _ hypothesis =>
    simp only [items, mem_cons] at member
    simp only [count]
    rcases member with rfl | later
    · simp only [Node.below]
      omega
    · have bounds := hypothesis later
      omega

theorem filter_entries_nil {other : Nat} (apart : other ≠ parent)
    (outside : other < number ∨ number + listing.count ≤ other) :
    (listing.entries parent number).filter (·.parent = other) = [] := by
  rw [filter_eq_nil_iff]
  intro entry member
  have bounds := parent_entries member
  simp only [decide_eq_true_eq]
  omega

theorem filter_entries_self (before : parent < number) (listing : Listing) :
    (listing.entries parent number).filter (·.parent = parent) =
      (listing.items number).map (Item.entry parent) := by
  induction listing generalizing number with
  | nil => rfl
  | file name data rest hypothesis =>
    simp only [entries, items, filter_cons, map_cons]
    rw [hypothesis (by omega)]
    rfl
  | dir name contents rest _ hypothesis =>
    simp only [entries, items, filter_cons, map_cons, filter_append]
    rw [filter_entries_nil (by omega) (.inl (by omega)), nil_append, hypothesis (by omega)]
    rfl

theorem filter_entries_of_item {contents : Listing} {name : Bytes} {found other : Nat}
    (before : parent < number) (member : ⟨name, found, .dir contents⟩ ∈ listing.items number)
    (low : found ≤ other) (high : other ≤ found + contents.count) :
    (listing.entries parent number).filter (·.parent = other) =
      (contents.entries found (found + 1)).filter (·.parent = other) := by
  have bounds : number ≤ found := (number_items member).1
  induction listing generalizing number with
  | nil => cases member
  | file _ data rest hypothesis =>
    simp only [items, mem_cons, Item.mk.injEq, reduceCtorEq, and_false, false_or] at member
    rw [entries, filter_cons_of_neg (by simp; omega)]
    exact hypothesis (by omega) member (number_items member).1
  | dir _ below rest _ hypothesis =>
    rw [entries, filter_cons_of_neg (by simp; omega), filter_append]
    simp only [items, mem_cons, Item.mk.injEq, Node.dir.injEq] at member
    rcases member with ⟨_, rfl, rfl⟩ | later
    · rw [@filter_entries_nil parent _ rest _ (by omega) (.inl (by omega)), append_nil]
    · have range := (number_items later).1
      dsimp only at range
      rw [filter_entries_nil (by omega) (.inr (by omega)), nil_append]
      exact hypothesis (by omega) later range

theorem get_eq (number : Nat) (listing : Listing) (name : Bytes) : listing.get name =
    ((listing.items number).find? (·.name = name)).map Item.node := by
  induction listing generalizing number with
  | nil => rfl
  | file other data rest hypothesis | dir other contents rest _ hypothesis =>
    by_cases same : other = name
    · simp [get, items, same]
    · simp [get, items, same, ← hypothesis]

theorem mem_names_of_item (member : item ∈ listing.items number) : item.name ∈ listing.names := by
  rw [← listing.names_items number]
  exact mem_map_of_mem member

theorem find_item (wellNamed : listing.WellNamed) (member : item ∈ listing.items number) :
    (listing.items number).find? (·.name = item.name) = some item := by
  induction listing generalizing number with
  | nil => cases member
  | file other data rest hypothesis | dir other contents rest _ hypothesis =>
    simp only [WellNamed] at wellNamed
    rw [items, List.find?_cons]
    rcases mem_cons.mp member with rfl | later
    · simp
    · have different : other ≠ item.name := by
        rintro rfl
        exact wellNamed.2.1 (mem_names_of_item later)
      simp only [different, decide_false]
      exact hypothesis (by simp only [wellNamed]) later

theorem WellNamed.of_item (wellNamed : listing.WellNamed) (member : item ∈ listing.items number) :
    ProperName item.name ∧ ∀ contents, item.node = .dir contents → contents.WellNamed := by
  induction listing generalizing number with
  | nil => cases member
  | file other data rest hypothesis =>
    rcases mem_cons.mp member with rfl | later
    · exact ⟨wellNamed.1, nofun⟩
    · exact hypothesis wellNamed.2.2 later
  | dir other below rest _ hypothesis =>
    rcases mem_cons.mp member with rfl | later
    · refine ⟨wellNamed.1, ?_⟩
      rintro _ ⟨⟩
      exact wellNamed.2.2.1
    · exact hypothesis wellNamed.2.2.2 later

end Listing

/-! ## Places in a tree -/

def rootNumber : Nat := 1

def Listing.allEntries (listing : Listing) : List Entry :=
  listing.entries rootNumber (rootNumber + 1)

/-- A path of a tree leads to this number and node. -/
inductive At (listing : Listing) : List Bytes → Nat → Node → Prop where
  | root : At listing [] rootNumber (.dir listing)
  | step {path : List Bytes} {number : Nat} {contents : Listing} {item : Item}
    (directory : At listing path number (.dir contents))
    (member : item ∈ contents.items (number + 1)) :
    At listing (path ++ [item.name]) item.number item.node

namespace At

variable {listing : Listing} {path : List Bytes} {number : Nat}

variable {contents : Listing} {node : Node}

theorem wellNamed (named : listing.WellNamed) (place : At listing path number node)
    (directory : node = .dir contents) : contents.WellNamed := by
  induction place generalizing contents with
  | root =>
    cases directory
    exact named
  | @step path number above item place member hypothesis =>
    exact ((hypothesis rfl).of_item member).2 _ directory

theorem proper (named : listing.WellNamed) (place : At listing path number node) :
    ∀ name ∈ path, ProperName name := by
  induction place with
  | root => simp
  | @step path number contents item place member hypothesis =>
    refine forall_mem_append.mpr ⟨hypothesis, ?_⟩
    exact forall_mem_singleton.mpr ((place.wellNamed named rfl).of_item member).1

theorem filter_within {other : Nat} (place : At listing path number node)
    (directory : node = .dir contents) (low : number ≤ other)
    (high : other ≤ number + contents.count) : listing.allEntries.filter (·.parent = other) =
      (contents.entries number (number + 1)).filter (·.parent = other) := by
  induction place generalizing contents with
  | root =>
    cases directory
    rfl
  | @step path number above item place member hypothesis =>
    obtain ⟨name, found, node⟩ := item
    subst directory
    have range := number_items member
    simp only [Node.below] at low high range
    rw [hypothesis rfl (by omega) (by omega),
      filter_entries_of_item (Nat.lt_succ_self _) member low high]

section

variable (place : At listing path number (.dir contents))
include place

theorem filter_entries :
    listing.allEntries.filter (·.parent = number) =
      (contents.items (number + 1)).map (Item.entry number) := by
  rw [place.filter_within rfl (Nat.le_refl _) (Nat.le_add_right _ _),
    filter_entries_self (Nat.lt_succ_self _)]

theorem mem_entries {item : Item}
    (member : item ∈ contents.items (number + 1)) : item.entry number ∈ listing.allEntries := by
  have inside : item.entry number ∈ listing.allEntries.filter (·.parent = number) := by
    rw [place.filter_entries]
    exact mem_map_of_mem member
  exact (mem_filter.mp inside).1

theorem of_mem_items {part : Listing} {first : Nat} {entry : Entry}
    (within : part.items first ⊆ contents.items (number + 1))
    (member : entry ∈ part.entries number first) :
    ∃ way below item, At listing way entry.parent (.dir below) ∧
      item ∈ below.items (entry.parent + 1) ∧ entry = item.entry entry.parent := by
  induction part generalizing path number contents first with
  | nil => cases member
  | file name data rest hypothesis =>
    simp only [items, cons_subset] at within
    simp only [entries, mem_cons] at member
    rcases member with rfl | later
    · exact ⟨path, contents, _, place, within.1, rfl⟩
    · exact hypothesis place within.2 later
  | dir name inner rest innerHypothesis restHypothesis =>
    simp only [items, cons_subset] at within
    simp only [entries, mem_cons, mem_append] at member
    rcases member with rfl | below | later
    · exact ⟨path, contents, _, place, within.1, rfl⟩
    · exact innerHypothesis (place.step within.1) (List.Subset.refl _) below
    · exact restHypothesis place within.2 later

end

theorem of_mem_entries {entry : Entry} (member : entry ∈ listing.allEntries) : ∃ way below item,
    At listing way entry.parent (.dir below) ∧ item ∈ below.items (entry.parent + 1) ∧
      entry = item.entry entry.parent :=
  of_mem_items .root (List.Subset.refl _) member

end At

/-- The number is that of the root or of a directory of the tree. -/
def IsDirectory (entries : List Entry) (number : Nat) : Prop :=
  number = rootNumber ∨ ∃ entry ∈ entries, entry.content = .dir ∧ entry.number = number

theorem At.isDirectory {listing : Listing} {path : List Bytes} {number : Nat} {node : Node}
    {contents : Listing} (place : At listing path number node) (directory : node = .dir contents) :
    IsDirectory listing.allEntries number := by
  cases place with
  | root => exact .inl rfl
  | step above member =>
    refine .inr ⟨_, above.mem_entries member, ?_, rfl⟩
    rw [Item.entry, directory]
    rfl

theorem IsDirectory.place {listing : Listing} {number : Nat}
    (directory : IsDirectory listing.allEntries number) :
    ∃ path contents, At listing path number (.dir contents) := by
  rcases directory with rfl | ⟨entry, member, isDir, rfl⟩
  · exact ⟨[], listing, .root⟩
  · obtain ⟨way, below, item, above, inside, same⟩ := At.of_mem_entries member
    rw [same]
    rw [same] at isDir
    obtain ⟨name, number, node⟩ := item
    cases node with
    | file data => cases isDir
    | dir contents => exact ⟨way ++ [name], contents, above.step inside⟩

theorem Listing.WellNamed.graft {host : Listing} (wellNamed : host.WellNamed) {names : List Bytes}
    (proper : ∀ name ∈ names, ProperName name) : (host.graft names).WellNamed := by
  induction names with
  | nil => exact wellNamed
  | cons name rest hypothesis =>
    rw [forall_mem_cons] at proper
    exact ⟨proper.1, by simp [names], hypothesis proper.2, trivial⟩

theorem Node.find_append (node : Node) (first second : List Bytes) :
    node.find (first ++ second) = (node.find first).bind (·.find second) := by
  induction first generalizing node with
  | nil => simp [Node.find]
  | cons name rest hypothesis =>
    cases node with
    | file data => rfl
    | dir contents =>
      simp only [cons_append, Node.find]
      cases contents.get name with
      | none => rfl
      | some child => exact hypothesis child

theorem At.find {listing : Listing} {path : List Bytes} {number : Nat} {node : Node}
    (wellNamed : listing.WellNamed) (place : At listing path number node) :
    (Node.dir listing).find path = some node := by
  induction place with
  | root => rfl
  | @step path number contents item place member hypothesis =>
    rw [Node.find_append, hypothesis, Option.bind_some, Node.find, contents.get_eq (number + 1),
      find_item (place.wellNamed wellNamed rfl) member]
    rfl

theorem Listing.find_graft (host : Listing) (way rest : List Bytes) :
    (Node.dir (host.graft (way ++ rest))).find way = some (.dir (host.graft rest)) := by
  induction way with
  | nil => rfl
  | cons name more hypothesis =>
    rw [cons_append, graft, Node.find]
    simp [get, hypothesis]

end KernelLane
