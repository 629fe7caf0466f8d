import KernelLane.KfsLinks
import KernelLane.KfsSeedWalk

namespace KernelLane.Kfs

open Function List UInt32 Tree

/-!
# The tree of a seeded volume

Replaying what seeding appended for the entries of a host tree gives every
entry its inode, its bytes and its name.  Inode numbers wrap around at 32
bits, so this needs entries that share a number to have the same contents.
-/

/-! ## File contents -/

theorem written_of_le {contents : Bytes} {off : Nat} (data : Bytes)
    (inside : off ≤ contents.length) :
    written contents off data = contents.take off ++ data ++ contents.drop (off + data.length) := by
  rw [written, Image.overlay, take_append_of_le_length inside, drop_append]
  congr 1
  by_cases longer : off + data.length ≤ contents.length
  · have noPadding : off + data.length - contents.length = 0 := by omega
    simp [noPadding]
  · simp

theorem Tree.setContents_self (tree : Tree) (ino : UInt32) :
    tree.setContents ino (tree.data ino) = tree := by
  rw [setContents, update_eq_self]

variable {tree : Tree} {entries : List Entry}

theorem foldl_chunkPuts {ino : UInt32} {data : Bytes} {fuel off : Nat} (old : Bytes)
    (small : data.length < 2 ^ 32) (enough : data.length ≤ off + fuel * chunk)
    (state : tree.data ino = data.take off ++ old.drop (min off data.length)) :
    (chunkPuts ino data fuel off).foldl put tree =
      tree.setContents ino (data ++ old.drop data.length) := by
  induction fuel generalizing tree off with
  | zero =>
    have all : data.length ≤ off := by omega
    rw [take_of_length_le all, Nat.min_eq_right all] at state
    rw [chunkPuts, foldl_nil, ← state, setContents_self]
  | succ fuel hypothesis =>
    unfold chunkPuts
    split
    next more =>
      have offset : (UInt64.ofNat off).toNat = off := by
        rw [UInt64.toNat_ofNat']
        omega
      have piece : off + ((data.drop off).take chunk).length = min (off + chunk) data.length := by
        rw [length_take, length_drop]
        omega
      have reached : min off data.length = off := by omega
      rw [reached] at state
      have front : (data.take off).length = off := by
        rw [length_take]
        omega
      have next : written (tree.data ino) off ((data.drop off).take chunk) =
          data.take (off + chunk) ++ old.drop (min (off + chunk) data.length) := by
        have inside : off ≤ (tree.data ino).length := by
          rw [state, length_append, front]
          omega
        have past : off ≤ min (off + chunk) data.length := by omega
        rw [written_of_le _ inside, piece, state, take_left' front, ← take_add, drop_append, front,
          drop_eq_nil_of_le (by rw [front]; exact past),
          nil_append, drop_drop, Nat.add_sub_cancel' past]
      rw [foldl_cons, put, offset, hypothesis (by rw [Nat.succ_mul] at enough; omega)
          (by simp [setContents, next])]
      simp [setContents]
    next done =>
      have all : data.length ≤ off := by omega
      rw [take_of_length_le all, Nat.min_eq_right all] at state
      rw [foldl_nil, ← state, setContents_self]

def entryInode (entry : Entry) : Inode :=
  match entry.content with
  | .file data => ⟨ofNat entry.number, 0, kindFile, ofNat data.length⟩
  | .dir => ⟨ofNat entry.number, 0, kindDir, 0⟩

def entryLink (entry : Entry) : Dirent :=
  ⟨ofNat entry.parent, entry.name, ofNat entry.number, false⟩

theorem filterMap_chunkPuts (ino : UInt32) (data : Bytes) (fuel off : Nat) :
    (chunkPuts ino data fuel off).filterMap Put.link = [] := by
  induction fuel generalizing off with
  | zero => rfl
  | succ fuel hypothesis =>
    unfold chunkPuts
    split
    · exact hypothesis _
    · rfl

theorem links_seedPuts (entries : List Entry) :
    (seedPuts entries).filterMap Put.link = entries.map entryLink := by
  induction entries with
  | nil => rfl
  | cons entry rest hypothesis =>
    have one : (entryPuts entry).filterMap Put.link = [entryLink entry] := by
      obtain ⟨parent, name, number, content⟩ := entry
      cases content with
      | dir => rfl
      | file data =>
        simp only [entryPuts]
        rw [filterMap_cons_none rfl, filterMap_append, filterMap_chunkPuts]
        rfl
    rw [seedPuts_cons, filterMap_append, one, hypothesis]
    rfl

theorem short_seedPuts (small : ∀ entry ∈ entries, SmallEntry entry) :
    ∀ put ∈ seedPuts entries, put.Short := by
  intro put member
  obtain ⟨entry, inside, inEntry⟩ := mem_flatMap.mp member
  obtain ⟨nameShort, contentSmall⟩ := small entry inside
  obtain ⟨parent, name, number, content⟩ := entry
  cases content with
  | dir =>
    simp only [entryPuts, mem_cons, not_mem_nil, or_false] at inEntry
    rcases inEntry with rfl | rfl
    · trivial
    · exact nameShort
  | file data =>
    simp only [entryPuts, mem_cons, mem_append, not_mem_nil, or_false] at inEntry
    rcases inEntry with rfl | piece | rfl
    · trivial
    · exact short_chunkPuts contentSmall put piece
    · exact nameShort

/-- What a tree holds of the entries so far. -/
structure Holds (tree : Tree) (entries : List Entry) : Prop where
  inode : ∀ entry ∈ entries, tree.inodes (ofNat entry.number) = some (entryInode entry)
  bytes : ∀ entry ∈ entries, ∀ data, entry.content = .file data →
    tree.data (ofNat entry.number) = data
  unused : ∀ ino, (∀ entry ∈ entries, ofNat entry.number ≠ ino) → tree.data ino = []

theorem holds_empty : Holds empty [] := ⟨by simp, by simp, fun _ _ => rfl⟩

theorem Holds.of_alike {other : Tree} (holds : Holds other entries) (alike : tree.Alike other) :
    Holds tree entries := by
  refine ⟨?_, ?_, ?_⟩
  · rw [alike.inodes]
    exact holds.inode
  · rw [alike.data]
    exact holds.bytes
  · rw [alike.data]
    exact holds.unused

/-- Entries with the same number have the same contents. -/
def SameContent (entries : List Entry) : Prop :=
  ∀ first ∈ entries, ∀ second ∈ entries, ofNat first.number = ofNat second.number →
    first.content = second.content

instance (entries : List Entry) : Decidable (SameContent entries) :=
  inferInstanceAs (Decidable (∀ _ ∈ entries, ∀ _ ∈ entries, _ → _))

def entryBytes (entry : Entry) (old : Bytes) : Bytes :=
  match entry.content with
  | .file data => data ++ old.drop data.length
  | .dir => old

theorem foldl_entryPuts (tree : Tree) {entry : Entry} (small : SmallEntry entry) :
    (entryPuts entry).foldl put tree = ((tree.recordInode (entryInode entry)).setContents
        (ofNat entry.number)
        (entryBytes entry (tree.data (ofNat entry.number)))).addDirent
      (ofNat entry.parent) entry.name (ofNat entry.number) := by
  obtain ⟨parent, name, number, content⟩ := entry
  cases content with
  | dir =>
    have unchanged :=
      (tree.recordInode ⟨ofNat number, 0, kindDir, 0⟩).setContents_self (ofNat number)
    exact (congrArg (addDirent · _ _ _) unchanged).symm
  | file data =>
    have contentSmall : data.length < 2 ^ 32 := small.2
    simp only [entryPuts]
    rw [foldl_cons, foldl_append,
      foldl_chunkPuts (tree.data (ofNat number)) contentSmall (by rw [chunk]; omega) rfl]
    rfl

theorem Holds.enter {before : List Entry} {entry : Entry} (holds : Holds tree before)
    (small : SmallEntry entry) (same : SameContent (before ++ [entry])) :
    Holds ((entryPuts entry).foldl put tree) (before ++ [entry]) := by
  rw [foldl_entryPuts tree small]
  have last : entry ∈ before ++ [entry] := by simp
  have old (other : Entry) (member : other ∈ before ++ [entry]) (different :
        ofNat other.number ≠ ofNat entry.number) :
      other ∈ before := by
    rcases mem_append.mp member with inside | new
    · exact inside
    · rw [mem_singleton.mp new] at different
      exact absurd rfl different
  have key : (entryInode entry).ino = ofNat entry.number := by
    unfold entryInode
    split <;> rfl
  constructor
  · intro other member
    change update tree.inodes (entryInode entry).ino (some (entryInode entry)) _ = _
    rw [key]
    by_cases number : ofNat other.number = ofNat entry.number
    · rw [number, update_self]
      simp only [entryInode, number, same other member entry last number]
    · rw [update_of_ne number]
      exact holds.inode other (old other member number)
  · intro other member data isFile
    change update tree.data (ofNat entry.number) _ _ = _
    by_cases number : ofNat other.number = ofNat entry.number
    · rw [number, update_self]
      have content := same other member entry last number
      rw [isFile] at content
      simp only [entryBytes, ← content]
      by_cases used : ∃ earlier ∈ before, ofNat earlier.number = ofNat entry.number
      · obtain ⟨earlier, inside, earlierNumber⟩ := used
        have earlierContent := same earlier (mem_append_left _ inside) entry last earlierNumber
        rw [← content] at earlierContent
        rw [← earlierNumber, holds.bytes earlier inside data earlierContent]
        simp
      · rw [holds.unused _ fun earlier inside number => used ⟨earlier, inside, number⟩]
        simp
    · rw [update_of_ne number]
      exact holds.bytes other (old other member number) data isFile
  · intro ino free
    change update tree.data (ofNat entry.number) _ _ = _
    rw [update_of_ne (free entry last).symm]
    exact holds.unused ino fun earlier inside => free earlier (mem_append_left _ inside)

theorem Holds.enterAll {before : List Entry} (holds : Holds tree before)
    (small : ∀ entry ∈ entries, SmallEntry entry) (same : SameContent (before ++ entries)) :
    Holds ((seedPuts entries).foldl put tree) (before ++ entries) := by
  induction entries generalizing tree before with
  | nil =>
    rw [append_nil]
    exact holds
  | cons entry rest hypothesis =>
    rw [forall_mem_cons] at small
    have shape : before ++ entry :: rest = before ++ [entry] ++ rest := by simp
    rw [shape] at same ⊢
    rw [seedPuts_cons, foldl_append]
    refine hypothesis (holds.enter small.1 ?_) small.2 same
    intro first firstMember second secondMember
    exact same first (mem_append_left _ firstMember) second (mem_append_left _ secondMember)

end KernelLane.Kfs
