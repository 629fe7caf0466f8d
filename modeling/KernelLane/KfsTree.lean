import KernelLane.KfsApply

namespace KernelLane.Kfs

open Function Tree Option LogScan List

/-!
# Sound trees

What every tree that replay passes through satisfies.  The lemmas follow the
records that a history logs: each record of a call keeps the tree sound, so
a log cut between two records of one call still leaves a sound tree.
-/

namespace Tree

/-- The root is a directory, and the maps agree on which numbers are in use. -/
structure Sound (tree : Tree) : Prop where
  rootDir : tree.isDir rootIno = true
  keyed : ∀ {ino node}, tree.inodes ino = some node → node.ino = ino
  fresh : ∀ {ino}, tree.nextIno ≤ ino →
    tree.inodes ino = none ∧ tree.data ino = [] ∧ tree.children ino = []
  linked : ∀ entry ∈ tree.dirents, (tree.inodes entry.ino).isSome

theorem lookup_mem {tree : Tree} {parent ino : UInt32} {name : Bytes}
    (found : tree.lookup parent name = some ino) :
    ∃ entry ∈ tree.dirents, entry.ino = ino ∧ entry.name = name := by
  simp only [lookup, map_eq_some_iff] at found
  obtain ⟨index, located, sameIno⟩ := found
  have accepted := find?_some located
  cases stored : tree.dirents[index]? with
  | none => simp [stored] at accepted
  | some entry =>
    simp only [stored, Bool.and_eq_true, beq_iff_eq] at accepted
    refine ⟨entry, mem_of_getElem? stored, ?_, accepted.2⟩
    simpa [direntIno, stored] using sameIno

theorem toNat_succ {number : UInt32} (notLast : number ≠ 0xFFFFFFFF) :
    (number + 1).toNat = number.toNat + 1 := by
  have bound : number.toNat < 2 ^ 32 := number.toNat_lt
  have notMax : number.toNat ≠ 2 ^ 32 - 1 := by
    intro same
    exact notLast (UInt32.toNat_inj.mp (by rw [same]; decide))
  rw [UInt32.toNat_add]
  have one : (1 : UInt32).toNat = 1 := by decide
  omega

theorem recordInode_below {tree : Tree} {node : Inode} (belowCounter : ¬ tree.nextIno ≤ node.ino) :
    tree.recordInode node = { tree with
        inodes := update tree.inodes node.ino (some node) } := by
  simp [recordInode, belowCounter]

namespace Sound

variable {tree : Tree}

variable {parent ino : UInt32} {node : Inode}

theorem inode_of_lookup (sound : tree.Sound) {name : Bytes}
    (found : tree.lookup parent name = some ino) : ∃ node, tree.inodes ino = some node := by
  obtain ⟨entry, member, rfl, _⟩ := lookup_mem found
  exact isSome_iff_exists.mp (sound.linked entry member)

theorem below (sound : tree.Sound) (recorded : tree.inodes ino = some node) :
    ¬ tree.nextIno ≤ ino := by
  intro isFresh
  have missing := (sound.fresh isFresh).1
  rw [recorded] at missing
  simp at missing

theorem walkDirs_isDir {current : UInt32} {parts : List Bytes} (start : tree.isDir current = true)
    (walked : tree.walkDirs current parts = .ok parent) : tree.isDir parent = true := by
  induction parts generalizing current with
  | nil =>
    simp only [walkDirs, Except.ok.injEq] at walked
    rw [← walked]
    exact start
  | cons part rest hypothesis =>
    simp only [walkDirs] at walked
    cases found : tree.lookup current part with
    | none => simp [found] at walked
    | some next =>
      simp only [found] at walked
      cases isDirectory : tree.isDir next with
      | false => simp [isDirectory] at walked
      | true =>
        simp only [isDirectory, ↓reduceIte] at walked
        exact hypothesis isDirectory walked

section

variable (sound : tree.Sound)
include sound

theorem parent_isDir {path leaf : Bytes} (resolved : tree.walkParent path = .ok (parent, leaf)) :
    tree.isDir parent = true := by
  unfold walkParent at resolved
  split at resolved
  · simp at resolved
  · simp at resolved
  split at resolved
  · simp at resolved
  rename_i found walked
  simp only [Except.ok.injEq, Prod.mk.injEq] at resolved
  rw [← resolved.1]
  exact walkDirs_isDir sound.rootDir walked

theorem parent_below {path leaf : Bytes} (resolved : tree.walkParent path = .ok (parent, leaf)) :
    ¬ tree.nextIno ≤ parent := by
  have isDirectory := sound.parent_isDir resolved
  unfold isDir at isDirectory
  split at isDirectory
  · simp at isDirectory
  · rename_i node recorded
    exact sound.below recorded

theorem setContents (recorded : tree.inodes ino = some node) (bytes : Bytes) :
    (tree.setContents ino bytes).Sound where
  rootDir := sound.rootDir
  keyed := sound.keyed
  fresh := by
    intro other isFresh
    have different : other ≠ ino := by
      rintro rfl
      exact sound.below recorded isFresh
    simp only [Tree.setContents, update_of_ne different]
    exact sound.fresh isFresh
  linked := sound.linked

theorem rerecord {old new : Inode} (recorded : tree.inodes ino = some old)
    (sameIno : new.ino = ino) (sameKind : new.kind = old.kind) : (tree.recordInode new).Sound := by
  subst sameIno
  have belowCounter := sound.below recorded
  rw [recordInode_below belowCounter]
  constructor
  · have rootDir := sound.rootDir
    simp only [isDir] at rootDir ⊢
    by_cases isRoot : rootIno = new.ino
    · rw [isRoot, recorded] at rootDir
      rw [isRoot, update_self]
      simpa [sameKind] using rootDir
    · rw [update_of_ne isRoot]
      exact rootDir
  · intro other node found
    by_cases same : other = new.ino
    · subst same
      simp only [update_self, some.injEq] at found
      rw [← found]
    · simp only [update_of_ne same] at found
      exact sound.keyed found
  · intro other isFresh
    have different : other ≠ new.ino := by
      rintro rfl
      exact belowCounter isFresh
    simp only [update_of_ne different]
    exact sound.fresh isFresh
  · intro entry member
    have present := sound.linked entry member
    by_cases same : entry.ino = new.ino
    · simp [same]
    · simpa only [update_of_ne same] using present

theorem recordNext (isNext : node.ino = tree.nextIno) (notLast : tree.nextIno ≠ 0xFFFFFFFF) :
    (tree.recordInode node).Sound := by
  have nextFresh := sound.fresh (UInt32.le_refl tree.nextIno)
  simp only [recordInode, isNext, UInt32.le_refl, ↓reduceIte]
  constructor
  · have rootDir := sound.rootDir
    have notNew : rootIno ≠ tree.nextIno := by
      intro same
      simp [isDir, same, nextFresh.1] at rootDir
    simpa only [isDir, update_of_ne notNew] using rootDir
  · intro ino other found
    by_cases same : ino = tree.nextIno
    · subst same
      simp only [update_self, Option.some.injEq] at found
      rw [← found, isNext]
    · simp only [update_of_ne same] at found
      exact sound.keyed found
  · intro ino isFresh
    dsimp only at isFresh ⊢
    rw [UInt32.le_iff_toNat_le, toNat_succ notLast] at isFresh
    have notNew : ino ≠ tree.nextIno := by
      rintro rfl
      omega
    rw [update_of_ne notNew]
    exact sound.fresh (UInt32.le_iff_toNat_le.mpr (by omega))
  · intro entry member
    by_cases same : entry.ino = tree.nextIno
    · simp [same]
    · simpa only [update_of_ne same] using sound.linked entry member

theorem addDirent (leaf : Bytes) (parentBelow : ¬ tree.nextIno ≤ parent)
    (recorded : (tree.inodes ino).isSome) : (tree.addDirent parent leaf ino).Sound where
  rootDir := sound.rootDir
  keyed := sound.keyed
  fresh := by
    intro other isFresh
    have notParent : other ≠ parent := by
      rintro rfl
      exact parentBelow isFresh
    simp only [Tree.addDirent, update_of_ne notParent]
    exact sound.fresh isFresh
  linked := forall_mem_append.mpr ⟨sound.linked, forall_mem_singleton.mpr recorded⟩

end

end Sound

end Tree

/-! ## Sound at every record boundary -/

/-- Replaying any non-empty beginning of the records gives a sound tree. -/
def SoundThrough (tree : Tree) (records : List Record) : Prop :=
  ∀ leading trailing middle, records = leading ++ trailing → leading ≠ [] →
    applyAll apply tree leading = some middle →
    middle.Sound

theorem SoundThrough.nil (tree : Tree) : SoundThrough tree [] := by
  intro leading trailing middle split nonempty _
  exact absurd (append_eq_nil_iff.mp split.symm).1 nonempty

theorem SoundThrough.initial {tree : Tree} {first second : List Record}
    (sound : SoundThrough tree (first ++ second)) : SoundThrough tree first := by
  intro leading trailing middle split nonempty replayed
  exact sound leading (trailing ++ second) middle (by simp [split]) nonempty replayed

theorem SoundThrough.cons {tree next : Tree} {record : Record} {rest : List Record}
    (applied : tree.apply record = .applied next) (sound : next.Sound)
    (later : SoundThrough next rest) : SoundThrough tree (record :: rest) := by
  intro leading trailing middle split nonempty replayed
  cases leading with
  | nil => exact absurd rfl nonempty
  | cons first others =>
    obtain ⟨rfl, restSplit⟩ := cons_eq_cons.mp split
    simp only [applyAll, applied] at replayed
    by_cases none : others = []
    · subst none
      simp only [applyAll, some.injEq] at replayed
      rw [← replayed]
      exact sound
    · exact later others trailing middle restSplit none replayed

theorem SoundThrough.append {start next : Tree} {added later : List Record}
    (left : SoundThrough start added)
    (applies : applyAll apply start added = some next)
    (right : SoundThrough next later) : SoundThrough start (added ++ later) := by
  intro leading trailing middle split nonempty replayed
  rcases append_eq_append_iff.mp split with
    ⟨extra, rfl, laterSplit⟩ | ⟨extra, rfl, _⟩
  · rw [applyAll_append, applies] at replayed
    by_cases none : extra = []
    · subst none
      simp only [bind_some, applyAll, some.injEq] at replayed
      subst replayed
      rw [append_nil] at nonempty
      exact left added [] next (by simp) nonempty applies
    · exact right extra trailing middle laterSplit none replayed
  · exact left leading extra middle rfl nonempty replayed

/-! ## The tree of a new volume -/

def rootInode : Inode := ⟨rootIno, 0, kindDir, 0⟩

def rootTree : Tree := empty.recordInode rootInode

theorem rootTree_nextIno : rootTree.nextIno = rootIno + 1 := by decide

theorem rootTree_sound : rootTree.Sound where
  rootDir := by simp [rootTree, recordInode, isDir, rootInode]
  keyed := by
    intro ino node found
    simp only [rootTree, recordInode, empty] at found
    by_cases same : ino = rootInode.ino
    · rw [same, update_self, some.injEq] at found
      rw [← found, same]
    · rw [update_of_ne same] at found
      simp at found
  fresh := by
    intro ino isFresh
    have notRoot : ino ≠ rootInode.ino := by
      rintro rfl
      revert isFresh
      decide
    simp [rootTree, recordInode, empty, update_of_ne notRoot]
  linked := by
    intro entry member
    simp [rootTree, recordInode, empty] at member

end KernelLane.Kfs
