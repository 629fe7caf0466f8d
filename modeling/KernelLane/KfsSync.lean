import KernelLane.KfsContents
import KernelLane.KfsHistory

namespace KernelLane.Kfs

open Effect Function Tree

/-!
# The live tree and the log stay in step

A live volume is in step with a tree when its log replays to that tree, the
names agree, and a cache that covers its file shows the tree's bytes.  Each
successful call that writes records replay can read keeps a volume in step;
the inode counter must not wrap, since a recycled number would meet the old
number's children and bytes in the replayed tree only.
-/

namespace Tree

/-- The live tree agrees with a replayed one, caches aside. -/
structure Mirrors (live tree : Tree) : Prop extends SameNames tree live where
  nextIno : live.nextIno = tree.nextIno
  cached : ∀ {ino node}, tree.inodes ino = some node → node.size.toNat ≤ (live.data ino).length →
    Shows ((live.data ino).take node.size.toNat) (tree.data ino)

namespace Mirrors

variable {live tree : Tree}

theorem refl (tree : Tree) : Mirrors tree tree := by
  refine ⟨⟨rfl, rfl, rfl⟩, rfl, ?_⟩
  intro ino node _ _ index inside
  rw [List.length_take] at inside
  simp only [List.getD_eq_getElem?_getD]
  rw [List.getElem?_take_of_lt (by omega)]

section

variable (mirrors : Mirrors live tree)
include mirrors

theorem setContents (ino : UInt32) (bytes : Bytes) : Mirrors { live with data := update live.data ino [] }
      (tree.setContents ino bytes) := by
  refine ⟨⟨mirrors.inodes, mirrors.children, mirrors.dirents⟩, mirrors.nextIno, ?_⟩
  intro other node recorded covered
  by_cases same : other = ino
  · subst same
    simp [Shows]
  · simp only [Tree.setContents, update_of_ne same] at recorded covered ⊢
    exact mirrors.cached recorded covered

theorem dropCache (ino : UInt32) : Mirrors { live with data := update live.data ino [] } tree := by
  have dropped := mirrors.setContents ino (tree.data ino)
  rwa [Tree.setContents, update_eq_self] at dropped

/--
A node recorded on both sides keeps the agreement if its file is empty, has
no cache or keeps its size.
-/
theorem recordInode (new : Inode) (kept : new.size = 0 ∨
      live.data new.ino = [] ∨ ∃ old, tree.inodes new.ino = some old ∧ new.size = old.size)
    {counter : UInt32} (sameCounter : counter = (tree.recordInode new).nextIno) : Mirrors
      { live with inodes := update live.inodes new.ino (some new), nextIno := counter }
      (tree.recordInode new) := by
  refine ⟨⟨?_, mirrors.children, mirrors.dirents⟩, sameCounter, ?_⟩
  · simp only [Tree.recordInode, mirrors.inodes]
  · intro other node recorded covered
    simp only [Tree.recordInode] at recorded covered ⊢
    by_cases same : other = new.ino
    · subst same
      rw [update_self, Option.some.injEq] at recorded
      subst recorded
      rcases kept with empty | dropped | ⟨old, wasRecorded, sameSize⟩
      · simp [Shows, empty]
      · simp [Shows, dropped]
      · rw [sameSize] at covered ⊢
        exact mirrors.cached wasRecorded covered
    · rw [update_of_ne same] at recorded
      exact mirrors.cached recorded covered

theorem addDirent (parent : UInt32) (leaf : Bytes) (ino : UInt32) :
    Mirrors (live.addDirent parent leaf ino) (tree.addDirent parent leaf ino) := by
  refine ⟨⟨mirrors.inodes, ?_, ?_⟩, mirrors.nextIno, mirrors.cached⟩
  · simp only [Tree.addDirent, mirrors.children, mirrors.dirents]
  · simp only [Tree.addDirent, mirrors.dirents]

end

end Mirrors

end Tree

namespace KFS

/-- The volume is in step with the tree that its log replays to. -/
structure InStep (volume : KFS) (tree : Tree) : Prop where
  ready : volume.Ready
  logTree : volume.LogTree tree
  mirrors : Tree.Mirrors volume.toTree tree
  sound : tree.Sound

variable {before after wrote : KFS} {tree : Tree} {ino parent : UInt32} {node : Inode}
  {path leaf bytes : Bytes}

section

variable (inStep : before.InStep tree)
include inStep

theorem InStep.logs {next : Tree} (logs : Logs before after tree next)
    (mirrors : Tree.Mirrors after.toTree next) (sound : next.Sound) : after.InStep next where
  ready := logs.ready inStep.ready
  logTree := inStep.logTree.logs inStep.ready logs
  mirrors := mirrors
  sound := sound

/-- Steps that leave the log alone may follow what was logged. -/
theorem InStep.settle {logged : KFS} {next : Tree}
    (logs : Logs before logged tree next) (same : SameLog logged after)
    (mirrors : Tree.Mirrors after.toTree next) (sound : next.Sound) : after.InStep next :=
  inStep.logs (logs.trans inStep.ready (.of_sameLog same next)) mirrors sound

/-- A new inode is logged and linked under the parent. -/
theorem InStep.link {kind : UInt8} {rest : UInt32 → Action Unit}
    (notLast : before.nextIno ≠ 0xFFFFFFFF) (parentBelow : ¬ tree.nextIno ≤ parent)
    (short : leaf.length ≤ maxName) (ran : (do
      let ino ← allocIno
      append (inodeRecord ⟨ino, 0, kind, 0⟩)
      appendDirent parent leaf ino
      setInode ino ⟨ino, 0, kind, 0⟩
      rest ino : Action Unit) before = (.ok (), after)) :
    ∃ linked : KFS, linked.InStep
        ((tree.recordInode ⟨tree.nextIno, 0, kind, 0⟩).addDirent parent leaf tree.nextIno) ∧
      rest tree.nextIno linked = (.ok (), after) := by
  have sameCounter := inStep.mirrors.nextIno
  rw [sameCounter] at notLast
  obtain ⟨ino, allocated, took, ran⟩ := bind_eq_ok_iff.mp ran
  simp only [allocIno, Prod.mk.injEq, Except.ok.injEq] at took
  obtain ⟨rfl, rfl⟩ := took
  rw [sameCounter] at ran
  obtain ⟨_, recorded, appended, ran⟩ := bind_eq_ok_iff.mp ran
  obtain ⟨_, named, linkedStep, ran⟩ := bind_eq_ok_iff.mp ran
  obtain ⟨_, entry, appendedEntry, changed⟩ := bind_eq_ok_iff.mp linkedStep
  simp only [change_apply, Prod.mk.injEq, true_and] at changed
  obtain ⟨_, linked, stored, ran⟩ := bind_eq_ok_iff.mp ran
  simp only [setInode, change_apply, Prod.mk.injEq, true_and] at stored
  subst changed
  subst stored
  have allocates : Logs before { before with nextIno := tree.nextIno + 1 } tree tree :=
    .of_sameLog (by exact ⟨rfl, rfl, rfl, rfl⟩) tree
  have allocatedReady := allocates.ready inStep.ready
  generalize isNode : (⟨tree.nextIno, 0, kind, 0⟩ : Inode) = node at *
  have key : node.ino = tree.nextIno := by rw [← isNode]
  have recordedSound := inStep.sound.recordNext key notLast
  have counter : (tree.recordInode node).nextIno = tree.nextIno + 1 := by
    simp [recordInode, key]
  have stillBelow : ¬ (tree.recordInode node).nextIno ≤ parent := by
    rw [UInt32.le_iff_toNat_le] at parentBelow
    rw [counter, UInt32.le_iff_toNat_le, toNat_succ notLast]
    omega
  have linkedSound : ((tree.recordInode node).addDirent parent leaf tree.nextIno).Sound :=
    recordedSound.addDirent leaf stillBelow (by simp [recordInode, key])
  obtain ⟨records, recordedTree⟩ :=
    Logs.of_append allocatedReady (.inode node) (tree.apply_inodeRecord _) recordedSound counter
      appended
  have recordedReady := records.ready allocatedReady
  obtain ⟨links, entryTree⟩ :=
    Logs.of_append recordedReady (.dirent short) ((tree.recordInode node).apply_direntRecord short)
      linkedSound (by rw [recordedTree]; exact counter) appendedEntry
  refine ⟨_, ?_, ran⟩
  refine inStep.settle (allocates.trans inStep.ready (records.trans allocatedReady links))
    ⟨rfl, rfl, rfl, rfl⟩ ?_ linkedSound
  rw [entryTree, recordedTree]
  have recordMirrors := inStep.mirrors.recordInode node (Or.inl (by rw [← isNode])) counter.symm
  rw [key] at recordMirrors
  exact recordMirrors.addDirent parent leaf tree.nextIno

section

variable (recorded : tree.inodes ino = some node)
include recorded

/--
The common end of a truncation and a write that change the size: the data
record is logged, and the new size is logged and stored.
-/
theorem inStep_resize {size : UInt32}
    (writes : Logs before wrote tree (tree.setContents ino bytes))
    (wroteTree : wrote.toTree = before.toTree) (ran : (do
      append (inodeRecord ⟨ino, node.uid, node.kind, size⟩)
      setInode ino { node with size := size }
      setData ino [] : Action Unit) wrote = (.ok (), after)) :
    ∃ next, after.InStep next := by
  have wroteReady := writes.ready inStep.ready
  have wroteSound := inStep.sound.setContents recorded bytes
  have sameRecord : ({ node with size := size } : Inode) = ⟨ino, node.uid, node.kind, size⟩ := by
    rw [← inStep.sound.keyed recorded]
  obtain ⟨_, resized, appended, ran⟩ := bind_eq_ok_iff.mp ran
  obtain ⟨_, stored, storedStep, ran⟩ := bind_eq_ok_iff.mp ran
  simp only [setInode, change_apply, Prod.mk.injEq, true_and, sameRecord] at storedStep
  simp only [setData, change_apply, Prod.mk.injEq, true_and] at ran
  have sameCounter : before.nextIno = ((tree.setContents ino bytes).recordInode
      ⟨ino, node.uid, node.kind, size⟩).nextIno := by
    rw [recordInode_below]
    · exact inStep.mirrors.nextIno
    · exact inStep.sound.below recorded
  have resizedSound : ((tree.setContents ino bytes).recordInode
      ⟨ino, node.uid, node.kind, size⟩).Sound :=
    wroteSound.rerecord recorded rfl rfl
  obtain ⟨resizes, resizedTree⟩ :=
    Logs.of_append wroteReady (.inode ⟨ino, node.uid, node.kind, size⟩)
      ((tree.setContents ino bytes).apply_inodeRecord _) resizedSound
      (by rw [wroteTree]; exact sameCounter.symm) appended
  subst storedStep
  subst ran
  refine ⟨_, inStep.settle (writes.trans inStep.ready resizes) ⟨rfl, rfl, rfl, rfl⟩ ?_ resizedSound⟩
  rw [resizedTree, wroteTree]
  exact (inStep.mirrors.setContents ino bytes).recordInode _ (Or.inr (Or.inl (by simp))) sameCounter

theorem inStep_rewrite (writes : Logs before wrote tree (tree.setContents ino bytes))
    (wroteTree : wrote.toTree = before.toTree) (ran : setData ino [] wrote = (.ok (), after)) :
    ∃ next, after.InStep next := by
  simp only [setData, change_apply, Prod.mk.injEq, true_and] at ran
  subst ran
  refine ⟨_, inStep.settle writes ⟨rfl, rfl, rfl, rfl⟩ ?_ (inStep.sound.setContents recorded bytes)⟩
  rw [wroteTree]
  exact inStep.mirrors.setContents ino bytes

theorem inStep_truncate
    (ran : truncate ino before = (.ok (), after)) : ∃ next, after.InStep next := by
  have sameNode : before.inodes ino = some node := by rw [inStep.mirrors.inodes, recorded]
  obtain ⟨_, cleared, appended, ran⟩ := bind_eq_ok_iff.mp ran
  obtain ⟨clears, clearedTree⟩ :=
    Logs.of_append inStep.ready (.truncate ino) (tree.apply_truncateRecord ino)
      (inStep.sound.setContents recorded [])
      inStep.mirrors.nextIno.symm appended
  rw [look_bind, clearedTree, sameNode] at ran
  dsimp only at ran
  split at ran
  · exact inStep_resize inStep recorded clears clearedTree ran
  · exact inStep_rewrite inStep recorded clears clearedTree ran

end

theorem inStep_writeFile {data : Bytes} {off : UInt64}
    (short : data.length ≤ maxWrite) (below : off.toNat + data.length < 2 ^ 63)
    (ran : writeFile path off data before = (.ok (), after)) : ∃ next, after.InStep next := by
  obtain ⟨parent, resolved, ran⟩ := resolve_ok ran
  cases found : before.lookup parent (leafName path) with
  | none => simp [found] at ran
  | some ino =>
    cases sameNode : before.inodes ino with
    | none => simp [found, sameNode] at ran
    | some node =>
      simp only [found, sameNode] at ran
      split at ran
      · simp at ran
      have recorded : tree.inodes ino = some node := by rw [← inStep.mirrors.inodes, sameNode]
      obtain ⟨_, wrote, appended, ran⟩ := bind_eq_ok_iff.mp ran
      obtain ⟨writes, wroteTree⟩ :=
        Logs.of_append inStep.ready (.data short below) (tree.apply_dataRecord short below)
          (inStep.sound.setContents recorded _)
          inStep.mirrors.nextIno.symm appended
      split at ran
      · exact inStep_resize inStep recorded writes wroteTree ran
      · exact inStep_rewrite inStep recorded writes wroteTree ran

theorem inStep_create_new (short : (leafName path).length ≤ maxName)
    (notLast : before.nextIno ≠ 0xFFFFFFFF) (resolved : before.walkParent path = .ok (parent, leaf))
    (absent : before.lookup parent leaf = none) (ran : create path before = (.ok (), after)) :
    after.InStep ((tree.recordInode ⟨tree.nextIno, 0, kindFile, 0⟩).addDirent parent
      leaf tree.nextIno) := by
  unfold create at ran
  rw [look_bind, resolved, ofExcept_ok_bind] at ran
  simp only [absent] at ran
  rw [← leaf_eq resolved] at short
  rw [inStep.mirrors.walkParent] at resolved
  obtain ⟨linked, linkedStep, ran⟩ :=
    inStep.link notLast (inStep.sound.parent_below resolved) short ran
  simp only [setData, change_apply, Prod.mk.injEq, true_and] at ran
  subst ran
  exact linkedStep.logs (.of_sameLog (by exact ⟨rfl, rfl, rfl, rfl⟩) _)
    (linkedStep.mirrors.dropCache tree.nextIno) linkedStep.sound

end

section

variable (inStep : before.InStep tree) (short : (leafName path).length ≤ maxName)
  (notLast : before.nextIno ≠ 0xFFFFFFFF)
include inStep short notLast

theorem inStep_create (ran : create path before = (.ok (), after)) : ∃ next, after.InStep next := by
  have whole := ran
  obtain ⟨parent, resolved, ran⟩ := resolve_ok ran
  cases found : before.lookup parent (leafName path) with
  | some ino =>
    simp only [found] at ran
    split at ran
    · simp at ran
    rw [inStep.mirrors.lookup] at found
    obtain ⟨node, recorded⟩ := inStep.sound.inode_of_lookup found
    exact inStep_truncate inStep recorded ran
  | none => exact ⟨_, inStep_create_new inStep short notLast resolved found whole⟩

theorem inStep_mkdir (ran : mkdir path before = (.ok (), after)) : ∃ next, after.InStep next := by
  obtain ⟨parent, resolved, ran⟩ := resolve_ok ran
  cases found : before.lookup parent (leafName path) with
  | some ino => simp [found] at ran
  | none =>
    simp only [found] at ran
    rw [inStep.mirrors.walkParent] at resolved
    have parentBelow := inStep.sound.parent_below resolved
    obtain ⟨linked, linkedStep, ran⟩ := inStep.link notLast parentBelow short ran
    simp only [change_apply, Prod.mk.injEq, true_and] at ran
    subst ran
    -- The new directory had no children before: its number is fresh.
    have noChildren : linked.children tree.nextIno = [] := by
      have notParent : tree.nextIno ≠ parent := by
        rintro rfl
        exact parentBelow (UInt32.le_refl _)
      rw [linkedStep.mirrors.children]
      simp only [addDirent, recordInode, update_of_ne notParent]
      exact (inStep.sound.fresh (UInt32.le_refl _)).2.2
    rw [← noChildren, update_eq_self]
    exact ⟨_, linkedStep⟩

end

theorem inStep_setUID {owner : UInt32} (inStep : before.InStep tree)
    (ran : setUID path owner before = (.ok (), after)) : ∃ next, after.InStep next := by
  obtain ⟨parent, resolved, ran⟩ := resolve_ok ran
  cases found : before.lookup parent (leafName path) with
  | none => simp [found] at ran
  | some ino =>
    cases sameNode : before.inodes ino with
    | none => simp [found, sameNode] at ran
    | some node =>
      simp only [found, sameNode] at ran
      have recorded : tree.inodes ino = some node := by rw [← inStep.mirrors.inodes, sameNode]
      have nodeKey := inStep.sound.keyed recorded
      obtain ⟨_, logged, appended, ran⟩ := bind_eq_ok_iff.mp ran
      simp only [setInode, change_apply, Prod.mk.injEq, true_and] at ran
      have sound : (tree.recordInode ⟨node.ino, owner, node.kind, node.size⟩).Sound :=
        inStep.sound.rerecord recorded nodeKey rfl
      have sameCounter : before.nextIno = (tree.recordInode
          ⟨node.ino, owner, node.kind, node.size⟩).nextIno := by
        rw [recordInode_below]
        · exact inStep.mirrors.nextIno
        · simpa only [nodeKey] using inStep.sound.below recorded
      obtain ⟨logs, loggedTree⟩ :=
        Logs.of_append inStep.ready (.inode _) (tree.apply_inodeRecord
            ⟨node.ino, owner, node.kind, node.size⟩)
          sound sameCounter.symm appended
      subst ran
      refine ⟨_, inStep.settle logs ⟨rfl, rfl, rfl, rfl⟩ ?_ sound⟩
      rw [loggedTree]
      subst nodeKey
      exact inStep.mirrors.recordInode ⟨node.ino, owner, node.kind, node.size⟩
        (Or.inr (Or.inr ⟨node, recorded, rfl⟩)) sameCounter

variable {volume : KFS}

theorem InStep.source (inStep : volume.InStep tree) (ino : UInt32) : volume.source ino =
    .ok (fileBytes ((tree.inodes ino).elim 0 Inode.size).toNat (tree.data ino)) := by
  have size : volume.sizeOf ino = ((tree.inodes ino).elim 0 Inode.size).toNat := by
    rw [sizeOf, inStep.mirrors.inodes]
  rw [KFS.source, size]
  split
  next covered =>
    cases recorded : tree.inodes ino with
    | none => rfl
    | some node =>
      rw [recorded, Option.elim_some] at covered
      have bytes := (inStep.mirrors.cached recorded covered).eq_fileBytes
      rw [List.length_take, Nat.min_eq_left covered] at bytes
      exact congrArg _ bytes
  · obtain ⟨replayed, ran, sameLength, shows⟩ :=
      replayData_logTree inStep.ready.toShaped inStep.logTree ino _
    rw [ran, Except.map, ← sameLength, List.take_length, ← shows.eq_fileBytes]

theorem InStep.readInode (inStep : volume.InStep tree) (ino : UInt32) (off : UInt64)
    (count : Nat) : (readInode ino off count volume).2.InStep tree := by
  rw [readInode_eq]
  split
  · exact inStep
  split
  · exact inStep
  obtain ⟨replayed, ran, sameLength, shows⟩ :=
    replayData_logTree inStep.ready.toShaped inStep.logTree ino (volume.sizeOf ino)
  rw [ran]
  have cachedLog : SameLog volume { volume with data := update volume.data ino replayed } :=
    ⟨rfl, rfl, rfl, rfl⟩
  refine inStep.logs (.of_sameLog cachedLog tree) ⟨⟨inStep.mirrors.inodes, inStep.mirrors.children,
    inStep.mirrors.dirents⟩, inStep.mirrors.nextIno, ?_⟩ inStep.sound
  intro other node recorded covered
  by_cases same : other = ino
  · subst same
    have size : volume.sizeOf other = node.size.toNat := by
      rw [sizeOf, inStep.mirrors.inodes, recorded]
      rfl
    simpa [← size, ← sameLength] using shows
  · simp only [update_of_ne same] at covered ⊢
    exact inStep.mirrors.cached recorded covered

theorem InStep.readFile (inStep : volume.InStep tree) (path : Bytes) (off : UInt64)
    (count : Nat) : (readFile path off count volume).2.InStep tree := by
  by_cases none : count = 0
  · subst none
    exact inStep
  rw [readFile_eq volume path off none]
  cases volume.fileOf path with
  | error failure => exact inStep
  | ok ino => exact inStep.readInode ino off count

/-- A volume in step answers every query like the volume it replays to. -/
theorem InStep.sameView {left right : KFS} (leftInStep : left.InStep tree)
    (rightInStep : right.InStep tree) : SameView left right := by
  have same : Tree.SameNames left.toTree right.toTree := by
    constructor
    · rw [rightInStep.mirrors.inodes, leftInStep.mirrors.inodes]
    · rw [rightInStep.mirrors.children, leftInStep.mirrors.children]
    · rw [rightInStep.mirrors.dirents, leftInStep.mirrors.dirents]
  exact sameView_of_source same fun ino => by rw [rightInStep.source, leftInStep.source]

end KFS

end KernelLane.Kfs
