import KernelLane.KfsMount
import KernelLane.Runs

namespace KernelLane.Kfs

open Effect KFS

/-!
# Histories of store operations

The operations of the store as data, so that a history is a list of them.
Whatever an operation returns, it changes the device only by appending, and
`Op.MayWrite` lists the records it may append; a relation between volumes
that appending respects therefore holds across every operation.
-/

/-- One call of the store's interface. -/
inductive Op where
  | create (path : Bytes)
  | mkdir (path : Bytes)
  | delete (path : Bytes)
  | writeFile (path : Bytes) (off : UInt64) (data : Bytes)
  | setUID (path : Bytes) (uid : UInt32)
  | readFile (path : Bytes) (off : UInt64) (count : Nat)
  deriving Repr, DecidableEq

def Op.run : Op → Action Unit
  | .create path => KFS.create path
  | .mkdir path => KFS.mkdir path
  | .delete path => KFS.delete path
  | .writeFile path off data => KFS.writeFile path off data
  | .setUID path uid => KFS.setUID path uid
  | .readFile path off count => do
    let _ ← KFS.readFile path off count

/-- The call returns without an error. -/
def Op.Succeeds (before : KFS) (op : Op) (after : KFS) : Prop := op.run before = (.ok (), after)

/-- The call returns, with an error or without. -/
def Op.Returns (before : KFS) (op : Op) (after : KFS) : Prop := (op.run before).2 = after

theorem Op.Succeeds.returns {before after : KFS} {op : Op} (succeeds : op.Succeeds before after) :
    op.Returns before after := by
  rw [Op.Returns, succeeds]

def leafName (path : Bytes) : Bytes :=
  match splitPath path with
  | .error _ => []
  | .ok parts => parts.getLastD []

theorem Tree.leaf_eq {tree : Tree} {path leaf : Bytes} {parent : UInt32}
    (resolved : tree.walkParent path = .ok (parent, leaf)) : leaf = leafName path := by
  unfold Tree.walkParent at resolved
  unfold leafName
  split at resolved
  · simp at resolved
  · simp at resolved
  rename_i first rest split
  rw [split]
  split at resolved
  · simp at resolved
  · simp only [Except.ok.injEq, Prod.mk.injEq] at resolved
    exact resolved.2.symm

theorem resolve_ok {path : Bytes} {rest : KFS → UInt32 × Bytes → Action α} {before after : KFS}
    {value : α} (ran : (look >>= fun volume => ofExcept (volume.walkParent path) >>= rest volume :
      Action α) before = (.ok value, after)) :
    ∃ parent, before.walkParent path = .ok (parent, leafName path) ∧
      rest before (parent, leafName path) before = (.ok value, after) := by
  rw [look_bind] at ran
  obtain ⟨⟨parent, leaf⟩, seen, resolved, ran⟩ := bind_eq_ok_iff.mp ran
  obtain ⟨resolved, rfl⟩ := ofExcept_eq_ok_iff.mp resolved
  cases Tree.leaf_eq resolved
  exact ⟨parent, resolved, ran⟩

/-- The records that a call may append, checkpoints aside. -/
def Op.MayWrite : Op → Record → Prop
  | .create path, record =>
    (∃ node, record = inodeRecord node) ∨
      (∃ parent ino, record = direntRecord parent (leafName path) ino) ∨
      ∃ ino, record = truncateRecord ino
  | .mkdir path, record =>
    (∃ node, record = inodeRecord node) ∨
      ∃ parent ino, record = direntRecord parent (leafName path) ino
  | .delete path, record => ∃ parent, record = direntDeleteRecord parent (leafName path)
  | .writeFile _ off data, record =>
    (∃ node, record = inodeRecord node) ∨ ∃ ino, record = dataRecord ino off data
  | .setUID _ _, record => ∃ node, record = inodeRecord node
  | .readFile _ _ _, _ => False

/-- The call is no deletion and writes only records that replay reads. -/
def Op.Replayable : Op → Prop
  | .create path => (leafName path).length ≤ maxName
  | .mkdir path => (leafName path).length ≤ maxName
  | .delete _ => False
  | .writeFile _ off data => data.length ≤ maxWrite ∧ off.toNat + data.length < 2 ^ 63
  | .setUID _ _ => True
  | .readFile _ _ _ => True

theorem Op.Replayable.regular {op : Op} {record : Record} (replayable : op.Replayable)
    (writes : op.MayWrite record) : Regular record := by
  cases op with
  | create path =>
    rcases writes with ⟨node, rfl⟩ | ⟨parent, ino, rfl⟩ | ⟨ino, rfl⟩
    · exact .inode node
    · exact .dirent replayable
    · exact .truncate ino
  | mkdir path =>
    rcases writes with ⟨node, rfl⟩ | ⟨parent, ino, rfl⟩
    · exact .inode node
    · exact .dirent replayable
  | delete path => exact replayable.elim
  | writeFile path off data =>
    rcases writes with ⟨node, rfl⟩ | ⟨ino, rfl⟩
    · exact .inode node
    · exact .data replayable.1 replayable.2
  | setUID path owner =>
    obtain ⟨node, rfl⟩ := writes
    exact .inode node
  | readFile path off count => exact writes.elim

/--
A relation between volumes that holds across appends of some records and
across changes that leave the log alone.
-/
structure LogRelation (relation : KFS → KFS → Prop) (allowed : Record → Prop) : Prop where
  ofSameLog : ∀ {before after}, KFS.SameLog before after → relation before after
  trans : ∀ {first second third : KFS}, first.Ready → relation first second →
    relation second third →
    relation first third
  grows : ∀ {before after}, relation before after → KFS.Grows before after
  append : ∀ {volume : KFS} {record}, volume.Ready → allowed record →
    relation volume (append record volume).2

theorem growsRelation : LogRelation KFS.Grows (fun _ => True) where
  ofSameLog := fun same => same.extends.toGrows
  trans := fun _ left right => left.trans right
  grows := id
  append := fun ready _ => append_grows ready _

theorem growsRegularlyRelation : LogRelation KFS.GrowsRegularly Regular where
  ofSameLog := fun same => ⟨[], same.extends, by simp⟩
  trans := fun ready left right => left.trans ready right
  grows := fun ⟨_, grown, _⟩ => grown.toGrows
  append := fun ready regular => append_growsRegularly ready regular

namespace LogRelation

variable {relation : KFS → KFS → Prop} {allowed : Record → Prop}

/-- The calls below keep readiness and the relation. -/
abbrev Kept (relation : KFS → KFS → Prop) (action : Action α) : Prop :=
  Effect.Keeps KFS.Ready relation action

section

variable (respects : LogRelation relation allowed)
include respects

theorem reflexive (volume : KFS) : relation volume volume := respects.ofSameLog ⟨rfl, rfl, rfl, rfl⟩

theorem bind {first : Action α} {second : α → Action β}
    (firstKept : Kept relation first) (secondKept : ∀ value, Kept relation (second value)) :
    Kept relation (first >>= second) := by
  refine Effect.Keeps.bind ?_ firstKept secondKept
  intro _ _ _ ready _ left right
  exact respects.trans ready left right

theorem unchanged {action : Action α} (same : ∀ volume, (action volume).2 = volume) :
    Kept relation action :=
  Effect.keeps_of_unchanged respects.reflexive same

theorem change {update : KFS → KFS} (same : ∀ volume, KFS.SameLog volume (update volume)) :
    Kept relation (Effect.change update : Action Unit) := by
  intro volume ready
  have related := respects.ofSameLog (same volume)
  exact ⟨(respects.grows related).ready ready, related⟩

theorem keeps_append {record : Record} (isAllowed : allowed record) :
    Kept relation (KFS.append record) := by
  intro volume ready
  have related := respects.append ready isAllowed
  exact ⟨(respects.grows related).ready ready, related⟩

theorem keeps_allocIno : Kept relation allocIno := by
  intro volume ready
  have related := respects.ofSameLog (⟨rfl, rfl, rfl, rfl⟩ : KFS.SameLog volume (allocIno volume).2)
  exact ⟨(respects.grows related).ready ready, related⟩

theorem keeps_setInode (ino : UInt32) (node : Inode) : Kept relation (setInode ino node) :=
  respects.change fun _ => ⟨rfl, rfl, rfl, rfl⟩

theorem keeps_setData (ino : UInt32) (bytes : Bytes) : Kept relation (setData ino bytes) :=
  respects.change fun _ => ⟨rfl, rfl, rfl, rfl⟩

theorem keeps_appendDirent {parent : UInt32}
    {name : Bytes} {ino : UInt32} (isAllowed : allowed (direntRecord parent name ino)) :
    Kept relation (KFS.appendDirent parent name ino) :=
  respects.bind (respects.keeps_append isAllowed) fun _ =>
    respects.change fun _ => ⟨rfl, rfl, rfl, rfl⟩

theorem keeps_truncate {ino : UInt32}
    (truncates : allowed (truncateRecord ino)) (inodes : ∀ node, allowed (inodeRecord node)) :
    Kept relation (KFS.truncate ino) := by
  refine respects.bind (respects.keeps_append truncates) fun _ => ?_
  refine Effect.Keeps.look_bind fun seen => ?_
  cases seen.inodes ino with
  | none => exact respects.keeps_setData ino []
  | some node =>
    dsimp only
    split
    · exact respects.bind (respects.keeps_append (inodes _)) fun _ =>
        respects.bind (respects.keeps_setInode _ _) fun _ => respects.keeps_setData ino []
    · exact respects.keeps_setData ino []

theorem keeps_resolve {path : Bytes} {rest : KFS → UInt32 × Bytes → Action α}
    (kept : ∀ seen parent, Kept relation (rest seen (parent, leafName path))) : Kept relation
      (look >>= fun volume => ofExcept (volume.walkParent path) >>= rest volume) := by
  refine Effect.Keeps.look_bind fun seen => ?_
  refine Effect.Keeps.ofExcept_bind respects.reflexive ?_
  rintro ⟨parent, leaf⟩ resolved
  rw [Tree.leaf_eq resolved]
  exact kept seen parent

theorem keeps_run {op : Op} (writes : ∀ record, op.MayWrite record → allowed record) :
    Kept relation op.run := by
  cases op with
  | create path =>
    refine respects.keeps_resolve fun seen parent => ?_
    have inodes : ∀ node, allowed (inodeRecord node) := fun node => writes _ (Or.inl ⟨node, rfl⟩)
    dsimp only
    split
    · split
      · exact respects.unchanged fun _ => rfl
      · exact respects.keeps_truncate (writes _ (Or.inr (Or.inr ⟨_, rfl⟩))) inodes
    · refine respects.bind respects.keeps_allocIno fun ino => ?_
      refine respects.bind (respects.keeps_append (inodes _)) fun _ => ?_
      refine respects.bind
        (respects.keeps_appendDirent (writes _ (Or.inr (Or.inl ⟨_, _, rfl⟩)))) fun _ => ?_
      exact respects.bind (respects.keeps_setInode _ _) fun _ => respects.keeps_setData _ _
  | mkdir path =>
    refine respects.keeps_resolve fun seen parent => ?_
    dsimp only
    split
    · exact respects.unchanged fun _ => rfl
    refine respects.bind respects.keeps_allocIno fun ino => ?_
    refine respects.bind (respects.keeps_append (writes _ (Or.inl ⟨_, rfl⟩))) fun _ => ?_
    refine respects.bind (respects.keeps_appendDirent (writes _ (Or.inr ⟨_, _, rfl⟩))) fun _ => ?_
    exact respects.bind (respects.keeps_setInode _ _) fun _ =>
      respects.change fun _ => ⟨rfl, rfl, rfl, rfl⟩
  | delete path =>
    refine respects.keeps_resolve fun seen parent => ?_
    dsimp only
    split
    · exact respects.unchanged fun _ => rfl
    split
    · exact respects.unchanged fun _ => rfl
    refine respects.bind ?_ fun _ => respects.keeps_setData _ _
    refine respects.bind (respects.keeps_append (writes _ ⟨_, rfl⟩)) fun _ => ?_
    exact respects.change fun _ => ⟨rfl, rfl, rfl, rfl⟩
  | writeFile path off data =>
    refine respects.keeps_resolve fun seen parent => ?_
    dsimp only
    split
    · exact respects.unchanged fun _ => rfl
    split
    · exact respects.unchanged fun _ => rfl
    split
    · exact respects.unchanged fun _ => rfl
    refine respects.bind (respects.keeps_append (writes _ (Or.inr ⟨_, rfl⟩))) fun _ => ?_
    split
    · refine respects.bind (respects.keeps_append (writes _ (Or.inl ⟨_, rfl⟩))) fun _ => ?_
      exact respects.bind (respects.keeps_setInode _ _) fun _ => respects.keeps_setData _ _
    · exact respects.keeps_setData _ _
  | setUID path uid =>
    refine respects.keeps_resolve fun seen parent => ?_
    dsimp only
    split
    · exact respects.unchanged fun _ => rfl
    split
    · exact respects.unchanged fun _ => rfl
    · exact respects.bind (respects.keeps_append (writes _ ⟨_, rfl⟩)) fun _ =>
        respects.keeps_setInode _ _
  | readFile path off count =>
    refine respects.bind ?_ fun _ => respects.unchanged fun _ => rfl
    unfold KFS.readFile
    split
    · exact respects.unchanged fun _ => rfl
    refine respects.keeps_resolve fun seen parent => ?_
    dsimp only
    split
    · exact respects.unchanged fun _ => rfl
    split
    · exact respects.unchanged fun _ => rfl
    refine Effect.Keeps.look_bind fun seen => ?_
    dsimp only
    split
    · exact respects.unchanged fun _ => rfl
    split
    · exact respects.unchanged fun _ => rfl
    refine Effect.Keeps.ofExcept_bind respects.reflexive fun replayed _ => ?_
    exact respects.bind (respects.keeps_setData _ _) fun _ => respects.unchanged fun _ => rfl

end

end LogRelation

end KernelLane.Kfs
