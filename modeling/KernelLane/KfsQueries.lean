import KernelLane.HostPaths
import KernelLane.KfsStore

namespace KernelLane.Kfs

open Function List Tree

/-!
# The queries of a store

What a query shows of a file, and the queries for a path that is given by its
components.
-/

namespace KFS

def sizeOf (volume : KFS) (ino : UInt32) : Nat := ((volume.inodes ino).elim 0 Inode.size).toNat

def source (volume : KFS) (ino : UInt32) : Except FsError Bytes :=
  if volume.sizeOf ino ≤ (volume.data ino).length then
    .ok ((volume.data ino).take (volume.sizeOf ino))
  else (volume.replayData ino 0 (volume.sizeOf ino)).map (·.take (volume.sizeOf ino))

theorem drop_take_min (bytes : Bytes) (size off count : Nat) :
    (bytes.drop off).take (min (size - off) count) = ((bytes.take size).drop off).take count := by
  rw [drop_take, take_take, Nat.min_comm]

theorem readInode_eq (volume : KFS) (ino : UInt32) (off : UInt64) (count : Nat) :
    readInode ino off count volume =
      if volume.sizeOf ino ≤ off.toNat then (.ok [], volume)
      else if volume.sizeOf ino ≤ (volume.data ino).length then
        (.ok (((volume.data ino).take (volume.sizeOf ino)).drop off.toNat
            |>.take count),
          volume)
      else
        match volume.replayData ino 0 (volume.sizeOf ino) with
        | .error failure => (.error failure, volume)
        | .ok replayed =>
          (.ok ((replayed.take (volume.sizeOf ino)).drop off.toNat
              |>.take count),
            { volume with
              data := update volume.data ino replayed }) := by
  have size : ((volume.inodes ino).elim 0 Inode.size).toNat = volume.sizeOf ino := rfl
  simp only [readInode, Effect.look_bind, size, drop_take_min]
  split
  · rfl
  split
  · rfl
  cases volume.replayData ino 0 (volume.sizeOf ino) with
  | error | ok => rfl

theorem readInode_source (volume : KFS) (ino : UInt32) (off : UInt64) (count : Nat) :
    (readInode ino off count volume).1 =
      if volume.sizeOf ino ≤ off.toNat then .ok []
      else
        (volume.source ino).map fun bytes => (bytes.drop off.toNat).take count := by
  rw [readInode_eq, source]
  split
  · rfl
  split
  · rfl
  cases volume.replayData ino 0 (volume.sizeOf ino) with
  | error | ok => rfl

def fileOf (volume : KFS) (path : Bytes) : Except FsError UInt32 :=
  match volume.walkParent path with
  | .error failure => .error failure
  | .ok (parent, leaf) =>
    match volume.lookup parent leaf with
    | none => .error .noEntry
    | some ino => if volume.isDir ino then .error .isDir else .ok ino

theorem readFile_eq (volume : KFS) (path : Bytes) (off : UInt64) {count : Nat}
    (positive : count ≠ 0) : readFile path off count volume =
      match volume.fileOf path with
      | .error failure => (.error failure, volume)
      | .ok ino => readInode ino off count volume := by
  simp only [readFile, if_neg positive, Effect.look_bind, fileOf]
  cases volume.walkParent path with
  | error failure => rfl
  | ok resolved =>
    obtain ⟨parent, leaf⟩ := resolved
    rw [Effect.ofExcept_ok_bind]
    dsimp only
    cases volume.lookup parent leaf with
    | none => rfl
    | some ino =>
      dsimp only
      cases volume.isDir ino <;> rfl

theorem stat_eq {volume : KFS} {path leaf : Bytes} {parent : UInt32}
    (resolved : volume.walkParent path = .ok (parent, leaf)) : volume.stat path =
      match volume.lookup parent leaf with
      | none => .error .noEntry
      | some ino =>
        if (volume.inodes ino).isNone then .error .noEntry
        else .ok (volume.statOf leaf ino) := by
  have filled : ∃ first rest, splitPath path = .ok (first :: rest) := by
    unfold walkParent at resolved
    split at resolved
    · cases resolved
    · cases resolved
    next first rest parts => exact ⟨first, rest, parts⟩
  obtain ⟨first, rest, parts⟩ := filled
  have notRoot : path ≠ [slash] := by
    rintro rfl
    have rootSplit : splitPath [slash] = .ok [] := by decide
    cases rootSplit.symm.trans parts
  rw [stat, if_neg notRoot, parts, resolved]
  simp only [bind, Except.bind]
  cases volume.lookup parent leaf with
  | none => rfl
  | some ino => simp

end KFS

section Queries

variable {way : List Bytes} {name : Bytes}

theorem Tree.walkParent_join (tree : Tree) (proper : ∀ part ∈ way ++ [name], ProperName part) :
    tree.walkParent (joinPath (way ++ [name])) = (tree.walkDirs rootIno way).map (·, name) := by
  rw [walkParent, splitPath_joinPath proper]
  cases parts : way ++ [name] with
  | nil => simp at parts
  | cons first rest =>
    dsimp only
    rw [← parts, List.dropLast_concat, List.getLastD_concat]
    cases tree.walkDirs rootIno way with
    | error | ok => rfl

theorem joinPath_ne_slash {names : List Bytes} (proper : ∀ part ∈ names, ProperName part)
    (nonempty : names ≠ []) : joinPath names ≠ [slash] := by
  intro same
  have filled := relPath_ne_nil (fun part member => (proper part member).plain) nonempty
  simp only [joinPath, List.cons.injEq, true_and] at same
  exact filled same

theorem KFS.stat_join (volume : KFS) (proper : ∀ part ∈ way ++ [name], ProperName part) :
    volume.stat (joinPath (way ++ [name])) =
      match volume.walkDirs rootIno way with
      | .error failure => .error failure
      | .ok parent =>
        match volume.lookup parent name with
        | none => .error .noEntry
        | some ino =>
          if (volume.inodes ino).isNone then .error .noEntry
          else .ok (volume.statOf name ino) := by
  rw [KFS.stat, if_neg (joinPath_ne_slash proper (by simp)),
    splitPath_joinPath proper, volume.walkParent_join proper]
  simp only [bind, Except.bind, ne_eq, List.append_eq_nil_iff,
    List.cons_ne_nil, and_false, not_false_eq_true, and_true]
  cases volume.walkDirs rootIno way with
  | error | ok => rfl

theorem KFS.list_join (volume : KFS) {names : List Bytes} (proper : ∀ part ∈ names, ProperName part)
    (nonempty : names ≠ []) : volume.list (joinPath names) =
      match volume.walkFrom rootIno names with
      | none => .error .noEntry
      | some ino =>
        if volume.isDir ino then .ok (volume.entries ino)
        else .error .notDir := by
  rw [KFS.list, if_neg (joinPath_ne_slash proper nonempty), walk, splitPath_joinPath proper]
  rfl

theorem KFS.readFile_join (volume : KFS) (proper : ∀ part ∈ way ++ [name], ProperName part)
    (off : UInt64) {count : Nat} (wanted : count ≠ 0) :
    KFS.readFile (joinPath (way ++ [name])) off count volume =
      match volume.walkDirs rootIno way with
      | .error failure => (.error failure, volume)
      | .ok parent =>
        match volume.lookup parent name with
        | none => (.error .noEntry, volume)
        | some ino =>
          if volume.isDir ino then (.error .isDir, volume)
          else KFS.readInode ino off count volume := by
  rw [KFS.readFile_eq volume _ off wanted, KFS.fileOf, volume.walkParent_join proper]
  cases volume.walkDirs rootIno way with
  | error failure => rfl
  | ok parent =>
    dsimp only [Except.map]
    cases volume.lookup parent name with
    | none => rfl
    | some ino =>
      dsimp only
      cases volume.isDir ino <;> rfl

theorem Tree.walkFrom_of_walkDirs {tree : Tree} {cur parent : UInt32} {parts : List Bytes}
    (walked : tree.walkDirs cur parts = .ok parent) : tree.walkFrom cur parts = some parent := by
  induction parts generalizing cur with
  | nil =>
    cases walked
    rfl
  | cons part rest hypothesis =>
    rw [walkDirs] at walked
    rw [walkFrom]
    cases found : tree.lookup cur part with
    | none => simp [found] at walked
    | some next =>
      simp only [found] at walked ⊢
      split at walked
      · exact hypothesis walked
      · cases walked

theorem Tree.walkFrom_append (tree : Tree) (cur : UInt32) (first second : List Bytes) :
    tree.walkFrom cur (first ++ second) =
      (tree.walkFrom cur first).bind (tree.walkFrom · second) := by
  induction first generalizing cur with
  | nil => rfl
  | cons part rest hypothesis =>
    rw [List.cons_append, walkFrom, walkFrom]
    cases tree.lookup cur part with
    | none => rfl
    | some next => exact hypothesis next

end Queries

end KernelLane.Kfs
