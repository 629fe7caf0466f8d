import KernelLane.KfsFormatter
import KernelLane.KfsContents
import Mathlib.Data.List.Find

namespace KernelLane.Kfs

open Tree

/-!
# Replaying what the image builder wrote

The image builder only adds: inodes, directory entries and file bytes.  The
directory entries that replay builds are then the linked names in the order
of the log, and a lookup is a search in that list.
-/

namespace Tree

/-- Two trees that differ in the inode counter at most. -/
structure Alike (left right : Tree) : Prop where
  inodes : left.inodes = right.inodes
  children : left.children = right.children
  dirents : left.dirents = right.dirents
  data : left.data = right.data

theorem Alike.refl (tree : Tree) : tree.Alike tree := ⟨rfl, rfl, rfl, rfl⟩

def put (tree : Tree) : Put → Tree
  | .inode node => tree.recordInode node
  | .dirent parent name ino => tree.addDirent parent name ino
  | .data ino off bytes => tree.setContents ino (written (tree.data ino) off.toNat bytes)

theorem apply_put (tree : Tree) {put : Put} (short : put.Short) :
    tree.apply put.record = .applied (tree.put put) := by
  cases put with
  | inode node => exact tree.apply_inodeRecord node
  | dirent parent name ino => exact tree.apply_direntRecord short
  | data ino off bytes => exact tree.apply_dataRecord short.1 short.2

theorem Alike.put {left right : Tree} (alike : left.Alike right) (put : Put) :
    (left.put put).Alike (right.put put) := by
  obtain ⟨inodes, children, dirents, data⟩ := alike
  cases put with
  | inode node => exact ⟨by simp only [Tree.put, recordInode, inodes], children, dirents, data⟩
  | dirent parent name ino =>
    exact ⟨inodes, by simp only [Tree.put, addDirent, children, dirents],
      by simp only [Tree.put, addDirent, dirents], data⟩
  | data ino off bytes =>
    exact ⟨inodes, children, dirents, by simp only [Tree.put, setContents, data]⟩

end Tree

theorem applyAll_unpaced {left right : Tree} {added : List Record} {puts : List Put}
    (alike : left.Alike right) (regular : ∀ record ∈ added, Regular record)
    (short : ∀ put ∈ puts, put.Short) (shape : unpaced added = puts.map Put.record) :
    ∃ tree, LogScan.applyAll apply left added = some tree ∧ tree.Alike (puts.foldl put right) := by
  induction added generalizing left right puts with
  | nil =>
    have noPuts : puts = [] := by
      cases puts with
      | nil => rfl
      | cons put rest => simp [unpaced] at shape
    subst noPuts
    exact ⟨left, rfl, alike⟩
  | cons record rest hypothesis =>
    rw [List.forall_mem_cons] at regular
    by_cases checkpoint : record.type = recCheckpoint
    · have skipped : unpaced (record :: rest) = unpaced rest := by simp [unpaced, checkpoint]
      rw [skipped] at shape
      cases regular.1 with
      | checkpoint saved =>
        rw [LogScan.applyAll, left.apply_checkpointRecord]
        exact hypothesis ⟨alike.inodes, alike.children, alike.dirents, alike.data⟩
          regular.2 short shape
      | inode | dirent | data | truncate => cases checkpoint
    · have kept : unpaced (record :: rest) = record :: unpaced rest := by simp [unpaced, checkpoint]
      rw [kept] at shape
      cases puts with
      | nil => cases shape
      | cons put later =>
        rw [List.forall_mem_cons] at short
        rw [List.map_cons, List.cons.injEq] at shape
        obtain ⟨rfl, shape⟩ := shape
        rw [LogScan.applyAll, left.apply_put short.1, List.foldl_cons]
        exact hypothesis (alike.put put) regular.2 short.2 shape

/-! ## Directory entries -/

def Put.link : Put → Option Dirent
  | .inode _ => none
  | .dirent parent name ino => some ⟨parent, name, ino, false⟩
  | .data _ _ _ => none

/-- The directory entries of a tree are these, and all of them live. -/
structure Linked (tree : Tree) (links : List Dirent) : Prop where
  dirents : tree.dirents = links
  live : ∀ link ∈ links, link.dead = false
  children : ∀ parent, tree.children parent =
    (links.zipIdx.filter (·.1.parent = parent)).map Prod.snd

namespace Linked

variable {tree : Tree} {links : List Dirent}

theorem empty : Linked empty [] := ⟨rfl, by simp, fun _ => rfl⟩

theorem addDirent (linked : Linked tree links) (parent : UInt32) (name : Bytes) (ino : UInt32) :
    Linked (tree.addDirent parent name ino) (links ++ [⟨parent, name, ino, false⟩]) := by
  obtain ⟨dirents, live, children⟩ := linked
  refine ⟨by simp only [Tree.addDirent, dirents],
    List.forall_mem_append.mpr ⟨live, List.forall_mem_singleton.mpr rfl⟩, ?_⟩
  · intro other
    rw [List.zipIdx_append, List.filter_append, List.map_append, ← children other]
    by_cases same : parent = other
    · subst same
      simp [Tree.addDirent, dirents]
    · simp [Tree.addDirent, Function.update_of_ne (Ne.symm same), same]

theorem foldl_put (linked : Linked tree links) (puts : List Put) :
    Linked (puts.foldl put tree) (links ++ puts.filterMap Put.link) := by
  induction puts generalizing tree links with
  | nil => simpa using linked
  | cons put rest hypothesis =>
    cases put with
    | inode | data => exact hypothesis ⟨linked.dirents, linked.live, linked.children⟩
    | dirent parent name ino =>
      have later := hypothesis (linked.addDirent parent name ino)
      rw [List.append_assoc] at later
      exact later

theorem of_alike {other : Tree} (linked : Linked other links) (alike : tree.Alike other) :
    Linked tree links :=
  ⟨alike.dirents.trans linked.dirents, linked.live,
    fun parent => by rw [alike.children, linked.children]⟩

theorem stored (linked : Linked tree links) {pair : Dirent × Nat} (member : pair ∈ links.zipIdx) :
    tree.dirents[pair.2]? = some pair.1 := by
  rw [linked.dirents]
  exact List.mem_zipIdx_iff_getElem?.mp member

theorem filter_zipIdx (links : List Dirent) (parent : UInt32) : links.filter (·.parent = parent) =
    (links.zipIdx.filter (·.1.parent = parent)).map Prod.fst := by
  have split : links = links.zipIdx.map Prod.fst := (List.zipIdx_map_fst 0 links).symm
  rw [split, List.filter_map, ← split]
  rfl

theorem lookup (linked : Linked tree links) (parent : UInt32) (name : Bytes) :
    tree.lookup parent name = ((links.filter (·.parent = parent)).find? (·.name = name)).map
      Dirent.ino := by
  rw [Tree.lookup, Tree.findDirent, linked.children, List.find?_map,
    filter_zipIdx, List.find?_map, Option.map_map, Option.map_map]
  refine (congrArg (Option.map _) (List.find?_congr fun pair member => ?accepted)).trans
    (Option.map_congr fun pair found => ?_)
  case accepted =>
    have inside := (List.mem_filter.mp member).1
    have living := linked.live pair.1 (List.fst_mem_of_mem_zipIdx inside)
    simp [linked.stored inside, living, beq_eq_decide]
  have inside := (List.mem_filter.mp (List.mem_of_find?_eq_some found)).1
  simp [Tree.direntIno, linked.stored inside]

theorem entries {volume : KFS} (linked : Linked volume.toTree links) (parent : UInt32) :
    volume.entries parent = (links.filter (·.parent = parent)).map fun link =>
      volume.statOf link.name link.ino := by
  rw [KFS.entries, linked.children, filter_zipIdx, List.map_map,
    List.filterMap_map, List.filterMap_eq_map_iff_forall_eq_some]
  intro pair member
  have inside := (List.mem_filter.mp member).1
  have living := linked.live pair.1 (List.fst_mem_of_mem_zipIdx inside)
  simp [linked.stored inside, living]

end Linked

end KernelLane.Kfs
