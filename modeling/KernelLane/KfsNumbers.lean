import KernelLane.KfsRemount

namespace KernelLane.Kfs

open Effect Function UInt32 KFS

/-!
# The numbers of new inodes

A new file or directory gets the number at which the inode counter stands.  A
mount raises the counter above the inodes that it replays, except above the
last 32-bit number, behind which the counter starts again from zero; and it
takes a log without an inode, whose counter stands at zero.
-/

/-- A call of `Create` or `Mkdir`. -/
inductive Make where
  | create (path : Bytes)
  | mkdir (path : Bytes)

namespace Make

def run : Make → Action Unit
  | create path => KFS.create path
  | mkdir path => KFS.mkdir path

def path : Make → Bytes
  | create path => path
  | mkdir path => path

def given (op : Make) (volume : KFS) : Option UInt32 :=
  match volume.walkParent op.path with
  | .error _ => none
  | .ok (parent, leaf) =>
    match volume.lookup parent leaf with
    | none => some volume.nextIno
    | some _ => none

theorem given_eq {op : Make} {volume : KFS} {number : UInt32}
    (gives : op.given volume = some number) : number = volume.nextIno := by
  unfold given at gives
  split at gives
  · cases gives
  split at gives
  · cases gives
    rfl
  · cases gives

def numbers : KFS → List Make → List UInt32
  | _, [] => []
  | volume, op :: rest => (op.given volume).toList ++ numbers (op.run volume).2 rest

end Make

/-! ## The counter along the calls -/

section Counter

variable {next : UInt32}

/-- The counter stands here. -/
def CountsTo (next : UInt32) (volume : KFS) : Prop := volume.nextIno = next

theorem countsTo_writeRecord (record : Record) :
    Preserves (CountsTo next) (writeRecord record) := by
  intro volume counts
  unfold writeRecord
  split
  · exact counts
  split <;> exact counts

theorem countsTo_append (record : Record) : Preserves (CountsTo next) (append record) := by
  refine (countsTo_writeRecord record).bind fun _ => .bind (fun _ => id) fun _ => .look_bind ?_
  intro seen counts
  split
  · exact countsTo_writeRecord _ seen counts
  · exact counts

theorem countsTo_truncate (ino : UInt32) : Preserves (CountsTo next) (truncate ino) := by
  refine (countsTo_append _).bind fun _ => .look_bind fun seen counts => ?_
  cases seen.inodes ino with
  | none => exact counts
  | some node =>
    dsimp only
    split
    · refine ((countsTo_append _).bind fun _ => .bind (fun _ => id) fun _ => ?_) seen counts
      exact fun _ => id
    · exact counts

theorem countsTo_link (parent ino : UInt32) (leaf : Bytes) (node : Inode) {last : Action Unit}
    (quiet : Preserves (CountsTo next) last) : Preserves (CountsTo next) (do
      append (inodeRecord node)
      appendDirent parent leaf ino
      setInode ino node
      last) := by
  refine (countsTo_append _).bind fun _ => .bind ?_ fun _ => .bind (fun _ => id) fun _ => quiet
  exact (countsTo_append _).bind fun _ => fun _ => id

end Counter

/-- A call moves the counter by one if it gives a number, and not at all otherwise. -/
theorem Make.nextIno_run (op : Make) (volume : KFS) : (op.run volume).2.nextIno =
    match op.given volume with
    | none => volume.nextIno
    | some _ => volume.nextIno + 1 := by
  unfold given
  cases op with
  | create path =>
    dsimp only [run, KFS.create, Make.path]
    rw [look_bind]
    cases volume.walkParent path with
    | error failure => rfl
    | ok found =>
      rw [ofExcept_ok_bind]
      dsimp only
      cases volume.lookup found.1 found.2 with
      | none => exact countsTo_link _ _ _ _ (fun _ => id) _ rfl
      | some ino =>
        dsimp only
        split
        · rfl
        · exact countsTo_truncate ino volume rfl
  | mkdir path =>
    dsimp only [run, KFS.mkdir, Make.path]
    rw [look_bind]
    cases volume.walkParent path with
    | error failure => rfl
    | ok found =>
      rw [ofExcept_ok_bind]
      dsimp only
      cases volume.lookup found.1 found.2 with
      | none => exact countsTo_link _ _ _ _ (fun _ => id) _ rfl
      | some ino => rfl

/-! ## The counter of a mounted image -/

def lastIno : UInt32 := 0xFFFFFFFF

/-- The last number is in use, or the counter is above every number in use. -/
def Tree.Counted (tree : Tree) : Prop :=
  (tree.inodes lastIno).isSome ∨ ∀ ino, tree.nextIno ≤ ino → tree.inodes ino = none

theorem Tree.Counted.applied {tree next : Tree} {payload : Bytes} (counted : tree.Counted)
    (applied : tree.Applied payload next) : next.Counted := by
  cases applied with
  | inode node =>
    unfold Counted recordInode
    dsimp only
    by_cases last : node.ino = lastIno
    · rw [last, update_self]
      exact .inl rfl
    rw [update_of_ne (Ne.symm last)]
    refine counted.imp_right fun above ino reached => ?_
    have grown := toNat_succ last
    split at reached
    next raised =>
      rw [le_iff_toNat_le] at raised reached
      rw [update_of_ne, above ino (le_iff_toNat_le.mpr (by omega))]
      rintro rfl
      omega
    next below =>
      rw [update_of_ne, above ino reached]
      rintro rfl
      exact below reached
  | counted saved higher =>
    refine counted.imp_right fun above ino reached => ?_
    exact above ino (UInt32.le_trans higher reached)
  | unlinked parent name =>
    unfold removeDirent
    split <;> exact counted
  | _ => exact counted

variable {volume : KFS} {device : BlockDev}

theorem counted_mounted (mounted : mountKFS device = .mounted volume) : volume.Counted := by
  obtain ⟨records, -, applies, -, -⟩ := mounted_laid mounted
  have start : Tree.empty.Counted := .inr fun _ _ => rfl
  generalize Tree.empty = tree at applies start
  induction records generalizing tree with
  | nil =>
    cases applies
    exact start
  | cons record rest hypothesis =>
    unfold LogScan.applyAll at applies
    cases applied : tree.apply record with
    | applied middle =>
      rw [applied] at applies
      exact hypothesis middle applies (start.applied (Tree.applied_of_apply applied))
    | rejected | crashed => simp [applied] at applies

variable {ops : List Make}

theorem numbers_ascend (few : volume.nextIno.toNat + ops.length < 2 ^ 32) :
    (Make.numbers volume ops).Pairwise (· < ·) ∧
      ∀ number ∈ Make.numbers volume ops, volume.nextIno ≤ number := by
  induction ops generalizing volume with
  | nil => exact ⟨.nil, nofun⟩
  | cons op rest hypothesis =>
    rw [List.length_cons] at few
    have moved := op.nextIno_run volume
    unfold Make.numbers
    cases gives : op.given volume with
    | none =>
      simp only [gives] at moved
      have later := @hypothesis (op.run volume).2 (by rw [moved]; omega)
      rwa [moved] at later
    | some number =>
      obtain rfl := op.given_eq gives
      simp only [gives] at moved
      have notLast : volume.nextIno ≠ lastIno := by
        rintro same
        rw [same] at few
        exact absurd few (by simp [lastIno]; omega)
      have grown := Tree.toNat_succ notLast
      rw [← moved] at grown
      obtain ⟨ascending, above⟩ := @hypothesis (op.run volume).2 (by omega)
      have behind : ∀ number ∈ Make.numbers (op.run volume).2 rest, volume.nextIno < number := by
        intro number member
        have reached := le_iff_toNat_le.mp (above number member)
        rw [lt_iff_toNat_lt]
        omega
      refine ⟨List.pairwise_cons.mpr ⟨behind, ascending⟩, ?_⟩
      exact List.forall_mem_cons.mpr ⟨UInt32.le_refl _, fun number member =>
        UInt32.le_of_lt (behind number member)⟩

/--
From every image whose counter is above the root's number and which does not
use the last number, the numbers that calls give are neither the root's nor
any of the image nor one of each other, until the counter wraps around.
-/
theorem new_numbers_fresh
    (mounted : mountKFS device = .mounted volume) (rooted : rootIno < volume.nextIno)
    (lastUnused : volume.inodes lastIno = none) (few : volume.nextIno.toNat + ops.length < 2 ^ 32) :
    (Make.numbers volume ops).Nodup ∧
      ∀ number ∈ Make.numbers volume ops, number ≠ rootIno ∧ volume.inodes number = none := by
  obtain ⟨ascending, above⟩ := numbers_ascend few
  refine ⟨ascending.imp UInt32.ne_of_lt, fun number member => ⟨?_, ?_⟩⟩
  · rintro rfl
    exact UInt32.not_lt.mpr (above _ member) rooted
  · rcases counted_mounted mounted with used | unused
    · simp [lastUnused] at used
    · exact unused number (above number member)

def twoFiles : List Make := [.create onePath, .create [slash, 103]]

/-- The files of a new volume get numbers of their own. -/
theorem new_numbers_fresh_formatted : ∃ device volume, formatKFS zeroDevice = .ok device ∧
    mountKFS device = .mounted volume ∧ (Make.numbers volume twoFiles).Nodup := by
  obtain ⟨device, volume, _, format, mounted, _, facts⟩ :=
    of_evaluates (show evaluates (fun start _ => start.nextIno = 2 ∧
      start.inodes lastIno = none) [] zeroDevice by decide +kernel)
  obtain ⟨counter, lastUnused⟩ := of_decide_eq_true facts
  refine ⟨device, volume, format, mounted, ?_⟩
  refine (new_numbers_fresh mounted ?_ lastUnused ?_).1
  · rw [counter]
    decide
  · rw [counter]
    decide

def bareDevice : BlockDev := zeroDevice.splice 0 (superblock 512 1024)

/-- The second new file of a volume without records gets the root's number. -/
theorem second_file_is_root : ∃ volume, mountKFS bareDevice = .mounted volume ∧
    Make.numbers volume twoFiles = [0, rootIno] := by
  have checked : mounts (fun volume => Make.numbers volume twoFiles = [0, rootIno]) bareDevice := by
    decide +kernel
  obtain ⟨volume, mounted, same⟩ := of_mounts checked
  exact ⟨volume, mounted, of_decide_eq_true same⟩

end KernelLane.Kfs
