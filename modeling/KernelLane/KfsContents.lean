import KernelLane.KfsMount
import KernelLane.KfsQueries

namespace KernelLane.Kfs

open Function List KFS Tree Int Image

/-!
# What the queries show

Names, kinds, sizes and owners depend on the inode and directory maps alone.
File bytes come from a cache or, when the cache does not cover the file, from
a second scan of the log; over regular records that scan rebuilds the bytes
that replay puts into the tree.
-/

/-! ## Lazily replayed contents -/

/-- A buffer shows the leading bytes of some contents, padded with zeros. -/
def Shows (buffer contents : Bytes) : Prop :=
  ∀ index, index < buffer.length → buffer.getD index 0 = contents.getD index 0

variable {ino : UInt32} {tree : Tree} {volume : KFS} {records : List Record}

theorem length_copySegment (ino : UInt32) (off : Nat) (out : Bytes) (record : Record) :
    (copySegment ino off out record).length = out.length := by
  unfold copySegment
  dsimp only
  split
  · rfl
  split
  · exact length_replicate
  split
  · rfl
  -- The two ends of the segment may be anything here.
  generalize bmod (bmod _ _ + _) _ = segEnd
  generalize bmod _ _ = segStart
  split
  · rfl
  apply length_overlay
  rw [length_take]
  omega

theorem length_foldl_copySegment (ino : UInt32) (off : Nat) (records : List Record) (out : Bytes) :
    (records.foldl (copySegment ino off) out).length = out.length := by
  induction records generalizing out with
  | nil => rfl
  | cons record rest hypothesis => rw [foldl_cons, hypothesis, length_copySegment]

def patched (out : Bytes) (off : Nat) (data : Bytes) : Bytes :=
  overlay out off (data.take (out.length - off))

theorem patched_beyond {out : Bytes} {off : Nat} (beyond : out.length ≤ off) (data : Bytes) :
    patched out off data = out := by
  have nothing : out.length - off = 0 := by omega
  rw [patched, nothing, take_zero, overlay, append_nil,
    length_nil, Nat.add_zero, take_append_drop]

theorem length_patched (out : Bytes) (off : Nat) (data : Bytes) :
    (patched out off data).length = out.length := by
  by_cases beyond : out.length ≤ off
  · rw [patched_beyond beyond]
  apply length_overlay
  rw [length_take]
  omega

theorem getElem?_patched (out : Bytes) (off : Nat) (data : Bytes) (index : Nat) :
    (patched out off data)[index]? =
      if off ≤ index ∧ index < off + data.length ∧ index < out.length then data[index - off]?
      else out[index]? := by
  by_cases beyond : out.length ≤ off
  · rw [patched_beyond beyond, if_neg (by omega)]
  have start : (out.take off).length = off := by
    rw [length_take]
    omega
  rw [patched, overlay, append_assoc, List.getElem?_append, start]
  by_cases before : index < off
  · rw [if_pos before, if_neg (by omega), List.getElem?_take_of_lt before]
  rw [if_neg before, List.getElem?_append, length_take]
  by_cases inside : index < off + data.length ∧ index < out.length
  · rw [if_pos (by omega), if_pos (by omega), List.getElem?_take_of_lt (by omega)]
  rw [if_neg (by omega), if_neg (by omega), List.getElem?_drop]
  congr 1
  omega

theorem copySegment_skips {record : Record} (skips : record.type ≠ recData ∨
      record.payload.length < 16 ∨ GuestFrame.get32 record.payload 0 ≠ ino) (out : Bytes) :
    copySegment ino 0 out record = out := by
  simp only [copySegment, if_pos skips]

theorem copySegment_other {other : UInt32} {off : UInt64} {data : Bytes} (different : other ≠ ino)
    (out : Bytes) : copySegment ino 0 out (dataRecord other off data) = out := by
  refine copySegment_skips (.inr (.inr ?_)) out
  simpa only [dataRecord, get32_dataPayload_ino] using different

/-- A data record of the file lands in the buffer, clipped to its length. -/
theorem copySegment_write {off : UInt64} {data out : Bytes} (short : data.length ≤ maxWrite)
    (notSentinel : off ≠ truncSent) (noWrap : off.toNat + data.length < 2 ^ 64)
    (near : off.toNat + data.length < 2 ^ 63 ∨ out.length < 2 ^ 32) :
    copySegment ino 0 out (dataRecord ino off data) = patched out off.toNat data := by
  have taken : ¬ ((dataRecord ino off data).type ≠ recData ∨
      (dataRecord ino off data).payload.length < 16 ∨
      GuestFrame.get32 (dataRecord ino off data).payload 0 ≠ ino) := by
    simp [dataRecord, get32_dataPayload_ino]
  have lengthField : (GuestFrame.get32 (dataPayload ino off data) 12).toNat = data.length :=
    get32_dataPayload_length short
  simp only [copySegment, if_neg taken]
  simp only [dataRecord, get64_dataPayload_off, lengthField, if_neg notSentinel,
    length_dataPayload, Nat.lt_irrefl, if_false]
  simp only [maxWrite] at short
  by_cases high : 2 ^ 63 ≤ off.toNat
  · have start : bmod off.toNat (2 ^ 64) = off.toNat - 2 ^ 64 := by
      rw [bmod_def]
      omega
    rw [start, bmod_eq_of_le (by omega) (by omega), if_pos (by omega),
      patched_beyond (by omega)]
  have start : bmod off.toNat (2 ^ 64) = off.toNat := bmod_eq_of_le (by omega) (by omega)
  rw [start]
  by_cases beyond : out.length ≤ off.toNat
  · rw [if_pos (.inl (by omega)), patched_beyond beyond]
  rw [bmod_eq_of_le (by omega) (by omega)]
  split
  next nothing =>
    have noData : data = [] := length_eq_zero_iff.mp (by omega)
    simp [noData, patched, overlay]
  next =>
    have overlapStart : max (off.toNat : Int) ((0 : Nat) : Int) = off.toNat := by omega
    have source : ((off.toNat : Int) - off.toNat).toNat = 0 := by omega
    have destination : ((off.toNat : Int) - ((0 : Nat) : Int)).toNat = off.toNat := by omega
    rw [overlapStart, source, destination, Nat.add_zero, drop_dataPayload, patched]
    exact congrArg _ (take_eq_take_iff.mpr (by omega))

theorem copySegment_shows {record : Record} (regular : Regular record) {next : Tree}
    (applied : tree.apply record = .applied next) {out : Bytes}
    (shows : Shows out (tree.data ino)) :
    Shows (copySegment ino 0 out record) (next.data ino) := by
  cases regular with
  | inode node =>
    rw [apply_inodeRecord] at applied
    cases applied
    rw [copySegment_skips (.inl (by decide : recInode ≠ recData))]
    exact shows
  | dirent short =>
    rw [apply_direntRecord _ short] at applied
    cases applied
    rw [copySegment_skips (.inl (by decide : recDirent ≠ recData))]
    exact shows
  | @data target off bytes short below =>
    rw [apply_dataRecord _ short below] at applied
    cases applied
    by_cases same : target = ino
    · subst same
      rw [copySegment_write short (ne_truncSent below) (by omega) (.inl below)]
      intro index inBuffer
      rw [length_patched] at inBuffer
      simp only [setContents, update_self, getD_written]
      rw [getD_eq_getElem?_getD, getElem?_patched]
      simp only [inBuffer, and_true]
      split
      · rw [getD_eq_getElem?_getD]
      · rw [← getD_eq_getElem?_getD]
        exact shows index inBuffer
    · rw [copySegment_other same]
      simpa only [setContents, update_of_ne (Ne.symm same)] using shows
  | truncate target =>
    rw [apply_truncateRecord] at applied
    cases applied
    by_cases same : target = ino
    · subst same
      have cleared : copySegment target 0 out (truncateRecord target) = replicate out.length 0 := by
        simp only [copySegment, truncateRecord, get32_truncatePayload_ino,
          get64_truncatePayload_off, length_truncatePayload, ne_eq, not_true_eq_false,
          Nat.lt_irrefl, or_self, ↓reduceIte]
      rw [cleared]
      intro index inBuffer
      simp [setContents, getD_eq_getElem?_getD, List.getElem?_replicate]
      split <;> rfl
    · rw [copySegment_skips (.inr (.inr (by simpa [truncateRecord, get32_truncatePayload_ino]
        using same)))]
      simpa only [setContents, update_of_ne (Ne.symm same)] using shows
  | checkpoint saved =>
    rw [apply_checkpointRecord] at applied
    cases applied
    rw [copySegment_skips (.inl (by decide : recCheckpoint ≠ recData))]
    exact shows

theorem replayDataFrom_fold (shaped : volume.Shaped) {position final : Nat}
    (pastStart : logStart ≤ position) (laid : LogScan.Laid volume.recordAt position records final)
    (atCursor : final = volume.wOff) (ino : UInt32) (off : Nat) (out : Bytes) {fuel : Nat}
    (enough : records.length ≤ fuel) : volume.replayDataFrom ino off fuel position out =
      .ok (records.foldl (copySegment ino off) out) := by
  induction laid generalizing out fuel with
  | nil position =>
    cases fuel with
    | zero => rfl
    | succ fuel =>
      have ended : volume.readRecord volume.wOff position = .ok none := by
        rw [readRecord, if_pos (by simp only [hdrLen]; omega)]
      simp only [replayDataFrom, ended, foldl_nil]
  | @cons position size final record rest head tail hypothesis =>
    obtain ⟨rfl, holds, short, fits, inside⟩ :=
      (recordAt_eq_some_iff shaped pastStart record).mp head
    have bounds := laid_bounds shaped (by omega) tail
    have endInside := shaped.endInside
    have found : volume.readRecord volume.wOff position = .ok (some record) :=
      (readRecord_some_iff shaped pastStart (by omega) record).mpr ⟨holds, short, by omega, inside⟩
    obtain ⟨spare, rfl⟩ : ∃ spare, fuel = spare + 1 :=
      ⟨fuel - 1, by simp only [length_cons] at enough; omega⟩
    have ran :=
      hypothesis (by omega) atCursor (copySegment ino off out record) (by simpa using enough)
    simp only [replayDataFrom, found, ran, foldl_cons]

theorem replayData_fold (shaped : volume.Shaped)
    (laid : LogScan.Laid volume.recordAt logStart records volume.wOff) (ino : UInt32)
    (off want : Nat) : volume.replayData ino off want = .ok (records.foldl (copySegment ino off)
      (replicate want 0)) := by
  have bounds := laid_bounds shaped (Nat.le_refl _) laid
  refine replayDataFrom_fold shaped (Nat.le_refl _) laid rfl ino off _ ?_
  simp only [hdrLen] at bounds
  omega

theorem foldl_copySegment_shows (regular : ∀ record ∈ records, Regular record) {next : Tree}
    (applies : LogScan.applyAll apply tree records = some next) {out : Bytes}
    (shows : Shows out (tree.data ino)) :
    Shows (records.foldl (copySegment ino 0) out) (next.data ino) := by
  induction records generalizing tree out with
  | nil =>
    simp only [LogScan.applyAll, Option.some.injEq] at applies
    subst next
    exact shows
  | cons record rest hypothesis =>
    rw [forall_mem_cons] at regular
    simp only [LogScan.applyAll] at applies
    obtain ⟨middle, applied⟩ := regular.1.applies tree
    rw [applied] at applies
    exact hypothesis regular.2 applies (copySegment_shows regular.1 applied shows)

theorem replayData_logTree (shaped : volume.Shaped) (logTree : volume.LogTree tree) (ino : UInt32)
    (want : Nat) :
    ∃ replayed, volume.replayData ino 0 want = .ok replayed ∧ replayed.length = want ∧
      Shows replayed (tree.data ino) := by
  obtain ⟨records, laid, regular, applies, _⟩ := logTree
  have blank : Shows (replicate want 0) (empty.data ino) := by
    intro index _
    simp [empty, getD_eq_getElem?_getD, List.getElem?_replicate]
    split <;> rfl
  exact ⟨_, replayData_fold shaped laid ino 0 want,
    by rw [length_foldl_copySegment, length_replicate],
    foldl_copySegment_shows regular applies blank⟩

def fileBytes (size : Nat) (contents : Bytes) : Bytes :=
  (List.range size).map fun index => contents.getD index 0

theorem Shows.eq_fileBytes {buffer contents : Bytes} (shows : Shows buffer contents) :
    buffer = fileBytes buffer.length contents := by
  apply ext_getElem (by simp [fileBytes])
  intro index inBuffer inFile
  have pointwise := shows index inBuffer
  simpa [fileBytes, getD_eq_getElem?_getD, List.getElem?_eq_getElem inBuffer] using pointwise

/-! ## Queries over equal names -/

namespace Tree

/-- Two trees with the same inodes and directory entries. -/
structure SameNames (left right : Tree) : Prop where
  inodes : right.inodes = left.inodes
  children : right.children = left.children
  dirents : right.dirents = left.dirents

namespace SameNames

variable {left right : Tree}

section

variable (same : SameNames left right)
include same

theorem lookup (parent : UInt32) (name : Bytes) :
    right.lookup parent name = left.lookup parent name := by
  have sameIno : right.direntIno = left.direntIno := by
    funext index
    simp only [direntIno, same.dirents]
  simp only [Tree.lookup, findDirent, same.children, same.dirents, sameIno]

theorem isDir (ino : UInt32) : right.isDir ino = left.isDir ino := by
  simp only [Tree.isDir, same.inodes]

theorem walkFrom (current : UInt32) (parts : List Bytes) :
    right.walkFrom current parts = left.walkFrom current parts := by
  induction parts generalizing current with
  | nil => rfl
  | cons part rest hypothesis =>
    simp only [Tree.walkFrom, same.lookup]
    cases left.lookup current part with
    | none => rfl
    | some next => exact hypothesis next

theorem walkDirs (current : UInt32) (parts : List Bytes) :
    right.walkDirs current parts = left.walkDirs current parts := by
  induction parts generalizing current with
  | nil => rfl
  | cons part rest hypothesis =>
    simp only [Tree.walkDirs, same.lookup, same.isDir]
    cases left.lookup current part with
    | none => rfl
    | some next => simp only [hypothesis]

theorem walkParent (path : Bytes) : right.walkParent path = left.walkParent path := by
  simp only [Tree.walkParent, same.walkDirs]

end

end SameNames

end Tree

/-- Two volumes that answer every query alike. -/
structure SameView (left right : KFS) : Prop where
  stat : ∀ path, right.stat path = left.stat path
  uid : ∀ path, right.uid path = left.uid path
  list : ∀ path, right.list path = left.list path
  readFile : ∀ path off count, (readFile path off count right).1 = (readFile path off count left).1

theorem SameView.refl (volume : KFS) : SameView volume volume :=
  ⟨fun _ => rfl, fun _ => rfl, fun _ => rfl, fun _ _ _ => rfl⟩

theorem SameView.trans {first second third : KFS} (left : SameView first second)
    (right : SameView second third) : SameView first third where
  stat := fun path => (right.stat path).trans (left.stat path)
  uid := fun path => (right.uid path).trans (left.uid path)
  list := fun path => (right.list path).trans (left.list path)
  readFile := fun path off count =>
    (right.readFile path off count).trans (left.readFile path off count)

section Queries

variable {left right : KFS}

section

variable (same : Tree.SameNames left.toTree right.toTree) (path : Bytes)
include same path

theorem stat_sameNames : right.stat path = left.stat path := by
  simp only [stat, statOf, same.walkParent, same.lookup, same.inodes]

theorem uid_sameNames : right.uid path = left.uid path := by
  simp only [uid, same.walkParent, same.lookup, same.inodes]

theorem list_sameNames : right.list path = left.list path := by
  simp only [list, entries, statOf, walk, same.walkFrom, same.isDir,
    same.inodes, same.children, same.dirents]

theorem KFS.fileOf_sameNames : right.fileOf path = left.fileOf path := by
  simp [fileOf, same.walkParent, same.lookup, same.isDir]

end

theorem sameView_of_source (same : Tree.SameNames left.toTree right.toTree)
    (sources : ∀ ino, right.source ino = left.source ino) : SameView left right where
  stat := stat_sameNames same
  uid := uid_sameNames same
  list := list_sameNames same
  readFile := by
    intro path off count
    by_cases none : count = 0
    · subst none
      rfl
    rw [KFS.readFile_eq right path off none, KFS.readFile_eq left path off none, KFS.fileOf_sameNames same]
    cases left.fileOf path with
    | error failure => rfl
    | ok ino =>
      have size : right.sizeOf ino = left.sizeOf ino := by simp [KFS.sizeOf, same.inodes]
      rw [KFS.readInode_source, KFS.readInode_source, size, sources]

end Queries

end KernelLane.Kfs
