import KernelLane.KfsLog

namespace KernelLane.Kfs

open GuestFrame List UInt32

/-!
# Applying the records that the store writes

What `apply` does with each record the live store appends, and how long the
names in a replayed tree can be.  The one record that replay refuses is the
tombstone: its payload ends with the name, while `apply` asks for four more
bytes.
-/

/-- A record that fits a frame which replay accepts. -/
structure Record.Readable (record : Record) : Prop where
  nonempty : 0 < record.payload.length
  short : record.payload.length ≤ maxPayload

@[simp] theorem length_inodePayload (node : Inode) : (inodePayload node).length = 13 := by
  simp [inodePayload]

@[simp] theorem length_direntPayload (parent : UInt32) (name : Bytes) (ino : UInt32) :
    (direntPayload parent name ino).length = 11 + name.length := by
  simp [direntPayload]
  omega

@[simp] theorem length_direntDeletePayload (parent : UInt32) (name : Bytes) :
    (direntDeletePayload parent name).length = 7 + name.length := by
  simp [direntDeletePayload]
  omega

@[simp] theorem length_dataPayload (ino : UInt32) (off : UInt64) (data : Bytes) :
    (dataPayload ino off data).length = 16 + data.length := by
  simp [dataPayload]
  omega

@[simp] theorem length_truncatePayload (ino : UInt32) : (truncatePayload ino).length = 16 := by
  simp [truncatePayload]

@[simp] theorem length_checkpointPayload (nextIno : UInt32) :
    (checkpointPayload nextIno).length = 4 := by
  simp [checkpointPayload]

theorem readable_inodeRecord (node : Inode) : (inodeRecord node).Readable :=
  ⟨by simp [inodeRecord], by simp [inodeRecord, maxPayload]⟩

theorem readable_truncateRecord (ino : UInt32) : (truncateRecord ino).Readable :=
  ⟨by simp [truncateRecord], by simp [truncateRecord, maxPayload]⟩

theorem readable_checkpointRecord (nextIno : UInt32) : (checkpointRecord nextIno).Readable :=
  ⟨by simp [checkpointRecord], by simp [checkpointRecord, maxPayload]⟩

def maxName : Nat := 65525

def maxWrite : Nat := 65520

variable {ino : UInt32} {off : UInt64}

variable {parent : UInt32} {name : Bytes}

theorem readable_direntRecord (short : name.length ≤ maxName) :
    (direntRecord parent name ino).Readable := by
  simp only [maxName] at short
  constructor
  · simp [direntRecord]
  · simp [direntRecord, maxPayload]
    omega

variable {data : Bytes}

theorem readable_dataRecord (short : data.length ≤ maxWrite) :
    (dataRecord ino off data).Readable := by
  simp only [maxWrite] at short
  constructor
  · simp [dataRecord]
  · simp [dataRecord, maxPayload]
    omega

def written (contents : Bytes) (off : Nat) (data : Bytes) : Bytes :=
  Image.overlay (contents ++ replicate (off + data.length - contents.length) 0) off data

theorem getD_written (contents : Bytes) (off : Nat) (data : Bytes) (index : Nat) :
    (written contents off data).getD index 0 =
      if off ≤ index ∧ index < off + data.length then data.getD (index - off) 0
      else contents.getD index 0 := by
  have fits : off + data.length ≤ (contents ++
      replicate (off + data.length - contents.length) 0).length := by
    simp
    omega
  have padded : (contents ++ replicate (off + data.length - contents.length) 0).getD index 0 =
      contents.getD index 0 := by
    simp only [getD_eq_getElem?_getD]
    by_cases inside : index < contents.length
    · rw [List.getElem?_append_left inside]
    rw [List.getElem?_append_right (by omega), List.getElem?_replicate]
    have missing : contents[index]? = none := List.getElem?_eq_none (by omega)
    rw [missing]
    split <;> rfl
  rw [written, Image.getD_overlay fits, padded]

/-! ## The fields of a data payload -/

theorem get32_dataPayload_length (short : data.length ≤ maxWrite) :
    (get32 (dataPayload ino off data) 12).toNat = data.length := by
  have field := get32_put32 (put32 ino ++ put64 off) (ofNat data.length) data 12 (by simp)
  have sameBytes : put32 ino ++ put64 off ++ (put32 (ofNat data.length) ++ data) =
      dataPayload ino off data := by
    simp [dataPayload]
  have small : data.length < 2 ^ 32 := by
    simp only [maxWrite] at short
    omega
  rw [sameBytes] at field
  rw [field]
  exact toNat_ofNat_of_lt' small

/-- A write that ends below `2 ^ 63` does not carry the sentinel offset. -/
theorem ne_truncSent {count : Nat} (below : off.toNat + count < 2 ^ 63) : off ≠ truncSent := by
  intro same
  rw [same] at below
  have sentinelValue : truncSent.toNat = 2 ^ 64 - 1 := by decide
  omega

section

variable (ino off data)

theorem get32_dataPayload_ino : get32 (dataPayload ino off data) 0 = ino := by
  rw [dataPayload, get32_put32_zero]

theorem get64_dataPayload_off : get64 (dataPayload ino off data) 4 = off :=
  get64_put64 (put32 ino) _ _ 4 (by simp)

theorem drop_dataPayload : (dataPayload ino off data).drop 16 = data := by
  have headLength : (put32 ino ++ (put64 off ++ put32 (ofNat data.length))).length = 16 := by
    simp
  have split : dataPayload ino off data =
      (put32 ino ++ (put64 off ++ put32 (ofNat data.length))) ++ data := by
    simp [dataPayload]
  rw [split, ← headLength, drop_left]

theorem get32_truncatePayload_ino : get32 (truncatePayload ino) 0 = ino := by
  rw [truncatePayload, get32_put32_zero]

theorem get64_truncatePayload_off : get64 (truncatePayload ino) 4 = truncSent :=
  get64_put64 (put32 ino) _ _ 4 (by simp)

end

namespace Tree

def recordInode (tree : Tree) (node : Inode) : Tree :=
  { tree with
    inodes := Function.update tree.inodes node.ino (some node)
    nextIno := if tree.nextIno ≤ node.ino then node.ino + 1
      else tree.nextIno }

def setContents (tree : Tree) (ino : UInt32) (bytes : Bytes) : Tree :=
  { tree with data := Function.update tree.data ino bytes }

variable (tree : Tree)

theorem apply_inodeRecord (node : Inode) :
    tree.apply (inodeRecord node) = .applied (tree.recordInode node) := by
  have inoField : get32 (inodePayload node) 0 = node.ino := by rw [inodePayload, get32_put32_zero]
  have uidField : get32 (inodePayload node) 4 = node.uid :=
    get32_put32 (put32 node.ino) _ _ 4 (by simp)
  have kindField : (inodePayload node).getD 8 0 = node.kind := by
    simp [inodePayload, getD_eq_getElem?_getD]
  have sizeField : get32 (inodePayload node) 9 = node.size := by
    have field :=
      get32_put32 (put32 node.ino ++ (put32 node.uid ++ [node.kind])) node.size [] 9 (by simp)
    simpa [inodePayload] using field
  have lengthThirteen : ¬ (13 < 13) := by decide
  simp only [apply, inodeRecord, ↓reduceIte, applyInode, length_inodePayload, if_neg lengthThirteen,
    inoField, uidField, kindField, sizeField, recordInode]

variable {ino : UInt32}

theorem apply_direntRecord (short : name.length ≤ maxName) :
    tree.apply (direntRecord parent name ino) = .applied (tree.addDirent parent name ino) := by
  simp only [maxName] at short
  have parentField : get32 (direntPayload parent name ino) 0 = parent := by
    rw [direntPayload, get32_put32_zero]
  have opField : (direntPayload parent name ino).getD 4 0 = 0 := by
    simp [direntPayload, getD_eq_getElem?_getD]
  have nameField : lStr (direntPayload parent name ino) 5 = some (name, 7 + name.length) := by
    have field := lStr_appendLStr (put32 parent ++ [0]) name (put32 ino) 5 (by simp) (by omega)
    simpa [direntPayload] using field
  have inoField : get32 (direntPayload parent name ino) (7 + name.length) = ino := by
    have field :=
      get32_put32 (put32 parent ++ ([0] ++ appendLStr name)) ino []
        (7 + name.length) (by simp; omega)
    simpa [direntPayload] using field
  have notInode : ¬ recDirent = recInode := by decide
  have lengthSeven : ¬ 11 + name.length < 7 := by omega
  have lengthNext : ¬ 11 + name.length < 7 + name.length + 4 := by omega
  have notDelete : ¬ ((0 : UInt8) = 1) := by decide
  simp only [apply, direntRecord, if_neg notInode, ↓reduceIte, applyDirent,
    length_direntPayload, if_neg lengthSeven, parentField, opField,
    nameField, inoField, if_neg lengthNext, if_neg notDelete]

theorem apply_direntDeleteRecord (short : name.length < 65536) :
    tree.apply (direntDeleteRecord parent name) = .rejected := by
  have nameField : lStr (direntDeletePayload parent name) 5 = some (name, 7 + name.length) := by
    have field := lStr_appendLStr (put32 parent ++ [1]) name [] 5 (by simp) short
    simpa [direntDeletePayload] using field
  have notInode : ¬ recDirent = recInode := by decide
  have lengthSeven : ¬ 7 + name.length < 7 := by omega
  have lengthNext : 7 + name.length < 7 + name.length + 4 := by omega
  simp only [apply, direntDeleteRecord, if_neg notInode, ↓reduceIte, applyDirent,
    length_direntDeletePayload, if_neg lengthSeven, nameField, if_pos lengthNext]

theorem apply_truncateRecord (ino : UInt32) :
    tree.apply (truncateRecord ino) = .applied (tree.setContents ino []) := by
  have lengthField : get32 (truncatePayload ino) 12 = 0 := by
    have field := get32_put32 (put32 ino ++ put64 truncSent) 0 [] 12 (by simp)
    simpa [truncatePayload] using field
  have notInode : ¬ recData = recInode := by decide
  have notDirent : ¬ recData = recDirent := by decide
  have lengthSixteen : ¬ (16 < 16) := by decide
  have noData : ¬ 16 < 16 + (0 : UInt32).toNat := by decide
  simp only [apply, truncateRecord, if_neg notInode, if_neg notDirent, ↓reduceIte, applyData,
    length_truncatePayload, if_neg lengthSixteen, get32_truncatePayload_ino,
    get64_truncatePayload_off, lengthField, if_neg noData, setContents]

theorem apply_dataRecord
    (short : data.length ≤ maxWrite) (below : off.toNat + data.length < 2 ^ 63) :
    tree.apply (dataRecord ino off data) = .applied
      (tree.setContents ino (written (tree.data ino) off.toNat data)) := by
  have lengthField : (get32 (dataPayload ino off data) 12).toNat = _ :=
    get32_dataPayload_length short
  have notSentinel : ¬ off = truncSent := ne_truncSent below
  have stop : (Int.bmod (off.toNat + data.length) (2 ^ 64)).toNat = off.toNat + data.length := by
    rw [Int.bmod_eq_of_le (by omega) (by omega)]
    omega
  have lengthSixteen : ¬ 16 + data.length < 16 := by omega
  have growthCovers : off.toNat + data.length ≤ (tree.data ino ++ replicate
      (off.toNat + data.length - (tree.data ino).length) 0).length := by
    simp
    omega
  have inBuffer : ¬ (tree.data ino ++ replicate (off.toNat + data.length - (tree.data ino).length)
      0).length < off.toNat := by
    omega
  have wholeData : data.take ((tree.data ino ++ replicate
        (off.toNat + data.length - (tree.data ino).length)
        0).length - off.toNat) =
      data :=
    take_of_length_le (by omega)
  have notInode : ¬ recData = recInode := by decide
  have notDirent : ¬ recData = recDirent := by decide
  simp only [apply, dataRecord, if_neg notInode, if_neg notDirent, ↓reduceIte, applyData,
    length_dataPayload, if_neg lengthSixteen, get32_dataPayload_ino, get64_dataPayload_off,
    lengthField, lt_self_iff_false, if_neg notSentinel, stop, if_neg inBuffer, drop_dataPayload,
    wholeData, setContents, written]

theorem apply_checkpointRecord (saved : UInt32) : tree.apply (checkpointRecord saved) = .applied
      { tree with
        nextIno := if tree.nextIno < saved then saved
          else tree.nextIno } := by
  have savedField : get32 (checkpointPayload saved) 0 = saved := by
    simpa [checkpointPayload] using get32_put32_zero saved []
  have notInode : ¬ recCheckpoint = recInode := by decide
  have notDirent : ¬ recCheckpoint = recDirent := by decide
  have notData : ¬ recCheckpoint = recData := by decide
  simp [apply, checkpointRecord, notInode, notDirent, notData, applyCheckpoint, savedField]

theorem apply_checkpointRecord_self :
    tree.apply (checkpointRecord tree.nextIno) = .applied tree := by
  rw [apply_checkpointRecord]
  simp

/-- What a replayed record does to a tree. -/
inductive Applied (tree : Tree) (payload : Bytes) : Tree → Prop where
  | inode (node : Inode) : Applied tree payload (tree.recordInode node)
  | unlinked (parent : UInt32) (name : Bytes) : Applied tree payload (tree.removeDirent parent name)
  | linked (parent : UInt32) (name : Bytes) (ino : UInt32)
    (inside : 11 + name.length ≤ payload.length) :
    Applied tree payload (tree.addDirent parent name ino)
  | filled (ino : UInt32) (bytes : Bytes) : Applied tree payload (tree.setContents ino bytes)
  | counted (saved : UInt32) (higher : tree.nextIno ≤ saved) :
    Applied tree payload { tree with nextIno := saved }

theorem applied_of_apply {tree next : Tree} {record : Record}
    (applied : tree.apply record = .applied next) : tree.Applied record.payload next := by
  unfold apply at applied
  split at applied
  · unfold applyInode at applied
    split at applied
    · cases applied
    · cases applied
      exact .inode ⟨_, get32 record.payload 4, record.payload.getD 8 0, get32 record.payload 9⟩
  split at applied
  · unfold applyDirent at applied
    split at applied
    · cases applied
    dsimp only at applied
    split at applied
    · cases applied
    next name behind field =>
    split at applied
    · cases applied
    have bounds := bounds_of_lStr field
    split at applied
    · cases applied
      exact .unlinked _ _
    · cases applied
      exact .linked _ _ _ (by omega)
  split at applied
  · unfold applyData at applied
    split at applied
    · cases applied
    dsimp only at applied
    split at applied
    · cases applied
    split at applied
    · cases applied
      exact .filled _ _
    split at applied
    · cases applied
    · cases applied
      exact .filled _ _
  split at applied
  · unfold applyCheckpoint at applied
    split at applied
    · cases applied
      exact .counted _ (UInt32.le_refl _)
    cases applied
    refine .counted _ ?_
    split
    next raised => exact UInt32.le_of_lt raised
    · exact UInt32.le_refl _
  · cases applied
end Tree

end KernelLane.Kfs
