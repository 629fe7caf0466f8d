import KernelLane.KfsMount

namespace KernelLane.Kfs

open GuestFrame List Function

/-!
# What replay makes of an arbitrary record

Whether replay rejects a record depends on the record alone, and whether it
crashes on it depends in addition on the sizes of the files so far only.  The
sizes themselves follow from the fields of the data records.
-/

namespace Record

/-- The fields of a directory entry that replay accepts are all there. -/
def DirentComplete (payload : Bytes) : Prop :=
  7 ≤ payload.length ∧
    match lStr payload 5 with
    | none => False
    | some (_, next) => next + 4 ≤ payload.length

def dataIno (payload : Bytes) : UInt32 := get32 payload 0

def dataOff (payload : Bytes) : UInt64 := get64 payload 4

def dataLength (payload : Bytes) : Nat := (get32 payload 12).toNat

/-- The fields and bytes of a data record are all there. -/
def DataComplete (payload : Bytes) : Prop :=
  16 ≤ payload.length ∧ 16 + dataLength payload ≤ payload.length

instance (payload : Bytes) : Decidable (DataComplete payload) := inferInstanceAs (Decidable (_ ∧ _))

/-- The record has a known type and all the fields of that type. -/
def WellFormed (record : Record) : Prop :=
  record.type = recInode ∧ 13 ≤ record.payload.length ∨
    record.type = recDirent ∧ DirentComplete record.payload ∨
    record.type = recData ∧ DataComplete record.payload ∨
    record.type = recCheckpoint

theorem wellFormed_inode (payload : Bytes) :
    WellFormed ⟨recInode, payload⟩ ↔ 13 ≤ payload.length := by
  simp [WellFormed, recInode, recDirent, recData, recCheckpoint]

theorem wellFormed_dirent (payload : Bytes) :
    WellFormed ⟨recDirent, payload⟩ ↔ DirentComplete payload := by
  simp [WellFormed, recInode, recDirent, recData, recCheckpoint]

theorem wellFormed_data (payload : Bytes) :
    WellFormed ⟨recData, payload⟩ ↔ DataComplete payload := by
  simp [WellFormed, recInode, recDirent, recData, recCheckpoint]

/-- The record writes bytes to a file. -/
def Writes (record : Record) : Prop :=
  record.type = recData ∧ DataComplete record.payload ∧ dataOff record.payload ≠ truncSent

instance (record : Record) : Decidable record.Writes := inferInstanceAs (Decidable (_ ∧ _ ∧ _))

def writeEnd (record : Record) : Nat := (dataOff record.payload).toNat + dataLength record.payload

end Record

/-- The lengths of all files. -/
abbrev Sizes := UInt32 → Nat

def Tree.sizes (tree : Tree) : Sizes := fun ino => (tree.data ino).length

open Record in
def Sizes.grow (sizes : Sizes) (record : Record) : Sizes :=
  if record.type = recData ∧ DataComplete record.payload then
    update sizes (dataIno record.payload) (if dataOff record.payload = truncSent then 0
      else if record.writeEnd < 2 ^ 63 then max (sizes (dataIno record.payload)) record.writeEnd
      else sizes (dataIno record.payload))
  else sizes

open Record in
theorem Sizes.grow_data (sizes : Sizes) {payload : Bytes} (complete : DataComplete payload) :
    sizes.grow ⟨recData, payload⟩ = update sizes (dataIno payload)
      (if dataOff payload = truncSent then 0
      else if writeEnd ⟨recData, payload⟩ < 2 ^ 63 then
        max (sizes (dataIno payload)) (writeEnd ⟨recData, payload⟩)
      else sizes (dataIno payload)) :=
  if_pos ⟨rfl, complete⟩

open Record in
/-- A write past the largest signed offset that does not begin inside its
file. -/
def Sizes.Far (sizes : Sizes) (record : Record) : Prop :=
  record.Writes ∧ 2 ^ 63 ≤ record.writeEnd ∧
    sizes (dataIno record.payload) < (dataOff record.payload).toNat

instance (sizes : Sizes) (record : Record) : Decidable (sizes.Far record) :=
  inferInstanceAs (Decidable (_ ∧ _ ∧ _))

theorem stop_eq (off : UInt64) {count : Nat} (small : count < 2 ^ 32) :
    (Int.bmod (off.toNat + count) (2 ^ 64)).toNat =
      if off.toNat + count < 2 ^ 63 then off.toNat + count
      else off.toNat + count - 2 ^ 64 := by
  have bound := off.toNat_lt
  rw [Int.bmod_def]
  split <;>
  split <;>
  omega

theorem Tree.sizes_update (tree : Tree) (ino : UInt32) (bytes : Bytes) :
    Tree.sizes { tree with data := update tree.data ino bytes } =
      update tree.sizes ino bytes.length := by
  funext other
  by_cases same : other = ino
  · subst same
    simp [Tree.sizes]
  · simp [Tree.sizes, update_of_ne same]

namespace Tree

variable (tree : Tree) {payload : Bytes}

theorem applyData_of_incomplete (incomplete : ¬ Record.DataComplete payload) :
    tree.applyData payload = .rejected := by
  unfold applyData
  split
  · rfl
  next header =>
    rw [if_pos]
    by_contra room
    exact incomplete ⟨by omega, by rw [Record.dataLength]; omega⟩

theorem applyData_of_truncation (complete : Record.DataComplete payload)
    (truncates : get64 payload 4 = truncSent) : ∃ next, tree.applyData payload = .applied next ∧
      next.sizes = tree.sizes.grow ⟨recData, payload⟩ := by
  obtain ⟨header, room⟩ := complete
  have notShort : ¬ payload.length < 16 := Nat.not_lt.mpr header
  have whole : ¬ payload.length < 16 + (get32 payload 12).toNat := Nat.not_lt.mpr room
  rw [Sizes.grow_data _ ⟨header, room⟩, Record.dataOff, if_pos truncates]
  unfold applyData
  rw [if_neg notShort]
  rw [if_neg whole, if_pos truncates]
  exact ⟨_, rfl, tree.sizes_update _ _⟩

/--
A write crashes the reader when it is far, and otherwise lengthens its file to
its end.
-/
theorem applyData_of_write (complete : Record.DataComplete payload)
    (writes : get64 payload 4 ≠ truncSent) :
    (tree.sizes.Far ⟨recData, payload⟩ → tree.applyData payload = .crashed) ∧
      (¬ tree.sizes.Far ⟨recData, payload⟩ → ∃ next, tree.applyData payload = .applied next ∧
        next.sizes = tree.sizes.grow ⟨recData, payload⟩) := by
  obtain ⟨header, room⟩ := complete
  have notShort : ¬ payload.length < 16 := Nat.not_lt.mpr header
  have whole : ¬ payload.length < 16 + (get32 payload 12).toNat := Nat.not_lt.mpr room
  have small := (get32 payload 12).toNat_lt
  have stop := stop_eq (get64 payload 4) small
  have ending : Record.writeEnd ⟨recData, payload⟩ =
    (get64 payload 4).toNat + (get32 payload 12).toNat := rfl
  have far : tree.sizes.Far ⟨recData, payload⟩ ↔
      2 ^ 63 ≤ (get64 payload 4).toNat + (get32 payload 12).toNat ∧
        (tree.data (get32 payload 0)).length < (get64 payload 4).toNat :=
    ⟨fun beyond => beyond.2, fun beyond => ⟨⟨rfl, ⟨header, room⟩, writes⟩, beyond⟩⟩
  rw [Sizes.grow_data _ ⟨header, room⟩, Record.dataOff, if_neg writes, ending, far]
  unfold applyData
  rw [if_neg notShort]
  dsimp only
  rw [if_neg whole, if_neg writes]
  generalize (Int.bmod ((get64 payload 4).toNat + (get32 payload 12).toNat)
    (2 ^ 64)).toNat = last at stop ⊢
  have grown : (tree.data (get32 payload 0) ++
      replicate (last - (tree.data (get32 payload 0)).length) 0).length =
      max (tree.data (get32 payload 0)).length last := by
    rw [length_append, length_replicate]
    omega
  constructor
  · rintro ⟨beyond, behind⟩
    rw [if_neg (by omega)] at stop
    rw [if_pos (by omega)]
  · intro near
    have inside : ¬ max (tree.data (get32 payload 0)).length last < (get64 payload 4).toNat := by
      split at stop <;> omega
    rw [grown, if_neg inside]
    refine ⟨_, rfl, ?_⟩
    rw [sizes_update, Image.length_overlay, grown]
    · congr 1
      change _ =
        if _ then max (tree.data (get32 payload 0)).length _
        else (tree.data (get32 payload 0)).length
      split at stop
      next below => rw [if_pos below, stop]
      next beyond =>
        rw [if_neg beyond]
        omega
    · rw [length_take]
      omega

theorem applyInode_cases (tree : Tree) (payload : Bytes) :
    (¬ 13 ≤ payload.length ∧ tree.applyInode payload = .rejected) ∨ (13 ≤ payload.length ∧ ∃ next,
      tree.applyInode payload = .applied next ∧ next.sizes = tree.sizes) := by
  unfold applyInode
  split
  next short => exact .inl ⟨Nat.not_le.mpr short, rfl⟩
  next long => exact .inr ⟨Nat.not_lt.mp long, _, rfl, rfl⟩

theorem applyDirent_cases (tree : Tree) (payload : Bytes) : (¬ Record.DirentComplete payload ∧
      tree.applyDirent payload = .rejected) ∨
    (Record.DirentComplete payload ∧ ∃ next, tree.applyDirent payload = .applied next ∧
      next.sizes = tree.sizes) := by
  unfold applyDirent Record.DirentComplete
  by_cases short : payload.length < 7
  · rw [if_pos short]
    exact .inl ⟨fun complete => absurd complete.1 (by omega), rfl⟩
  rw [if_neg short]
  cases lStr payload 5 with
  | none => exact .inl ⟨fun complete => complete.2, rfl⟩
  | some found =>
    obtain ⟨name, stop⟩ := found
    dsimp only
    by_cases cut : payload.length < stop + 4
    · rw [if_pos cut]
      exact .inl ⟨fun complete => absurd complete.2 (by omega), rfl⟩
    rw [if_neg cut]
    refine .inr ⟨⟨by omega, by omega⟩, ?_⟩
    split
    · exact ⟨_, rfl, by unfold removeDirent; split <;> rfl⟩
    · exact ⟨_, rfl, rfl⟩

/-- What replay does with any record. -/
inductive Outcome (tree : Tree) (record : Record) : Prop where
  | malformed (malformed : ¬ record.WellFormed) (rejected : tree.apply record = .rejected)
  | far (wellFormed : record.WellFormed) (far : tree.sizes.Far record)
    (crashed : tree.apply record = .crashed)
  | near (wellFormed : record.WellFormed) (near : ¬ tree.sizes.Far record) (next : Tree)
    (applied : tree.apply record = .applied next) (sizes : next.sizes = tree.sizes.grow record)

theorem Outcome.of_other {tree : Tree} {record : Record} (other : record.type ≠ recData)
    (outcome : (¬ record.WellFormed ∧ tree.apply record = .rejected) ∨ (record.WellFormed ∧ ∃ next,
      tree.apply record = .applied next ∧ next.sizes = tree.sizes)) : tree.Outcome record := by
  have same : tree.sizes.grow record = tree.sizes := if_neg fun data => other data.1
  rcases outcome with ⟨malformed, rejected⟩ | ⟨wellFormed, next, applied, sizes⟩
  · exact .malformed malformed rejected
  · exact .near wellFormed (fun far => other far.1.1) next applied (sizes.trans same.symm)

theorem outcome (tree : Tree) (record : Record) : tree.Outcome record := by
  obtain ⟨type, payload⟩ := record
  by_cases inode : type = recInode
  · subst inode
    refine .of_other (by decide : recInode ≠ recData) ?_
    rw [Record.wellFormed_inode]
    exact tree.applyInode_cases payload
  by_cases dirent : type = recDirent
  · subst dirent
    refine .of_other (by decide : recDirent ≠ recData) ?_
    rw [Record.wellFormed_dirent]
    exact tree.applyDirent_cases payload
  by_cases data : type = recData
  · subst data
    have applied : tree.apply ⟨recData, payload⟩ = tree.applyData payload := rfl
    by_cases complete : Record.DataComplete payload
    · have wellFormed := (Record.wellFormed_data payload).mpr complete
      by_cases truncates : get64 payload 4 = truncSent
      · obtain ⟨next, taken, sizes⟩ := tree.applyData_of_truncation complete truncates
        exact .near wellFormed (fun far => far.1.2.2 truncates) next (applied.trans taken) sizes
      obtain ⟨crashes, takes⟩ := tree.applyData_of_write complete truncates
      by_cases far : tree.sizes.Far ⟨recData, payload⟩
      · exact .far wellFormed far (applied.trans (crashes far))
      · obtain ⟨next, taken, sizes⟩ := takes far
        exact .near wellFormed far next (applied.trans taken) sizes
    · refine .malformed ?_ (applied.trans (tree.applyData_of_incomplete complete))
      rwa [Record.wellFormed_data]
  by_cases checkpoint : type = recCheckpoint
  · subst checkpoint
    refine .of_other (by decide : recCheckpoint ≠ recData) (.inr ⟨.inr (.inr (.inr rfl)), ?_⟩)
    change ∃ next, tree.applyCheckpoint payload = .applied next ∧ next.sizes = tree.sizes
    unfold applyCheckpoint
    split <;> exact ⟨_, rfl, rfl⟩
  · refine .malformed ?_ ?_
    · simp [Record.WellFormed, inode, dirent, data, checkpoint]
    · simp [apply, inode, dirent, data, checkpoint]

end Tree

/-! ## Lists of records -/

def Sizes.after (sizes : Sizes) (records : List Record) : Sizes := records.foldl Sizes.grow sizes

/-- No record is a far write when its turn comes. -/
def Sizes.Near (sizes : Sizes) : List Record → Prop
  | [] => True
  | record :: rest => ¬ sizes.Far record ∧ (sizes.grow record).Near rest

theorem Sizes.near_append {sizes : Sizes} {first second : List Record} :
    sizes.Near (first ++ second) ↔ sizes.Near first ∧ (sizes.after first).Near second := by
  induction first generalizing sizes with
  | nil => simp [Sizes.Near, Sizes.after]
  | cons record rest hypothesis =>
    simp only [cons_append, Sizes.Near, hypothesis, Sizes.after, foldl_cons, and_assoc]

theorem applyAll_of_near {tree : Tree} {records : List Record}
    (wellFormed : ∀ record ∈ records, record.WellFormed) (near : tree.sizes.Near records) :
    ∃ next, LogScan.applyAll Tree.apply tree records = some next := by
  induction records generalizing tree with
  | nil => exact ⟨tree, rfl⟩
  | cons record rest hypothesis =>
    rw [forall_mem_cons] at wellFormed
    obtain ⟨notFar, later⟩ := near
    cases tree.outcome record with
    | malformed malformed _ => exact absurd wellFormed.1 malformed
    | far _ far _ => exact absurd far notFar
    | near _ _ middle applied sizes =>
      rw [← sizes] at later
      rw [LogScan.applyAll, applied]
      exact hypothesis wellFormed.2 later

theorem near_of_applyAll {tree next : Tree} {records : List Record}
    (applies : LogScan.applyAll Tree.apply tree records = some next) :
    (∀ record ∈ records, record.WellFormed) ∧ tree.sizes.Near records ∧
      next.sizes = tree.sizes.after records := by
  induction records generalizing tree with
  | nil =>
    cases applies
    exact ⟨by simp, trivial, rfl⟩
  | cons record rest hypothesis =>
    rw [LogScan.applyAll] at applies
    cases tree.outcome record with
    | malformed _ rejected => simp [rejected] at applies
    | far _ _ crashed => simp [crashed] at applies
    | near wellFormed notFar middle applied sizes =>
      rw [applied] at applies
      obtain ⟨later, near, final⟩ := hypothesis applies
      rw [sizes] at near final
      exact ⟨forall_mem_cons.mpr ⟨wellFormed, later⟩, ⟨notFar, near⟩, final⟩

end KernelLane.Kfs
