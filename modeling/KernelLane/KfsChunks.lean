import KernelLane.KfsContents
import KernelLane.KfsHistory

namespace KernelLane.Kfs

open Function List Effect UInt64

/-!
# Transfers in pieces

A file that is read piece by piece shows the bytes that one read shows: a read
may fill the cache, but it does not change what later reads find.  A file that
is written piece by piece shows what it shows after one write of all bytes, as
long as the log reads back and has room for the records of the pieces.
-/

namespace KFS

/-! ## Reading in pieces -/

theorem replayData_cache (volume : KFS) (data : UInt32 → Bytes) (ino : UInt32) (off want : Nat) :
    ({ volume with data := data } : KFS).replayData ino off want =
      volume.replayData ino off want := by
  have loop : ∀ fuel position out, ({ volume with data := data } : KFS).replayDataFrom ino off fuel
        position out =
      volume.replayDataFrom ino off fuel position out := by
    intro fuel
    induction fuel with
    | zero => exact fun _ _ => rfl
    | succ fuel hypothesis =>
      intro position out
      have same : ({ volume with data := data } : KFS).readRecord volume.wOff position =
        volume.readRecord volume.wOff position := rfl
      simp [replayDataFrom, same, hypothesis]
  exact loop _ _ _

variable {volume : KFS} {ino : UInt32} {count : Nat} {left right : KFS} {path first : Bytes}
  {off : UInt64} {out data : Bytes} {before after : KFS} {node : Inode}

theorem source_cached {replayed : Bytes} (uncovered : ¬volume.sizeOf ino ≤ (volume.data ino).length)
    (read : volume.replayData ino 0 (volume.sizeOf ino) = .ok replayed) (other : UInt32) :
    ({ volume with data := update volume.data ino replayed } : KFS).source other =
      volume.source other := by
  have size : ({ volume with data := update volume.data ino replayed } :
    KFS).sizeOf other = volume.sizeOf other := rfl
  unfold source
  rw [size, replayData_cache]
  by_cases same : other = ino
  · subst same
    simp only [update_self, read]
    split <;> rfl
  · simp [update_of_ne same]

theorem readInode_sameView (volume : KFS) (ino : UInt32) (off : UInt64) (count : Nat) :
    Tree.SameNames volume.toTree (readInode ino off count volume).2.toTree ∧ ∀ other,
      (readInode ino off count volume).2.source other = volume.source other := by
  rw [readInode_eq]
  split
  · exact ⟨⟨rfl, rfl, rfl⟩, fun _ => rfl⟩
  split
  · exact ⟨⟨rfl, rfl, rfl⟩, fun _ => rfl⟩
  next uncovered =>
  cases read : volume.replayData ino 0 (volume.sizeOf ino) with
  | error failure => exact ⟨⟨rfl, rfl, rfl⟩, fun _ => rfl⟩
  | ok replayed => exact ⟨⟨rfl, rfl, rfl⟩, source_cached uncovered read⟩

theorem readFile_sameView (volume : KFS) (path : Bytes) (off : UInt64) (count : Nat) :
    SameView volume (readFile path off count volume).2 := by
  by_cases none : count = 0
  · subst none
    exact .refl volume
  rw [readFile_eq volume path off none]
  cases volume.fileOf path with
  | error failure => exact .refl volume
  | ok ino =>
    obtain ⟨names, sources⟩ := readInode_sameView volume ino off count
    exact sameView_of_source names sources

theorem readFile_short (read : (readFile path off count volume).1 = .ok first)
    (short : first.length < count) (more : Nat) :
    (readFile path off (count + more) volume).1 = .ok first := by
  rw [readFile_eq volume path off (by omega)] at read ⊢
  cases found : volume.fileOf path with
  | error failure =>
    rw [found] at read
    cases read
  | ok ino =>
    rw [found] at read
    rw [readInode_source] at read ⊢
    split
    next past =>
      rw [if_pos past] at read
      exact read
    next before =>
      rw [if_neg before] at read
      cases sourced : volume.source ino with
      | error failure =>
        rw [sourced] at read
        cases read
      | ok bytes =>
        rw [sourced] at read
        cases read
        rw [length_take] at short
        simp only [Except.map]
        rw [take_of_length_le (by omega), take_of_length_le (by omega)]

theorem readFile_error {volume : KFS} {path : Bytes} {off : UInt64} {count other : Nat}
    {failure : FsError} (read : (readFile path off count volume).1 = .error failure)
    (positive : other ≠ 0) : (readFile path off other volume).1 = .error failure := by
  by_cases none : count = 0
  · subst none
    cases read
  rw [readFile_eq volume path off none] at read
  rw [readFile_eq volume path off positive]
  cases found : volume.fileOf path with
  | error failure =>
    rw [found] at read
    exact read
  | ok ino =>
    rw [found] at read
    rw [readInode_source] at read ⊢
    split
    next past =>
      rw [if_pos past] at read
      cases read
    next before =>
      rw [if_neg before] at read
      cases sourced : volume.source ino with
      | error failure =>
        rw [sourced] at read
        exact read
      | ok bytes =>
        rw [sourced] at read
        cases read

theorem length_source_le {bytes : Bytes} (sourced : volume.source ino = .ok bytes) :
    bytes.length ≤ volume.sizeOf ino := by
  unfold source at sourced
  split at sourced
  · cases sourced
    exact length_take_le _ _
  cases replayed : volume.replayData ino 0 (volume.sizeOf ino) with
  | error failure =>
    rw [replayed] at sourced
    cases sourced
  | ok whole =>
    rw [replayed] at sourced
    cases sourced
    exact length_take_le _ _

theorem readFile_continued (read : (readFile path off first.length volume).1 = .ok first)
    (nonempty : first ≠ []) {more : Nat} (positive : more ≠ 0) :
    ∃ rest, (readFile path (off + ofNat first.length) more volume).1 = .ok rest ∧
      (readFile path off (first.length + more) volume).1 = .ok (first ++ rest) := by
  have counted : first.length ≠ 0 := by rwa [ne_eq, length_eq_zero_iff]
  rw [readFile_eq volume path off counted] at read
  rw [readFile_eq volume path _ positive, readFile_eq volume path off (by omega)]
  cases found : volume.fileOf path with
  | error failure =>
    rw [found] at read
    cases read
  | ok ino =>
    rw [found] at read
    rw [readInode_source] at read
    split at read
    · cases read
      exact absurd rfl nonempty
    next before =>
    cases sourced : volume.source ino with
    | error failure =>
      rw [sourced] at read
      cases read
    | ok bytes =>
      rw [sourced] at read
      have taken : (bytes.drop off.toNat).take first.length = first := Except.ok.inj read
      have inside : off.toNat + first.length ≤ bytes.length := by
        have lengths := congrArg List.length taken
        rw [length_take, length_drop] at lengths
        omega
      have bounded := length_source_le sourced
      have word : volume.sizeOf ino < 2 ^ 32 := UInt32.toNat_lt _
      have advanced := Words.toNat_add_ofNat (show off.toNat + first.length < 2 ^ 64 by omega)
      refine ⟨((bytes.drop (off.toNat + first.length)).take more), ?_, ?_⟩
      · rw [readInode_source, advanced]
        split
        next past => rw [drop_of_length_le (by omega), take_nil]
        · rw [sourced]
          rfl
      · rw [readInode_source, if_neg before, sourced]
        simp only [Except.map]
        rw [take_add, taken, drop_drop]

/-! ## Writing in pieces -/

theorem patched_append (out : Bytes) (off : Nat) (first second : Bytes) :
    patched (patched out off first) (off + first.length) second =
      patched out off (first ++ second) := by
  apply ext_getElem?
  intro index
  rw [getElem?_patched, getElem?_patched, getElem?_patched, length_patched,
    length_append, List.getElem?_append]
  by_cases low : index < off + first.length
  · rw [if_neg (by omega)]
    by_cases inside : off ≤ index ∧ index < out.length
    · rw [if_pos (by omega), if_pos (by omega), if_pos (by omega)]
    · rw [if_neg (by omega), if_neg (by omega)]
  · by_cases inside : index < off + first.length + second.length ∧ index < out.length
    · rw [if_pos (by omega), if_pos (by omega), if_neg (by omega)]
      congr 1
      omega
    · rw [if_neg (by omega), if_neg (by omega), if_neg (by omega)]

/-- The records of the log read back up to the cursor. -/
structure LogReads (volume : KFS) : Prop where
  ready : volume.Ready
  laid : ∃ records, LogScan.Laid volume.recordAt logStart records volume.wOff

theorem LogReads.extends {added : List Record} (reads : before.LogReads)
    (extended : Extends before after added) :
    after.LogReads ∧ ∀ ino want, ∃ out, before.replayData ino 0 want = .ok out ∧ out.length = want ∧
      after.replayData ino 0 want = .ok (added.foldl (copySegment ino 0) out) := by
  obtain ⟨ready, records, laid⟩ := reads
  have shaped := extended.toGrows.shaped ready.toShaped
  have transferred :=
    laid_transfer ready.toShaped shaped extended.sameEnd
      extended.sameBlocks (Nat.le_refl _) extended.agree laid
  have whole := transferred.append extended.laid
  refine ⟨⟨extended.toGrows.ready ready, _, whole⟩, ?_⟩
  intro ino want
  refine ⟨_, replayData_fold ready.toShaped laid ino 0 want, ?_, ?_⟩
  · rw [length_foldl_copySegment, length_replicate]
  · rw [replayData_fold shaped whole, foldl_append]

theorem toNat_grownSize {size : UInt32} (noWrap : off.toNat + count < 2 ^ 64) :
    (grownSize size off count).toNat =
      if size.toNat < off.toNat + count then (off.toNat + count) % 2 ^ 32
      else size.toNat := by
  have stop := Words.toNat_add_ofNat noWrap
  have grows : size.toUInt64 < off + ofNat count ↔ size.toNat < off.toNat + count := by
    rw [lt_iff_toNat_lt, stop, UInt32.toNat_toUInt64]
  unfold grownSize
  simp only [grows]
  split
  · rw [toNat_toUInt32, stop]
  · rfl

theorem grownSize_grownSize {size : UInt32} {first second : Nat}
    (noWrap : off.toNat + first + second < 2 ^ 64) :
    grownSize (grownSize size off first) (off + ofNat first) second =
      grownSize size off (first + second) := by
  have stop := Words.toNat_add_ofNat (show off.toNat + first < 2 ^ 64 by omega)
  apply UInt32.toNat.inj
  rw [toNat_grownSize (by omega), toNat_grownSize (by omega), toNat_grownSize (by omega)]
  split_ifs <;> omega

/-- A write was recorded: the size of the file and its dropped cache. -/
structure Resized (before after : KFS) (ino : UInt32) (node : Inode)
    (off : UInt64) (data : Bytes) : Prop where
  reads : after.LogReads
  sameEnd : after.logEnd = before.logEnd
  toTree : after.toTree =
    { before.toTree with
      inodes :=
        update before.inodes ino (some { node with size := grownSize node.size off data.length })
      data := update before.data ino [] }

/-- A write was logged: every buffer sees its data record. -/
structure Logged (before after : KFS) (ino : UInt32) (node : Inode)
    (off : UInt64) (data : Bytes) : Prop
    extends Resized before after ino node off data where
  contents : ∀ other want, ∃ out, before.replayData other 0 want = .ok out ∧ out.length = want ∧
    after.replayData other 0 want = .ok (copySegment other 0 out (dataRecord ino off data))

/-- The file was written: its bytes are shown, clipped to its size. -/
structure Written (before after : KFS) (ino : UInt32) (node : Inode)
    (off : UInt64) (data : Bytes) : Prop
    extends Resized before after ino node off data where
  contents : ∀ other want, want < 2 ^ 32 → ∃ out, before.replayData other 0 want = .ok out ∧
    out.length = want ∧
    after.replayData other 0 want = .ok (if other = ino then patched out off.toNat data else out)

theorem Logged.written (logged : Logged before after ino node off data)
    (short : data.length ≤ maxWrite) (notSentinel : off ≠ truncSent)
    (noWrap : off.toNat + data.length < 2 ^ 64) : Written before after ino node off data where
  toResized := logged.toResized
  contents := by
    intro other want word
    obtain ⟨out, found, length, replayed⟩ := logged.contents other want
    refine ⟨out, found, length, ?_⟩
    rw [replayed]
    by_cases same : other = ino
    · subst same
      rw [if_pos rfl, copySegment_write short notSentinel noWrap (.inr (by omega))]
    · rw [if_neg same, copySegment_other (Ne.symm same)]

theorem Written.append {middle : KFS} {second : Bytes}
    (left : Written before middle ino node off first)
    (right : Written middle after ino { node with size := grownSize node.size off first.length }
      (off + ofNat first.length) second)
    (noWrap : off.toNat + first.length + second.length < 2 ^ 64) :
    Written before after ino node off (first ++ second) where
  reads := right.reads
  sameEnd := right.sameEnd.trans left.sameEnd
  toTree := by
    rw [right.toTree, left.toTree]
    simp [grownSize_grownSize noWrap]
  contents := by
    intro other want word
    obtain ⟨out, found, length, wrote⟩ := left.contents other want word
    obtain ⟨again, foundAgain, _, wroteAgain⟩ := right.contents other want word
    have stop := Words.toNat_add_ofNat (show off.toNat + first.length < 2 ^ 64 by omega)
    refine ⟨out, found, length, ?_⟩
    rw [wrote] at foundAgain
    cases foundAgain
    rw [wroteAgain]
    by_cases same : other = ino
    · simp [if_pos same, stop, patched_append]
    · simp [if_neg same]

theorem Written.sameView (leftWritten : Written before left ino node off data)
    (rightWritten : Written before right ino node off data) : SameView left right := by
  have sameTree : right.toTree = left.toTree := by rw [rightWritten.toTree, leftWritten.toTree]
  refine sameView_of_source ⟨?_, ?_, ?_⟩ ?_
  · rw [sameTree]
  · rw [sameTree]
  · rw [sameTree]
  intro other
  have size : right.sizeOf other = left.sizeOf other := by simp [sizeOf, sameTree]
  have cached : right.data other = left.data other := by rw [sameTree]
  have word : left.sizeOf other < 2 ^ 32 := UInt32.toNat_lt _
  obtain ⟨out, found, _, wrote⟩ := leftWritten.contents other _ word
  obtain ⟨again, foundAgain, _, wroteAgain⟩ := rightWritten.contents other _ word
  rw [found] at foundAgain
  cases foundAgain
  rw [source, source, size, cached, wrote, wroteAgain]

theorem append_reads {record : Record} (reads : before.LogReads) (readable : record.Readable)
    (appended : append record before = (.ok (), after)) :
    after.LogReads ∧ after.logEnd = before.logEnd ∧ ∀ ino want, ∃ out,
      before.replayData ino 0 want = .ok out ∧ out.length = want ∧ after.replayData ino 0 want =
        .ok (copySegment ino 0 out record) := by
  obtain ⟨added, extended, _, exact⟩ := append_extends reads.ready readable
  rw [appended] at extended exact
  obtain ⟨afterReads, contents⟩ := reads.extends extended
  refine ⟨afterReads, extended.sameEnd, ?_⟩
  intro ino want
  obtain ⟨out, found, length, replayed⟩ := contents ino want
  refine ⟨out, found, length, ?_⟩
  rw [replayed]
  rcases exact rfl with rfl | rfl
  · rfl
  · simp [copySegment, checkpointRecord]

theorem LogReads.sameLog (reads : before.LogReads) (same : SameLog before after) :
    after.LogReads ∧ ∀ ino want, after.replayData ino 0 want = before.replayData ino 0 want := by
  obtain ⟨afterReads, contents⟩ := reads.extends same.extends
  refine ⟨afterReads, fun ino want => ?_⟩
  obtain ⟨out, found, _, replayed⟩ := contents ino want
  rw [found, replayed, foldl_nil]

theorem logged_of_sameLog {logged : KFS} (reads : logged.LogReads)
    (sameEnd : logged.logEnd = before.logEnd)
    (contents : ∀ other want, ∃ out, before.replayData other 0 want = .ok out ∧ out.length = want ∧
      logged.replayData other 0 want = .ok (copySegment other 0 out (dataRecord ino off data)))
    (same : SameLog logged after) (toTree : after.toTree = { before.toTree with
        inodes :=
          update before.inodes ino (some { node with size := grownSize node.size off data.length })
        data := update before.data ino [] }) :
    Logged before after ino node off data := by
  obtain ⟨afterReads, replays⟩ := reads.sameLog same
  refine ⟨⟨afterReads, same.logEnd.trans sameEnd, toTree⟩, ?_⟩
  intro other want
  rw [replays]
  exact contents other want

/-- Where a write goes. -/
structure WriteTarget (volume : KFS) (path : Bytes) (ino : UInt32) (node : Inode) : Prop where
  resolves : ∃ parent leaf, volume.walkParent path = .ok (parent, leaf) ∧
    volume.lookup parent leaf = some ino
  recorded : volume.inodes ino = some node
  regularFile : node.kind ≠ kindDir

theorem writeTarget_or_error (volume : KFS) (path : Bytes) :
    (∃ ino node, WriteTarget volume path ino node) ∨ ∃ failure, ∀ off data,
      writeFile path off data volume = (.error failure, volume) := by
  cases resolved : volume.walkParent path with
  | error failure =>
    refine .inr ⟨failure, fun off data => ?_⟩
    rw [writeFile, look_bind, resolved]
    rfl
  | ok place =>
    obtain ⟨parent, leaf⟩ := place
    cases found : volume.lookup parent leaf with
    | none =>
      refine .inr ⟨.noEntry, fun off data => ?_⟩
      rw [writeFile, look_bind, resolved]
      simp [found]
    | some ino =>
      cases recorded : volume.inodes ino with
      | none =>
        refine .inr ⟨.isDir, fun off data => ?_⟩
        rw [writeFile, look_bind, resolved]
        simp [found, recorded]
      | some node =>
        by_cases directory : node.kind = kindDir
        · refine .inr ⟨.isDir, fun off data => ?_⟩
          rw [writeFile, look_bind, resolved]
          simp [found, recorded, directory]
        · exact .inl ⟨ino, node, ⟨parent, leaf, resolved, found⟩, recorded, directory⟩

theorem WriteTarget.stat (target : WriteTarget volume path ino node) :
    ∃ info, volume.stat path = .ok info := by
  obtain ⟨parent, leaf, resolved, found⟩ := target.resolves
  exact ⟨volume.statOf leaf ino, by simp [stat_eq resolved, found, target.recorded]⟩

theorem writeFile_logged {before : KFS} {path data : Bytes} {ino : UInt32} {node : Inode}
    {off : UInt64} (reads : before.LogReads) (target : WriteTarget before path ino node)
    (short : data.length ≤ maxWrite) (room : before.wOff + data.length + 73 ≤ before.logEnd) :
    ∃ after, writeFile path off data before = (.ok (), after) ∧
      Logged before after ino node off data ∧ after.wOff ≤ before.wOff + data.length + 73 := by
  obtain ⟨⟨parent, leaf, resolved, found⟩, recorded, regularFile⟩ := target
  have dataSize : (dataRecord ino off data).size = 25 + data.length := by
    simp [dataRecord, Record.size, hdrLen]
    omega
  obtain ⟨logged, appended, _, sameTree, cursor⟩ := append_of_room reads.ready
    (show before.wOff + (dataRecord ino off data).size + 13 ≤ before.logEnd by omega)
  obtain ⟨loggedReads, sameEnd, contents⟩ := append_reads reads (readable_dataRecord short) appended
  unfold writeFile appendData
  rw [look_bind, resolved, ofExcept_ok_bind]
  simp only [found, recorded, if_neg regularFile]
  rw [bind_of_ok appended]
  split
  next grows =>
    have nodeSize : (inodeRecord ⟨ino, node.uid, node.kind,
        grownSize node.size off data.length⟩).size = 22 := by
      simp [inodeRecord, Record.size, hdrLen]
    obtain ⟨settled, resized, _, resizedTree, resizedCursor⟩ := append_of_room loggedReads.ready
      (show logged.wOff + (inodeRecord ⟨ino, node.uid, node.kind,
        grownSize node.size off data.length⟩).size + 13 ≤ logged.logEnd by omega)
    obtain ⟨settledReads, settledEnd, settledContents⟩ :=
      append_reads loggedReads (readable_inodeRecord _) resized
    rw [bind_of_ok resized, setInode]
    refine ⟨_, rfl, logged_of_sameLog settledReads (settledEnd.trans sameEnd) ?_
      ⟨rfl, rfl, rfl, rfl⟩ ?_, ?_⟩
    · intro other want
      obtain ⟨out, wasFound, length, replayed⟩ := contents other want
      obtain ⟨again, foundAgain, _, settledShown⟩ := settledContents other want
      rw [replayed] at foundAgain
      cases foundAgain
      exact ⟨out, wasFound, length, by
        simp [settledShown, copySegment, inodeRecord]⟩
    · simp [resizedTree, sameTree]
    · dsimp only
      omega
  next kept =>
    refine ⟨_, rfl, logged_of_sameLog loggedReads sameEnd contents ⟨rfl, rfl, rfl, rfl⟩ ?_, ?_⟩
    · have unchanged : grownSize node.size off data.length = node.size := not_not.mp kept
      rw [unchanged, ← recorded, update_eq_self, ← sameTree]
    · dsimp only
      omega

theorem Resized.target (wrote : Resized before after ino node off data)
    (target : WriteTarget before path ino node) :
    WriteTarget after path ino { node with size := grownSize node.size off data.length } := by
  obtain ⟨⟨parent, leaf, resolved, found⟩, recorded, regularFile⟩ := target
  have lookups : ∀ parent leaf, after.lookup parent leaf = before.lookup parent leaf := by
    intro parent leaf
    rw [wrote.toTree]
    rfl
  have kinds : ∀ other, after.isDir other = before.isDir other := by
    intro other
    rw [wrote.toTree]
    by_cases same : other = ino
    · subst same
      simp [Tree.isDir, recorded]
    · simp [Tree.isDir, update_of_ne same]
  have walks : ∀ parts current, after.walkDirs current parts = before.walkDirs current parts := by
    intro parts
    induction parts with
    | nil => exact fun _ => rfl
    | cons part rest hypothesis =>
      intro current
      simp [Tree.walkDirs, lookups, kinds, hypothesis]
  refine ⟨⟨parent, leaf, ?_, ?_⟩, ?_, regularFile⟩
  · rw [← resolved]
    simp [Tree.walkParent, walks]
  · rw [lookups, found]
  · rw [wrote.toTree]
    exact update_self _ _ _

end KFS

end KernelLane.Kfs
