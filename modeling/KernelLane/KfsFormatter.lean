import KernelLane.KfsMount
import Mathlib.Data.UInt

namespace KernelLane.Kfs

open List KFS Effect

/-!
# The log writer of the image builder

The image builder writes a volume through a log writer of its own.  It gives
up on the first error, so a failed call leaves nothing behind that anyone
looks at.  Its appends are those of the mounted store: a writer is compared
here with a store that has the same device and counters and an empty tree.
-/

/-- An append-only KFS1 log writer. -/
structure Formatter where
  dev : BlockDev
  logEnd : Nat
  wOff : Nat
  recs : Nat
  nextIno : UInt32

def newFormatter (device : BlockDev) : Except FsError Formatter :=
  if device.geometry.1 = 0 ∨ device.geometry.2 = 0 then .error .kfsBadSB
  else
    .ok
      { dev := device
        logEnd := logLimit device.numBlocks
        wOff := logStart
        recs := 0
        nextIno := rootIno + 1 }

namespace Formatter

def writeRecord (f : Formatter) (record : Record) : Except FsError Formatter :=
  if f.logEnd < f.wOff + record.size then .error .noSpace
  else
    match writeRaw f.dev f.wOff record.frame with
    | none => .error .device
    | some device => .ok { f with dev := device, wOff := f.wOff + record.size }

def appendCheckpoint (f : Formatter) : Except FsError Formatter :=
  f.writeRecord (checkpointRecord f.nextIno)

def append (f : Formatter) (record : Record) : Except FsError Formatter := do
  let written ← f.writeRecord record
  if record.type = recCheckpoint then return written
  else
    let counted := { written with recs := written.recs + 1 }
    if counted.recs % cpEvery = 0 then counted.appendCheckpoint
    else return counted

def appendInode (f : Formatter) (uid : UInt32) (kind : UInt8)
    (size : UInt32) : Except FsError (UInt32 × Formatter) := do
  let ino := f.nextIno
  let written ← f.append (inodeRecord ⟨ino, uid, kind, size⟩)
  return (ino, { written with nextIno := written.nextIno + 1 })

def appendDirent (f : Formatter) (parent : UInt32) (name : Bytes)
    (ino : UInt32) : Except FsError Formatter :=
  f.append (direntRecord parent name ino)

def appendData (f : Formatter) (ino : UInt32) (off : UInt64)
    (data : Bytes) : Except FsError Formatter :=
  if off = truncSent then f.append (truncateRecord ino)
  else f.append (dataRecord ino off data)

end Formatter

def format (device : BlockDev) : Except FsError BlockDev := do
  if device.geometry.2 < 16 then .error .kfsBadSB
  else
    match device.write 0 (superblock device.geometry.1 device.geometry.2)
    with
    | none => .error .device
    | some started =>
      let f ← newFormatter started
      let f ← f.append (inodeRecord ⟨rootIno, 0, kindDir, 0⟩)
      let f ← f.appendCheckpoint
      return f.dev

/-! ## The writer as a store -/

namespace Formatter

def volume (f : Formatter) : KFS :=
  { toTree := { Tree.empty with nextIno := f.nextIno }
    dev := f.dev
    logData := []
    wOff := f.wOff
    recs := f.recs
    logEnd := f.logEnd }

def ofVolume (f : Formatter) (volume : KFS) : Formatter :=
  { f with dev := volume.dev, wOff := volume.wOff, recs := volume.recs }

def ofResult (f : Formatter) : Except FsError Unit × KFS → Except FsError Formatter
  | (.ok _, volume) => .ok (f.ofVolume volume)
  | (.error failure, _) => .error failure

theorem writeRecord_eq (f : Formatter) (record : Record) :
    f.writeRecord record = f.ofResult (KFS.writeRecord record f.volume) := by
  unfold writeRecord KFS.writeRecord
  change _ = f.ofResult (if f.logEnd < f.wOff + record.size then (.error .noSpace, f.volume)
    else
      match writeRaw f.dev f.wOff record.frame with
      | none => (.error .device, f.volume)
      | some device =>
        (.ok (), { f.volume with dev := device, wOff := f.wOff + record.size }))
  split
  · rfl
  cases writeRaw f.dev f.wOff record.frame with
  | none | some => rfl

theorem volume_ofVolume {f : Formatter} {record : Record} {next : KFS}
    (written : KFS.writeRecord record f.volume = (.ok (), next)) :
    (f.ofVolume next).volume = next := by
  unfold KFS.writeRecord at written
  split at written
  · simp at written
  split at written
  · simp at written
  rw [Prod.mk.injEq] at written
  rw [← written.2]
  rfl

theorem append_eq (f : Formatter) {record : Record} (counted : record.type ≠ recCheckpoint) :
    f.append record = f.ofResult (KFS.append record f.volume) := by
  unfold append KFS.append
  rw [writeRecord_eq]
  cases written : KFS.writeRecord record f.volume with
  | mk status next =>
    cases status with
    | error failure =>
      rw [bind_of_error written]
      rfl
    | ok value =>
      rw [bind_of_ok written, change_bind, look_bind]
      have same := volume_ofVolume written
      simp only [ofResult, bind, Except.bind, if_neg counted]
      change (if (next.recs + 1) % cpEvery = 0 then
          appendCheckpoint { f.ofVolume next with recs := next.recs + 1 }
        else pure { f.ofVolume next with recs := next.recs + 1 }) =
        f.ofResult _
      split
      · have paced : ({ f.ofVolume next with recs := next.recs + 1 } : Formatter).volume =
            { next with recs := next.recs + 1 } := by
          rw [← same]
          rfl
        have counter : next.nextIno = f.nextIno := by
          rw [← same]
          rfl
        change Formatter.writeRecord _ (checkpointRecord f.nextIno) = f.ofResult
          (KFS.writeRecord (checkpointRecord next.nextIno) { next with recs := next.recs + 1 })
        rw [writeRecord_eq, paced, counter]
        rfl
      · rfl

end Formatter

/-! ## Sequences of records -/

/-- A record that the image builder appends, before it is encoded. -/
inductive Put where
  | inode (node : Inode)
  | dirent (parent : UInt32) (name : Bytes) (ino : UInt32)
  | data (ino : UInt32) (off : UInt64) (bytes : Bytes)
  deriving Repr, DecidableEq

namespace Put

def record : Put → Record
  | inode node => inodeRecord node
  | dirent parent name ino => direntRecord parent name ino
  | data ino off bytes => dataRecord ino off bytes

/-- Replay can read the record and apply it. -/
def Short : Put → Prop
  | inode _ => True
  | dirent _ name _ => name.length ≤ maxName
  | data _ off bytes => bytes.length ≤ maxWrite ∧ off.toNat + bytes.length < 2 ^ 63

def bump : Put → UInt32
  | inode _ => 1
  | dirent _ _ _ => 0
  | data _ _ _ => 0

theorem Short.regular {put : Put} (short : put.Short) : Regular put.record := by
  cases put with
  | inode node => exact .inode node
  | dirent parent name ino => exact .dirent short
  | data ino off bytes => exact .data short.1 short.2

theorem type_record (put : Put) : put.record.type ≠ recCheckpoint := by
  cases put <;> simp [record, inodeRecord, direntRecord, dataRecord, recInode,
    recDirent, recData, recCheckpoint]

end Put

def unpaced (records : List Record) : List Record := records.filter (·.type ≠ recCheckpoint)

theorem unpaced_append (first second : List Record) :
    unpaced (first ++ second) = unpaced first ++ unpaced second :=
  filter_append ..

namespace Formatter

def put (f : Formatter) (put : Put) : Except FsError Formatter := do
  let written ← f.append put.record
  return { written with nextIno := written.nextIno + put.bump }

def putAll : Formatter → List Put → Except FsError Formatter
  | f, [] => .ok f
  | f, put :: rest => do
    let next ← f.put put
    next.putAll rest

theorem putAll_append (f : Formatter) (first second : List Put) : f.putAll (first ++ second) =
    (f.putAll first).bind (·.putAll second) := by
  induction first generalizing f with
  | nil => rfl
  | cons put rest hypothesis =>
    simp only [cons_append, putAll, bind]
    cases f.put put with
    | error failure => rfl
    | ok next => exact hypothesis next

variable {f next : Formatter} {puts : List Put}

theorem append_of_ok {record : Record} (counted : record.type ≠ recCheckpoint)
    (appended : f.append record = .ok next) :
    KFS.append record f.volume = (.ok (), (KFS.append record f.volume).2) ∧
      next = f.ofVolume (KFS.append record f.volume).2 := by
  rw [append_eq f counted] at appended
  generalize KFS.append record f.volume = result at appended ⊢
  obtain ⟨status, volume⟩ := result
  cases status with
  | error failure => simp [ofResult] at appended
  | ok value => exact ⟨rfl, by simpa [ofResult, eq_comm] using appended⟩

theorem put_of_ok {put : Put} (appended : f.put put = .ok next) :
    KFS.append put.record f.volume = (.ok (), (KFS.append put.record f.volume).2) ∧ next =
      { f.ofVolume (KFS.append put.record f.volume).2 with
        nextIno := f.nextIno + put.bump } := by
  cases written : f.append put.record with
  | error failure =>
    rw [Formatter.put, written] at appended
    cases appended
  | ok middle =>
    rw [Formatter.put, written] at appended
    cases appended
    obtain ⟨ran, rfl⟩ := append_of_ok put.type_record written
    exact ⟨ran, rfl⟩

theorem laid_end {volume : KFS} (shaped : volume.Shaped) {start final : Nat} {records : List Record}
    (pastStart : logStart ≤ start) (laid : LogScan.Laid volume.recordAt start records final) :
    final = start + (records.map Record.size).sum := by
  induction laid with
  | nil => simp
  | cons head _ hypothesis =>
    obtain ⟨rfl, _⟩ := (recordAt_eq_some_iff shaped pastStart _).mp head
    rw [hypothesis (by omega), map_cons, sum_cons]
    omega

theorem putAll_nextIno (appended : f.putAll puts = .ok next) :
    next.nextIno = f.nextIno + (puts.map Put.bump).sum := by
  induction puts generalizing f with
  | nil =>
    cases appended
    simp
  | cons put rest hypothesis =>
    rw [putAll] at appended
    cases first : f.put put with
    | error failure =>
      rw [first] at appended
      cases appended
    | ok middle =>
      rw [first] at appended
      obtain ⟨_, rfl⟩ := put_of_ok first
      rw [hypothesis appended, map_cons, sum_cons, UInt32.add_assoc]

variable (ready : f.volume.Ready)
include ready

/-- Appending keeps the end of the log and the inode counter of a store. -/
theorem volume_append (record : Record) :
    (f.ofVolume (KFS.append record f.volume).2).volume = (KFS.append record f.volume).2 := by
  have outcome := KFS.append_outcome ready record
  generalize KFS.append record f.volume = result at outcome ⊢
  cases outcome <;> rfl

theorem sameLog_put (put : Put) : KFS.SameLog (KFS.append put.record f.volume).2
      { f.ofVolume (KFS.append put.record f.volume).2 with
        nextIno := f.nextIno + put.bump : Formatter }.volume := by
  rw [← volume_append ready put.record]
  exact ⟨rfl, rfl, rfl, rfl⟩

theorem put_extends {put : Put} (short : put.Short) (appended : f.put put = .ok next) :
    ∃ added, KFS.Extends f.volume next.volume added ∧ unpaced added = [put.record] ∧
      ∀ record ∈ added, Regular record := by
  obtain ⟨ran, rfl⟩ := put_of_ok appended
  obtain ⟨added, grown, shape, exact⟩ := append_extends ready short.regular.readable
  refine ⟨added, ?_, ?_, ?_⟩
  · simpa using grown.trans ready (sameLog_put ready put).extends
  · rw [ran] at exact
    have checkpoint (saved : UInt32) : (checkpointRecord saved).type = recCheckpoint := rfl
    rcases exact rfl with rfl | rfl
    · simp [unpaced, put.type_record]
    · simp [unpaced, put.type_record, checkpoint]
  · intro record member
    rcases shape record member with rfl | rfl
    · exact short.regular
    · exact .checkpoint _

/-- Records that all replay are appended as themselves and checkpoints. -/
theorem putAll_extends (short : ∀ put ∈ puts, put.Short) (appended : f.putAll puts = .ok next) :
    ∃ added, KFS.Extends f.volume next.volume added ∧ unpaced added = puts.map Put.record ∧
      ∀ record ∈ added, Regular record := by
  induction puts generalizing f with
  | nil =>
    cases appended
    exact ⟨[], KFS.Extends.refl _, rfl, by simp⟩
  | cons put rest hypothesis =>
    rw [forall_mem_cons] at short
    rw [putAll] at appended
    cases first : f.put put with
    | error failure =>
      rw [first] at appended
      cases appended
    | ok middle =>
      rw [first] at appended
      obtain ⟨added, grown, shape, regular⟩ := put_extends ready short.1 first
      have middleReady := grown.toGrows.ready ready
      obtain ⟨later, laterGrown, laterShape, laterRegular⟩ :=
        hypothesis middleReady short.2 appended
      refine ⟨added ++ later, grown.trans ready laterGrown, ?_,
        forall_mem_append.mpr ⟨regular, laterRegular⟩⟩
      rw [unpaced_append, shape, laterShape]
      rfl

theorem append_of_room {record : Record}
    (counted : record.type ≠ recCheckpoint) (room : f.wOff + (record.size + 13) ≤ f.logEnd) :
    ∃ next, f.append record = .ok next ∧ next.volume = (KFS.append record f.volume).2 ∧
      KFS.Grows f.volume next.volume ∧ next.wOff ≤ f.wOff + (record.size + 13) := by
  have enough : f.volume.wOff + record.size + 13 ≤ f.volume.logEnd := by rwa [Nat.add_assoc]
  obtain ⟨after, ran, grows, _, cursor⟩ := KFS.append_of_room ready enough
  have written := volume_append ready record
  refine ⟨_, ?_, written, ?_, ?_⟩
  · rw [append_eq f counted, ran]
    rfl
  · rw [written, ran]
    exact grows
  · rw [← Nat.add_assoc, ran]
    exact cursor

theorem put_of_room {put : Put} (room : f.wOff + (put.record.size + 13) ≤ f.logEnd) :
    ∃ next, f.put put = .ok next ∧ KFS.Grows f.volume next.volume ∧
      next.wOff ≤ f.wOff + (put.record.size + 13) := by
  obtain ⟨next, appended, _, grows, cursor⟩ := append_of_room ready put.type_record room
  have counted : KFS.SameLog next.volume
      { next with nextIno := next.nextIno + put.bump : Formatter }.volume :=
    ⟨rfl, rfl, rfl, rfl⟩
  refine ⟨_, ?_, grows.trans counted.extends.toGrows, cursor⟩
  rw [Formatter.put, appended]
  rfl

theorem putAll_of_room (room : f.wOff + (puts.map fun put => put.record.size + 13).sum ≤ f.logEnd) :
    ∃ next, f.putAll puts = .ok next ∧ KFS.Grows f.volume next.volume ∧ next.wOff ≤
      f.wOff + (puts.map fun put => put.record.size + 13).sum := by
  induction puts generalizing f with
  | nil => exact ⟨f, rfl, KFS.Grows.refl _, by simp⟩
  | cons put rest hypothesis =>
    rw [map_cons, sum_cons] at room ⊢
    obtain ⟨middle, appended, grows, cursor⟩ :=
      put_of_room ready (show f.wOff + (put.record.size + 13) ≤ f.logEnd by omega)
    have sameEnd : middle.logEnd = f.logEnd := grows.sameEnd
    obtain ⟨next, later, laterGrows, laterCursor⟩ := hypothesis (grows.ready ready) (by omega)
    refine ⟨next, ?_, grows.trans laterGrows, by omega⟩
    rw [putAll, appended]
    exact later

end Formatter

theorem newFormatter_of_blocks {device : BlockDev} (blocks : 0 < device.numBlocks.toNat) : ∃ f,
    newFormatter device = .ok f ∧ f.volume = formatVolume device ∧ f.nextIno = rootIno + 1 := by
  have shape : ¬ (device.geometry.1 = 0 ∨ device.geometry.2 = 0) := by
    rintro (noSize | noBlocks)
    · have size : (512 : UInt32) = 0 := noSize
      revert size
      decide
    · have none : device.numBlocks = 0 := noBlocks
      rw [none] at blocks
      exact Nat.lt_irrefl 0 blocks
  exact ⟨_, if_neg shape, rfl, rfl⟩

/-- The formatter of the image builder lays down what `FormatKFS` does. -/
theorem format_eq (device : BlockDev) : format device = formatKFS device := by
  unfold format formatKFS
  by_cases few : device.geometry.2 < 16
  · rw [if_pos few, if_pos (.inr few)]
  have many : 16 ≤ device.numBlocks.toNat := UInt64.le_iff_toNat_le.mp (UInt64.not_lt.mp few)
  have written : device.write 0 (superblock 512 device.geometry.2) = _ := superblock_written many
  have sameWrite : device.write 0 (superblock device.geometry.1 device.geometry.2) = _ := written
  obtain ⟨fresh, made, volume, counter⟩ := newFormatter_of_blocks
    (show 0 < (device.splice 0 (superblock 512 device.numBlocks)).numBlocks.toNat by
      rw [BlockDev.numBlocks_splice]
      omega)
  have ready : fresh.volume.Ready := volume ▸ formatVolume_ready _
  have rooted := fresh.volume_append ready rootRecord
  rw [if_neg few, if_neg (not_or.mpr ⟨fun other => other rfl, few⟩), written, sameWrite]
  dsimp only
  rw [made, ← volume]
  dsimp only [bind, Except.bind]
  have logged : formatLog = (append rootRecord >>= fun _ => appendCheckpoint) := rfl
  rw [Formatter.append_eq fresh (by decide), logged,
    show inodeRecord ⟨rootIno, 0, kindDir, 0⟩ = rootRecord from rfl]
  rcases result : append rootRecord fresh.volume with ⟨status, next⟩
  rw [result] at rooted
  cases status with
  | error failure =>
    rw [bind_of_error result]
    rfl
  | ok value =>
    have sameCounter : (fresh.ofVolume next).nextIno = next.nextIno := congrArg (·.nextIno) rooted
    rw [bind_of_ok result]
    dsimp only [Formatter.ofResult, Formatter.appendCheckpoint, appendCheckpoint]
    rw [Formatter.writeRecord_eq, rooted, sameCounter]
    generalize writeRecord _ next = last
    obtain ⟨_ | _, last⟩ := last <;> rfl

/-! ## What an append leaves on the device -/

/-- A successful append of the mounted store or of the log writer, the writer seen as a store. -/
inductive Appends (record : Record) : KFS → KFS → Prop where
  | store {volume after : KFS} (counted : record.type ≠ recCheckpoint)
    (ran : append record volume = (.ok (), after)) : Appends record volume after
  | checkpoint {volume after : KFS} (own : record = checkpointRecord volume.nextIno)
    (ran : appendCheckpoint volume = (.ok (), after)) : Appends record volume after
  | writer {f next : Formatter} (ran : f.append record = .ok next) :
    Appends record f.volume next.volume

theorem Appends.dev {record : Record} {volume after : KFS} (appends : Appends record volume after)
    (ready : volume.Ready) : after.dev = volume.spliced record ∧ KFS.Grows volume after := by
  have pushed (kept : record.type = recCheckpoint) :
      (volume.push record).dev = volume.spliced record := by simp [KFS.spliced, kept, KFS.push]
  cases appends with
  | store counted ran =>
    have grows := KFS.append_grows ready record
    rw [ran] at grows
    exact ⟨KFS.append_dev ready counted ran, grows⟩
  | checkpoint own ran =>
    rw [KFS.appendCheckpoint, ← own, KFS.writeRecord_eq ready] at ran
    split at ran
    · cases ran
    · obtain rfl := (Prod.mk.inj ran).2
      exact ⟨pushed (own ▸ rfl), KFS.grows_push volume record⟩
  | @writer f next ran =>
    by_cases kept : record.type = recCheckpoint
    · rw [Formatter.append, Formatter.writeRecord_eq, KFS.writeRecord_eq ready] at ran
      split at ran
      · cases ran
      · simp only [Formatter.ofResult, bind, Except.bind] at ran
        obtain rfl := Except.ok.inj ran
        exact ⟨pushed kept, KFS.grows_push f.volume record⟩
    · obtain ⟨stored, rfl⟩ := Formatter.append_of_ok kept ran
      rw [Formatter.volume_append ready]
      exact ⟨KFS.append_dev ready kept stored, KFS.append_grows ready record⟩

/-- Either writer replaces exactly the bytes of the record and of the checkpoint
that is due, and every range of the device then reads back as spliced. -/
theorem append_splices {record : Record} {volume after : KFS} (ready : volume.Ready)
    (preloaded : volume.logData = volume.dev.image.readBytes 0 volume.logData.length)
    (appends : Appends record volume after) : after.dev = volume.spliced record ∧
      ∀ off count, off < after.dev.capacity → off + count ≤ after.dev.capacity →
        after.readAt off count = .ok (after.dev.image.readBytes off count) := by
  obtain ⟨device, grows⟩ := appends.dev ready
  refine ⟨device, fun off count startInside inside => ?_⟩
  refine readAt_of_served startInside inside fun short => ?_
  have shortPreload := ready.preloadShort
  have cursorPast := ready.cursorPast
  rw [grows.samePreload] at short ⊢
  rw [preloaded, Image.drop_take_readBytes _ (by simpa using short), Nat.zero_add]
  exact grows.agree.readBytes (by omega)

theorem append_splices_root : ∃ after, Appends rootRecord (formatVolume ⟨1024, fun _ => 0⟩) after ∧
      after.dev = (formatVolume ⟨1024, fun _ => 0⟩).spliced rootRecord := by
  have ready := formatVolume_ready ⟨1024, fun _ => 0⟩
  obtain ⟨after, ran, -⟩ := append_of_room ready
    (show _ + rootRecord.size + 13 ≤ _ by decide +kernel)
  have appends := Appends.store (by decide) ran
  exact ⟨after, appends, (append_splices ready rfl appends).1⟩

end KernelLane.Kfs
