import KernelLane.KfsRemount

namespace KernelLane.Kfs

open GuestFrame KFS Tree

/-!
# Torn writes

A crash may cut the log anywhere: every byte from the cut on reads zero.  A
history of replayable calls, whatever they returned, leaves a log from which
the mount recovers exactly the records that the cut left unchanged.  A record
cut inside its header has a zero type byte; a record cut inside its payload
is caught by the checksum, as far as the checksum distinguishes the two
payloads.
-/

def cutDevice (device : BlockDev) (cut : Nat) : BlockDev :=
  { device with image := device.image.cutAt cut }

def cutPayload (image : Image) (cut position : Nat) (record : Record) : Bytes :=
  (image.cutAt cut).readBytes (position + hdrLen) record.payload.length

/-- The checksum of every payload of the log that the cut changed differs. -/
def CutNoticed (live : KFS) (records : List Record) (cut : Nat) : Prop :=
  ∀ leading record trailing position, records = leading ++ record :: trailing →
    LogScan.Laid live.recordAt logStart leading position →
    cutPayload live.dev.image cut position record ≠ record.payload →
    checksumIEEE (cutPayload live.dev.image cut position record) ≠ checksumIEEE record.payload

/--
The longest beginning of a log whose bytes the cut left unchanged: the record
behind it, if there is one, lost a byte.
-/
structure LongestIntact (live : KFS) (records : List Record) (cut : Nat) (kept : List Record)
    (stop : Nat) : Prop where
  laid : LogScan.Laid live.recordAt logStart kept stop
  intact : ∀ index, logStart ≤ index → index < stop →
    live.dev.image.cutAt cut index = live.dev.image index
  longest : ∃ rest, records = kept ++ rest ∧ ∀ record more, rest = record :: more → ∃ index,
    stop ≤ index ∧ index < stop + record.size ∧
      live.dev.image.cutAt cut index ≠ live.dev.image index

/-- A replayable call, whatever it returns. -/
def Op.ReplayableStep (before : KFS) (op : Op) (after : KFS) : Prop :=
  op.Replayable ∧ op.Returns before after

/-- A volume whose log holds regular records and is followed by zeros. -/
structure KFS.Tidy (volume : KFS) (records : List Record) : Prop where
  ready : volume.Ready
  backed : volume.Backed
  blank : volume.BlankTail
  laid : LogScan.Laid volume.recordAt logStart records volume.wOff
  regular : ∀ record ∈ records, Regular record

theorem tidy_replayableStep {before after : KFS} {op : Op} (tidy : ∃ records, before.Tidy records)
    (step : op.ReplayableStep before after) : ∃ records, after.Tidy records := by
  obtain ⟨records, tidy⟩ := tidy
  obtain ⟨replayable, returns⟩ := step
  have kept : (op.run before).2.Ready ∧ KFS.GrowsRegularly before (op.run before).2 :=
    growsRegularlyRelation.keeps_run (fun _ writes => replayable.regular writes) before tidy.ready
  rw [Op.Returns] at returns
  rw [returns] at kept
  obtain ⟨ready, added, grown, addedRegular⟩ := kept
  have carried :=
    laid_transfer tidy.ready.toShaped ready.toShaped grown.sameEnd
      grown.sameBlocks (Nat.le_refl _) grown.agree tidy.laid
  exact ⟨records ++ added, ready, tidy.backed.grows tidy.ready grown.toGrows,
    tidy.blank.grows grown.toGrows, carried.append grown.laid,
    List.forall_mem_append.mpr ⟨tidy.regular, addedRegular⟩⟩

variable {device : BlockDev} {live : KFS}

variable {formatted : BlockDev} {start : KFS}

theorem tidy_formatted (zeroed : ZeroedLog device)
    (format : formatKFS device = .ok formatted) (mounted : mountKFS formatted = .mounted start) :
    ∃ records, start.Tidy records := by
  obtain ⟨⟨tree, inStep⟩, backed, blank⟩ := durable_formatted zeroed format mounted
  obtain ⟨records, laid, regular, _⟩ := inStep.logTree
  exact ⟨records, inStep.ready, backed, blank, laid, regular⟩

theorem fields_of_same_header {first second : Record}
    (firstShort : first.payload.length ≤ maxPayload)
    (secondShort : second.payload.length ≤ maxPayload) (same : first.header = second.header) :
    first.payload.length = second.payload.length ∧
      checksumIEEE first.payload = checksumIEEE second.payload := by
  obtain ⟨firstLength, firstSum, _⟩ := first.header_fields firstShort
  obtain ⟨secondLength, secondSum, _⟩ := second.header_fields secondShort
  rw [same] at firstLength firstSum
  exact ⟨firstLength.symm.trans secondLength, firstSum.symm.trans secondSum⟩

theorem stuck_at_changed {cut stop size : Nat} {record : Record} (pastStart : logStart ≤ stop)
    (found : (bootVolume device).recordAt stop = some (record, size))
    (changed : ∃ index, stop ≤ index ∧ index < stop + size ∧
      device.image.cutAt cut index ≠ device.image index)
    (noticed : cutPayload device.image cut stop record ≠ record.payload →
      checksumIEEE (cutPayload device.image cut stop record) ≠ checksumIEEE record.payload)
    (tree : Tree) :
    LogScan.Stuck (bootVolume (cutDevice device cut)).recordAt apply tree stop := by
  obtain ⟨rfl, holds, short, _, _⟩ :=
    (recordAt_eq_some_iff (bootVolume_shaped device) pastStart _).mp found
  by_cases inHeader : cut ≤ stop + 8
  · apply stuck_of_zero (bootVolume_shaped (cutDevice device cut)) pastStart
    intro _
    exact if_neg (by omega)
  intro other otherSize otherFound
  exfalso
  obtain ⟨_, otherHolds, otherShort, _, _⟩ :=
    (recordAt_eq_some_iff (bootVolume_shaped (cutDevice device cut)) pastStart _).mp otherFound
  have sameHeader : other.header = record.header := by
    rw [← (holdsAt_iff.mp holds).1, ← (holdsAt_iff.mp otherHolds).1]
    refine Image.readBytes_congr fun index _ high => if_pos ?_
    simp only [hdrLen] at high
    omega
  obtain ⟨sameLength, sameChecksum⟩ := fields_of_same_header otherShort short sameHeader
  have payloadLeft : cutPayload device.image cut stop record = other.payload := by
    rw [← (holdsAt_iff.mp otherHolds).2, cutPayload, sameLength]
    rfl
  rw [payloadLeft] at noticed
  have samePayload : other.payload = record.payload := by
    by_contra different
    exact noticed different sameChecksum
  -- Both devices hold the same frame, so that the cut changed no byte of it.
  obtain ⟨index, low, high, differs⟩ := changed
  have sameFrame : (device.image.cutAt cut).readBytes stop record.size =
      device.image.readBytes stop record.size := by
    refine Eq.trans ?_ holds.symm
    rw [Record.frame_eq, ← sameHeader, Record.size, ← samePayload, ← Record.frame_eq]
    exact otherHolds
  have sameByte := congrArg (·[index - stop]?) sameFrame
  simp only [Image.getElem?_readBytes, Nat.add_sub_cancel' low] at sameByte
  rw [if_pos (by omega), if_pos (by omega), Option.some.injEq] at sameByte
  exact differs sameByte

variable {records : List Record}

theorem KFS.Tidy.mount_cut {cut : Nat} (tidy : live.Tidy records)
    (inLog : logStart ≤ cut) (noticed : CutNoticed live records cut) :
    ∃ kept stop tree, LongestIntact live records cut kept stop ∧
      LogScan.applyAll apply empty kept = some tree ∧ mountKFS (cutDevice live.dev cut) =
        .mounted (recovered (cutDevice live.dev cut) tree stop) := by
  obtain ⟨kept, rest, stop, split, keptLaid, restLaid, intact, next⟩ :=
    tidy.laid.longest (fun index => live.dev.image.cutAt cut index = live.dev.image index)
  have shaped := tidy.ready.toShaped
  have cutShaped := bootVolume_shaped (cutDevice live.dev cut)
  have bounds := laid_bounds shaped (Nat.le_refl _) keptLaid
  have pastStart : logStart ≤ stop := by omega
  have keptRegular : ∀ record ∈ kept, Regular record := by
    intro record member
    exact tidy.regular record (by rw [split]; simp [member])
  obtain ⟨tree, applies⟩ := applyAll_regular keptRegular empty
  have agree : Image.AgreeBelow stop live.dev.image (cutDevice live.dev cut).image := by
    intro index low
    by_cases early : index < cut
    · exact (if_pos early).symm
    · exact (intact index (by omega) low).symm
  have valid : ValidSuperblock (cutDevice live.dev cut) :=
    tidy.backed.superblock.of_agree rfl fun index low => agree index (by omega)
  have bootKept :=
    laid_transfer shaped cutShaped tidy.backed.limit.symm rfl (Nat.le_refl _) agree keptLaid
  have stuck : LogScan.Stuck (bootVolume (cutDevice live.dev cut)).recordAt
      apply tree stop := by
    cases rest with
    | nil =>
      cases restLaid
      apply stuck_of_zero cutShaped pastStart
      intro inside
      by_cases early : live.wOff + 8 < cut
      · have capacity : live.wOff + hdrLen < live.dev.capacity := inside
        simp only [hdrLen] at capacity
        exact (if_pos early).trans (tidy.blank _ (Nat.le_add_right _ _) (by omega))
      · exact if_neg early
    | cons record more =>
      obtain ⟨size, found, changed⟩ := next record more rfl
      have bootFound : (bootVolume live.dev).recordAt stop = some (record, size) := by
        rw [recordAt_eq_some_iff shaped pastStart] at found
        rw [recordAt_eq_some_iff (bootVolume_shaped live.dev) pastStart]
        refine ⟨found.1, found.2.1, found.2.2.1, ?_, found.2.2.2.2⟩
        have fits := found.2.2.2.1
        rw [tidy.backed.limit] at fits
        exact fits
      exact stuck_at_changed pastStart bootFound changed
        (noticed kept record more stop split keptLaid) tree
  refine ⟨kept, stop, tree, ⟨keptLaid, intact, rest, split, ?_⟩, applies,
    mountKFS_of_laid valid bootKept applies stuck⟩
  intro record more restShape
  obtain ⟨size, found, changed⟩ := next record more restShape
  obtain ⟨rfl, _⟩ := (recordAt_eq_some_iff shaped pastStart _).mp found
  exact changed

/--
In every history of replayable calls over a zeroed log area, wherever the log
is cut, a mount succeeds and recovers the tree of the longest beginning of
the log that the cut left unchanged.
-/
theorem torn_log_recovers_prefix {ops : List Op}
    (zeroed : ZeroedLog device) (format : formatKFS device = .ok formatted)
    (mounted : mountKFS formatted = .mounted start) (run : Run Op.ReplayableStep start ops live) :
    ∃ records, LogScan.Laid live.recordAt logStart records live.wOff ∧ ∀ cut, logStart ≤ cut →
      CutNoticed live records cut → ∃ kept stop tree, LongestIntact live records cut kept stop ∧
        LogScan.applyAll apply empty kept = some tree ∧
        mountKFS (cutDevice live.dev cut) = .mounted
          (recovered (cutDevice live.dev cut) tree stop) := by
  have tidy : ∃ records, live.Tidy records :=
    run.invariant tidy_replayableStep (tidy_formatted zeroed format mounted)
  obtain ⟨records, tidy⟩ := tidy
  exact ⟨records, tidy.laid, fun cut inLog noticed => tidy.mount_cut inLog noticed⟩

theorem cutNoticed_at_end (shaped : live.Shaped)
    (laid : LogScan.Laid live.recordAt logStart records live.wOff) :
    CutNoticed live records live.wOff := by
  intro leading record trailing position split leadingLaid changed
  rw [split] at laid
  obtain ⟨middle, middleLaid, later⟩ := laid.split
  obtain rfl := leadingLaid.end_unique middleLaid
  have pastStart := (laid_bounds shaped (Nat.le_refl _) leadingLaid).1
  cases later with
  | cons found tail =>
    obtain ⟨rfl, holds, _, _, _⟩ := (recordAt_eq_some_iff shaped (by omega) _).mp found
    have bounds := (laid_bounds shaped (by omega) tail).1
    refine absurd ?_ changed
    rw [← (holdsAt_iff.mp holds).2, cutPayload]
    apply Image.readBytes_congr
    intro index _ high
    simp only [Record.size] at bounds
    exact if_pos (by omega)

/-- The history that creates one file, with its log cut at the end. -/
theorem torn_log_of_created_file : ∃ formatted start live, ZeroedLog zeroDevice ∧
    formatKFS zeroDevice = .ok formatted ∧ mountKFS formatted = .mounted start ∧
    Run Op.ReplayableStep start [.create onePath] live ∧
    ∃ records kept stop tree, LogScan.Laid live.recordAt logStart records live.wOff ∧
      CutNoticed live records live.wOff ∧ LongestIntact live records live.wOff kept stop ∧
      LogScan.applyAll apply empty kept = some tree ∧
      mountKFS (cutDevice live.dev live.wOff) = .mounted
        (recovered (cutDevice live.dev live.wOff) tree stop) := by
  obtain ⟨formatted, start, live, format, mounted, run⟩ := zeroDevice_created
  obtain ⟨_, inStep⟩ :=
    (run.invariant durable_recordedStep (durable_formatted zeroDevice_zeroed format mounted)).inStep
  have replayable : Run Op.ReplayableStep start [.create onePath] live :=
    run.weaken fun step => ⟨step.1.1, step.2.returns⟩
  obtain ⟨records, laid, recovers⟩ :=
    torn_log_recovers_prefix zeroDevice_zeroed format mounted replayable
  have noticed := cutNoticed_at_end inStep.ready.toShaped laid
  obtain ⟨kept, stop, tree, longest, applies, remounted⟩ :=
    recovers live.wOff inStep.ready.cursorPast noticed
  exact ⟨formatted, start, live, zeroDevice_zeroed, format, mounted, replayable, records, kept,
    stop, tree, laid, noticed, longest, applies, remounted⟩

/-! ## Offsets that replay cannot apply -/

def panics (device : BlockDev) : Bool :=
  match mountKFS device with
  | .panicked => true
  | _ => false

theorem of_panics (evaluated : panics device) : mountKFS device = .panicked := by
  unfold panics at evaluated
  split at evaluated
  · assumption
  · cases evaluated

/--
A successful write at offset `2 ^ 63`: the log is cut at its very end, so no
record of it changed, and the mount panics.
-/
theorem mount_panics_after_far_write : ∃ formatted start created live,
    formatKFS zeroDevice = .ok formatted ∧ mountKFS formatted = .mounted start ∧
      Op.Succeeds start (.create onePath) created ∧
      Op.Succeeds created (.writeFile onePath 0x8000000000000000 [1]) live ∧
      mountKFS (cutDevice live.dev live.wOff) = .panicked := by
  obtain ⟨formatted, start, live, format, mounted, run, panics⟩ :=
    of_evaluates (show evaluates (fun _ live => panics (cutDevice live.dev live.wOff))
      [.create onePath, .writeFile onePath 0x8000000000000000 [1]] zeroDevice by decide +kernel)
  obtain ⟨created, creates, writes⟩ := run.pair
  exact ⟨formatted, start, created, live, format, mounted, creates, writes, of_panics panics⟩

end KernelLane.Kfs
