import KernelLane.KfsLinks
import KernelLane.KfsRemount
import KernelLane.KfsSeed
import Mathlib.Algebra.Order.BigOperators.Group.List

namespace KernelLane.Kfs

open List Formatter KFS

/-!
# Mounting a seeded volume

Seeding formats the volume first and then appends from the start of the log
again, over the records of the format.  So the root inode is not recorded in
a seeded volume, and behind a log that is shorter than that of the format the
old bytes remain.  Replay applies what seeding appended and stops there.
-/

variable {f : Formatter} {vol seeded : BlockDev} {above : Bytes} {host : HostTree}
  {puts : List Put} {after : Bytes → Option UInt32}

theorem Formatter.appendCheckpoint_of_ok {next : Formatter} (ready : f.volume.Ready)
    (appended : f.appendCheckpoint = .ok next) :
    ¬ f.volume.logEnd < f.volume.wOff + (checkpointRecord f.nextIno).size ∧
      next.volume = f.volume.push (checkpointRecord f.nextIno) := by
  rw [appendCheckpoint, writeRecord_eq, KFS.writeRecord_eq ready] at appended
  split at appended
  · cases appended
  next fits =>
    cases appended
    exact ⟨fits, rfl⟩

theorem Formatter.appendCheckpoint_of_room (ready : f.volume.Ready)
    (room : f.wOff + 13 ≤ f.logEnd) : ∃ next, f.appendCheckpoint = .ok next := by
  have fits : ¬ f.volume.logEnd < f.volume.wOff + (checkpointRecord f.nextIno).size := by
    rw [KFS.size_checkpointRecord, Nat.not_lt]
    exact room
  rw [appendCheckpoint, writeRecord_eq, KFS.writeRecord_eq ready, if_neg fits]
  exact ⟨_, rfl⟩

theorem seedKFS_of_ok (seeds : seedKFS vol above host = .ok seeded) :
    ∃ fresh walked last, 16 ≤ vol.numBlocks.toNat ∧
      fresh.volume = formatVolume (formattedDevice vol) ∧ fresh.nextIno = rootIno + 1 ∧
      seedTree above host fresh = .ok walked ∧ walked.f.appendCheckpoint = .ok last ∧
      seeded = last.dev := by
  obtain ⟨device, formatted, seeds⟩ := exceptBind_eq_ok_iff.mp seeds
  rw [format_eq, formatKFS_eq_ok_iff] at formatted
  obtain ⟨manyBlocks, _, rfl⟩ := formatted
  obtain ⟨fresh, made, seeds⟩ := exceptBind_eq_ok_iff.mp seeds
  obtain ⟨walked, walks, seeds⟩ := exceptBind_eq_ok_iff.mp seeds
  obtain ⟨last, checkpointed, seeds⟩ := exceptBind_eq_ok_iff.mp seeds
  cases seeds
  obtain ⟨other, otherMade, volume, counter⟩ :=
    newFormatter_of_blocks (show 0 < (formattedDevice vol).numBlocks.toNat from by
      change 0 < vol.numBlocks.toNat
      omega)
  rw [made] at otherMade
  cases otherMade
  exact ⟨fresh, walked, last, manyBlocks, volume, counter, walks, checkpointed, rfl⟩

variable
  (lays : Lays (seedTree above host) (UInt32.ofNat (rootNumber + 1)) puts (fun f => ⟨f, after⟩))
include lays

theorem seedKFS_of_room (manyBlocks : 16 ≤ vol.numBlocks.toNat)
    (room : logStart + 48 + (puts.map fun put => put.record.size + 13).sum ≤
      logLimit vol.numBlocks) :
    ∃ seeded, seedKFS vol above host = .ok seeded := by
  obtain ⟨fresh, made, volume, counter⟩ :=
    newFormatter_of_blocks (show 0 < (formattedDevice vol).numBlocks.toNat from by
      change 0 < vol.numBlocks.toNat
      omega)
  have ready : fresh.volume.Ready := by
    rw [volume]
    exact formatVolume_ready _
  have start : fresh.wOff = logStart := congrArg KFS.wOff volume
  have stop : fresh.logEnd = logLimit vol.numBlocks := congrArg KFS.logEnd volume
  have enough : fresh.wOff + (puts.map fun put => put.record.size + 13).sum ≤ fresh.logEnd := by
    rw [start, stop]
    omega
  obtain ⟨walked, appended, grows, cursor⟩ := putAll_of_room ready enough
  have sameEnd : walked.logEnd = fresh.logEnd := grows.sameEnd
  obtain ⟨last, checkpointed⟩ :=
    appendCheckpoint_of_room (grows.ready ready) (by rw [sameEnd, stop]; omega)
  have tree : seedTree above host fresh = .ok ⟨walked, after⟩ := by
    rw [lays fresh counter, appended]
    rfl
  refine ⟨last.dev, ?_⟩
  rw [seedKFS, format_eq, formatKFS_eq_ok_iff.mpr ⟨manyBlocks, by omega, rfl⟩]
  dsimp only [bind, Except.bind]
  rw [made]
  dsimp only
  rw [tree]
  dsimp only
  rw [checkpointed]
  rfl

variable (seeds : seedKFS vol above host = .ok seeded) (short : ∀ put ∈ puts, put.Short)
include seeds short

theorem seeded_log : ValidSuperblock seeded ∧ seeded.numBlocks = vol.numBlocks ∧ ∃ added stop,
      LogScan.Laid (bootVolume seeded).recordAt logStart added stop ∧
        unpaced added = puts.map Put.record ∧ (∀ record ∈ added, Regular record) ∧
        logStart + (puts.map (·.record.size)).sum + 13 ≤ stop ∧ (puts = [] → stop = logStart + 13) ∧
        ∀ index, stop ≤ index → seeded.image index = (formattedDevice vol).image index := by
  obtain ⟨fresh, walked, last, manyBlocks, volume, counter, walks,
    checkpointed, rfl⟩ := seedKFS_of_ok seeds
  rw [lays fresh counter] at walks
  cases appended : fresh.putAll puts with
  | error failure =>
    rw [appended] at walks
    cases walks
  | ok middle =>
    rw [appended] at walks
    cases walks
    have ready : fresh.volume.Ready := by
      rw [volume]
      exact formatVolume_ready _
    have start : fresh.volume.wOff = logStart := by
      rw [volume]
      rfl
    obtain ⟨added, grown, shape, regular⟩ := putAll_extends ready short appended
    have middleReady := grown.toGrows.ready ready
    obtain ⟨fits, written⟩ := appendCheckpoint_of_ok middleReady checkpointed
    have checkpointGrown := extends_push middleReady (readable_checkpointRecord _) fits
    rw [← written] at checkpointGrown
    have whole := grown.trans ready checkpointGrown
    have lastShaped := whole.toGrows.shaped ready.toShaped
    have laid := whole.laid
    rw [start] at laid
    have sameEnd : last.volume.logEnd = logLimit last.volume.dev.numBlocks := by
      rw [whole.sameEnd, whole.sameBlocks, volume]
      rfl
    have sameBlocks : last.dev.numBlocks = vol.numBlocks := by
      have grownBlocks := whole.sameBlocks
      rw [volume] at grownBlocks
      exact grownBlocks
    have agree := whole.agree
    rw [start, volume] at agree
    have untouched := whole.untouched
    rw [volume] at untouched
    have checkpointSize := size_checkpointRecord middle.nextIno
    refine ⟨(formattedDevice_valid (by omega)).of_agree sameBlocks agree, sameBlocks, _,
      last.volume.wOff, laid_boot lastShaped sameEnd laid, ?_, forall_mem_append.mpr ⟨regular,
      forall_mem_singleton.mpr (.checkpoint _)⟩, ?_, ?_, untouched⟩
    · rw [unpaced_append, shape]
      simp [unpaced, checkpointRecord]
    · have ends := laid_end lastShaped (Nat.le_refl _) laid
      have sublist : unpaced added <+ added := filter_sublist
      have part := (sublist.map Record.size).sum_le_sum fun _ _ => Nat.zero_le _
      rw [shape, map_map] at part
      rw [map_append, sum_append] at ends
      simp only [map_cons, map_nil, sum_cons, sum_nil, checkpointSize] at ends
      simp only [Function.comp_def] at part
      omega
    · rintro rfl
      cases appended
      rw [written]
      change fresh.volume.wOff + (checkpointRecord fresh.nextIno).size = _
      rw [start, checkpointSize]

theorem mount_seeded (zeroed : ZeroedLog vol)
    (filled : puts = [] ∨ 22 ≤ (puts.map (·.record.size)).sum) :
    ∃ volume, mountKFS seeded = .mounted volume ∧
      volume.toTree.Alike (puts.foldl Tree.put Tree.empty) := by
  obtain ⟨valid, blocks, added, stop, laid, shape, regular, least, empty,
    untouched⟩ := seeded_log lays seeds short
  obtain ⟨tree, applies, alike⟩ := applyAll_unpaced (Tree.Alike.refl Tree.empty) regular short shape
  have zeroType : stop + hdrLen < (bootVolume seeded).dev.capacity →
      (bootVolume seeded).dev.image (stop + 8) = 0 := by
    intro inside
    change seeded.image (stop + 8) = 0
    rw [untouched _ (by omega)]
    by_cases noPuts : puts = []
    · rw [empty noPuts]
      exact formattedDevice_gap vol
    have sum := filled.resolve_left noPuts
    rw [formattedDevice_beyond vol (by omega)]
    apply zeroed
    · omega
    · change stop + hdrLen < seeded.numBlocks.toNat * _ at inside
      rw [blocks] at inside
      simp only [hdrLen] at inside
      change stop + 8 < vol.numBlocks.toNat * _
      omega
  have stuck := stuck_of_zero (bootVolume_shaped seeded) (by omega) zeroType tree
  exact ⟨_, mountKFS_of_laid valid laid applies stuck, alike⟩

end KernelLane.Kfs
