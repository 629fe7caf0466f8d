import KernelLane.KernRegistry
import Mathlib.Data.List.Nodup
import Mathlib.Data.List.Perm.Basic

namespace KernelLane.Conf

open GuestFrame Kern List UInt64

/-!
# The kernel configuration file

A line `key=value` of `kernel.conf` is read three times: the shell's validator
reports what is wrong with the text, init takes it apart and sends each setting
to the registry, and the registry hands it to the timer or to the table of
knobs.  The quantum has three spellings; the validator takes `quantum_ms` and
`quantum` for milliseconds, the registry only the first.
-/

/-! ## Text -/

def spaces : List Bytes :=
  [[9], [10], [11], [12], [13], [32], [0xC2, 0x85], [0xC2, 0xA0], [0xE1, 0x9A, 0x80], [0xE2, 0x80,
    0xA8], [0xE2, 0x80, 0xA9], [0xE2, 0x80, 0xAF], [0xE2, 0x81, 0x9F], [0xE3, 0x80, 0x80]] ++
  (List.range 11).map fun k => [0xE2, 0x80, 0x80 + UInt8.ofNat k]

def trimFront (encodings : List Bytes) : Nat → Bytes → Bytes
  | 0, text => text
  | fuel + 1, text =>
    match encodings.find? fun encoding => encoding.isPrefixOf text with
    | none => text
    | some encoding => trimFront encodings fuel (text.drop encoding.length)

def trimSpace (text : Bytes) : Bytes :=
  let front := trimFront spaces text.length text
  (trimFront (spaces.map reverse) front.length front.reverse).reverse

def indexEq (line : Bytes) : Option Nat := line.findIdx? fun byte => byte = 61

def parseUint (text : Bytes) : Option UInt64 :=
  if text = [] then none
  else if text.all fun byte => 48 ≤ byte && byte ≤ 57 then
    let number := text.foldl (fun sum byte => sum * 10 + (byte.toNat - 48)) 0
    if number < 2 ^ 64 then some (ofNat number) else none
  else none

/-! ## The validator -/

def maxLineLen : Nat := 256

/-- The canonical knobs. -/
inductive Knob where
  | quantumUs
  | logLevel
  | auditMask
  | preempt
  deriving DecidableEq, Repr

def normalizeKnob (key : Bytes) : Option Knob :=
  if key = ascii "quantum_us" then some .quantumUs
  else if key = ascii "log_level" then some .logLevel
  else if key = ascii "audit_mask" then some .auditMask
  else if key = ascii "preempt" then some .preempt
  else if key = ascii "quantum_ms" then some .quantumUs
  else if key = ascii "quantum" then some .quantumUs
  else none

/-- What can be wrong with a line. -/
inductive KnobError where
  | lineTooLong
  | nulByte
  | wantKeyValue
  | unknownKnob (key : Bytes)
  | nonNumeric (key : Bytes)
  | quantumRange (key : Bytes)
  | logLevelRange
  | auditMaskRange
  | preemptRange
  deriving DecidableEq, Repr

/-- The text of an error, with the quoting of strings. -/
def KnobError.msg (quote : Bytes → Bytes) : KnobError → Bytes
  | .lineTooLong => ascii "line too long"
  | .nulByte => ascii "NUL byte"
  | .wantKeyValue => ascii "want key=value"
  | .unknownKnob key => ascii "unknown knob " ++ quote key
  | .nonNumeric key => ascii "non-numeric value for " ++ key
  | .quantumRange key => key ++ ascii " out of range [100..200000]us"
  | .logLevelRange => ascii "log_level out of range [0..3]"
  | .auditMaskRange => ascii "audit_mask out of range [0..255]"
  | .preemptRange => ascii "preempt out of range [0..1]"

/-- A line that sets a knob. -/
structure Setting where
  key : Bytes
  val : Bytes
  knob : Knob
  num : UInt64
  deriving DecidableEq, Repr

open Setting

def inMillis (key : Bytes) : Bool := key = ascii "quantum_ms" || key = ascii "quantum"

def Setting.value (setting : Setting) : UInt64 :=
  if setting.knob = .quantumUs ∧ inMillis setting.key then setting.num * 1000
  else setting.num

/-- The range check of a knob. -/
def checkKnobRange (setting : Setting) : Option KnobError :=
  match setting.knob with
  | .quantumUs =>
    if setting.value < 100 ∨ 200000 < setting.value then some (.quantumRange setting.key)
    else none
  | .logLevel => if 3 < setting.value then some .logLevelRange else none
  | .auditMask => if 255 < setting.value then some .auditMaskRange else none
  | .preempt => if 1 < setting.value then some .preemptRange else none

def isBlank (line : Bytes) : Bool := line = [] || line.head? = some 35

/-- The setting of a line; none for a blank one. -/
def readLine (raw : Bytes) : Except KnobError (Option Setting) :=
  if maxLineLen < raw.length then .error .lineTooLong
  else if raw.contains 0 then .error .nulByte
  else
    let line := trimSpace raw
    if isBlank line then .ok none
    else
      match indexEq line with
      | none => .error .wantKeyValue
      | some 0 => .error .wantKeyValue
      | some eq =>
        let key := trimSpace (line.take eq)
        let val := trimSpace (line.drop (eq + 1))
        match normalizeKnob key with
        | none => .error (.unknownKnob key)
        | some canon =>
          match parseUint val with
          | none => .error (.nonNumeric key)
          | some num =>
            let setting : Setting := ⟨key, val, canon, num⟩
            match checkKnobRange setting with
            | some error => .error error
            | none => .ok (some setting)

/-- One reported error. -/
structure Report where
  file : Bytes
  line : Nat
  error : KnobError

def lines (text : Bytes) : List Bytes := text.splitOn 10

def validateKernelConfFile (file text : Bytes) : List Report :=
  ((lines text).zipIdx 1).filterMap fun (raw, line) =>
    match readLine raw with
    | .error error => some ⟨file, line, error⟩
    | .ok _ => none

def validateKernelConf (text : Bytes) : List Report :=
  validateKernelConfFile (ascii "/etc/kernel.conf") text

def settings (text : Bytes) : List Setting :=
  (lines text).filterMap fun raw =>
    match readLine raw with
    | .ok setting => setting
    | .error _ => none

/-! ## Init -/

def parseKnob (raw : Bytes) : Option (Bytes × Bytes) :=
  let line := trimSpace raw
  if isBlank line then none
  else
    match indexEq line with
    | none => none
    | some 0 => none
    | some eq => some (trimSpace (line.take eq), trimSpace (line.drop (eq + 1)))

def putKnob (knobs : List (Bytes × Bytes)) (entry : Bytes × Bytes) : List (Bytes × Bytes) :=
  (knobs.filter fun other => other.1 ≠ entry.1) ++ [entry]

def parseKnobs (text : Bytes) : List (Bytes × Bytes) :=
  ((lines text).filterMap parseKnob).foldl putKnob []

/-! ## The kernel -/

/-- The timer of the scheduler. -/
structure Timer where
  quantumTicks : UInt32
  preemptOn : UInt8
  /-- The divisor of the interval timer. -/
  pit : UInt16
  deriving DecidableEq, Repr

namespace Timer

def boot : Timer := ⟨5, 1, 1193⟩

def pitDivisor (us : UInt32) : UInt16 :=
  let d := 1193182 * us.toNat / 1000000
  UInt16.ofNat (if d < 1 then 1 else if 65535 < d then 65535 else d)

def setQuantumUs (timer : Timer) (us : UInt64) : Timer :=
  if 100 ≤ us ∧ us ≤ 200000 then
    { timer with quantumTicks := (us / 1000).toUInt32, pit := pitDivisor us.toUInt32 }
  else timer

def setPreempt (timer : Timer) (on : UInt64) : Timer :=
  let want := (on &&& 1).toUInt8
  { timer with
    preemptOn := want
    pit :=
      if want ≠ 0 ∧ timer.preemptOn = 0 then pitDivisor (timer.quantumTicks * 1000)
      else timer.pit }

def quantumUs (timer : Timer) : UInt32 := timer.quantumTicks * 1000

def setconf (timer : Timer) (key : Bytes) (value : UInt64) : Timer :=
  if key = ascii "quantum_us" ∨ key = ascii "quantum" then timer.setQuantumUs value
  else if key = ascii "quantum_ms" then timer.setQuantumUs (value * 1000)
  else if key = ascii "preempt" then timer.setPreempt value
  else timer

end Timer

/-- The kernel with its timer. -/
structure Tuned extends Kernel where
  timer : Timer

namespace Tuned

def setconf (tuned : Tuned) (fromSid : UInt32) (payload : Bytes) : Tuned where
  toKernel := (tuned.registrySetconf fromSid payload).2
  timer :=
    if tuned.sched.capmaskOf fromSid &&& capConf = 0 then tuned.timer
    else if payload.length < 24 then tuned.timer
    else tuned.timer.setconf (cstr (payload.take 16)) (get64 payload 16)

def setConf (tuned : Tuned) (sid : UInt32) (key : Bytes) (num : UInt64) : Tuned :=
  tuned.setconf sid (Fs.padName key ++ put64 num)

def applyKnob (sid : UInt32) (tuned : Tuned) (entry : Bytes × Bytes) : Tuned :=
  match parseUint entry.2 with
  | none => tuned
  | some num => tuned.setConf sid entry.1 num

def applyKnobs (sid : UInt32) (tuned : Tuned) (order : List (Bytes × Bytes)) : Tuned :=
  order.foldl (applyKnob sid) tuned

end Tuned

/-! ## Init reads what the validator read -/

def Setting.entry (setting : Setting) : Bytes × Bytes := (setting.key, setting.val)

/-- A setting as the validator passes it. -/
structure Setting.Valid (setting : Setting) : Prop where
  known : normalizeKnob setting.key = some setting.knob
  number : parseUint setting.val = some setting.num
  inRange : checkKnobRange setting = none

theorem parseKnob_of_readLine {raw : Bytes} {found : Option Setting}
    (read : readLine raw = .ok found) :
    parseKnob raw = found.map entry ∧ ∀ setting, found = some setting → setting.Valid := by
  unfold readLine at read
  split at read
  · cases read
  split at read
  · cases read
  unfold parseKnob
  dsimp only at read ⊢
  split at read
  next blank =>
    cases read
    rw [if_pos blank]
    exact ⟨rfl, nofun⟩
  next filled =>
  rw [if_neg filled]
  split at read
  · cases read
  · cases read
  split at read
  · cases read
  next canon known =>
  split at read
  · cases read
  next num number =>
  split at read
  · cases read
  next inRange =>
  cases read
  refine ⟨rfl, ?_⟩
  rintro setting ⟨⟩
  exact ⟨known, number, inRange⟩

variable {text : Bytes} {us : UInt64} {order : List (Bytes × Bytes)}

theorem readLine_of_clean {raw : Bytes} (clean : validateKernelConf text = [])
    (member : raw ∈ lines text) : ∃ found, readLine raw = .ok found := by
  unfold validateKernelConf validateKernelConfFile at clean
  rw [filterMap_eq_nil_iff] at clean
  obtain ⟨index, below, rfl⟩ := mem_iff_getElem.mp member
  have reported :=
    clean ((lines text)[index], 1 + index) (by
      rw [mk_add_mem_zipIdx_iff_getElem?]
      exact List.getElem?_eq_getElem below)
  dsimp only at reported
  cases read : readLine (lines text)[index] with
  | error error =>
    rw [read] at reported
    cases reported
  | ok found => exact ⟨found, rfl⟩

theorem entries_of_clean (clean : validateKernelConf text = []) :
    (lines text).filterMap parseKnob = (settings text).map entry ∧
      ∀ setting ∈ settings text, setting.Valid := by
  have each : ∀ raw ∈ lines text, ∃ found, readLine raw = .ok found :=
    fun _ member => readLine_of_clean clean member
  unfold settings
  generalize lines text = raws at each ⊢
  induction raws with
  | nil => exact ⟨rfl, nofun⟩
  | cons raw rest hypothesis =>
    obtain ⟨⟨found, read⟩, later⟩ := forall_mem_cons.mp each
    obtain ⟨entry, valid⟩ := parseKnob_of_readLine read
    obtain ⟨same, others⟩ := hypothesis later
    rw [filterMap_cons, filterMap_cons, entry, read]
    cases found with
    | none => exact ⟨same, others⟩
    | some setting =>
      exact ⟨congrArg (setting.entry :: ·) same, forall_mem_cons.mpr ⟨valid setting rfl, others⟩⟩

theorem foldl_putKnob {entries knobs : List (Bytes × Bytes)}
    (distinct : ((knobs ++ entries).map Prod.fst).Nodup) :
    entries.foldl putKnob knobs = knobs ++ entries := by
  induction entries generalizing knobs with
  | nil => rw [foldl_nil, append_nil]
  | cons entry rest hypothesis =>
    have fresh : knobs.filter (fun other => other.1 ≠ entry.1) = knobs := by
      rw [filter_eq_self]
      intro other member
      rw [decide_eq_true_eq]
      intro same
      rw [map_append, nodup_append] at distinct
      exact distinct.2.2 other.1 (mem_map_of_mem member) entry.1 (mem_map_of_mem mem_cons_self) same
    rw [foldl_cons, putKnob, fresh, hypothesis]
    · rw [append_assoc, singleton_append]
    · rw [append_assoc]
      exact distinct

/-- No knob is set twice, under whatever spelling. -/
def NoDuplicates (text : Bytes) : Prop := ((settings text).map knob).Nodup

/-- The map of a clean text without duplicates has the settings' entries. -/
theorem parseKnobs_of_clean (clean : validateKernelConf text = []) (single : NoDuplicates text) :
    parseKnobs text = (settings text).map entry := by
  obtain ⟨same, valid⟩ := entries_of_clean clean
  unfold parseKnobs
  rw [same, foldl_putKnob, nil_append]
  rw [nil_append, map_map]
  -- Equal keys would be equal knobs.
  refine List.Nodup.of_map (normalizeKnob ·) ?_
  rw [map_map]
  have knobs : (settings text).map ((normalizeKnob ·) ∘ Prod.fst ∘ entry) =
      ((settings text).map knob).map some := by
    rw [map_map]
    exact map_congr_left fun setting member => (valid setting member).known
  rw [knobs]
  exact single.map (Option.some_injective Knob)

/-! ## What a setting does -/

theorem Setting.Valid.cases {setting : Setting} (valid : setting.Valid) :
    setting.knob = .quantumUs ∧ (setting.key = ascii "quantum_us" ∨
        setting.key = ascii "quantum_ms" ∨ setting.key = ascii "quantum") ∨
      setting.knob = .logLevel ∧ setting.key = ascii "log_level" ∨
      setting.knob = .auditMask ∧ setting.key = ascii "audit_mask" ∨
      setting.knob = .preempt ∧ setting.key = ascii "preempt" := by
  have known := valid.known
  unfold normalizeKnob at known
  split at known
  next key => exact .inl ⟨(Option.some.inj known).symm, .inl key⟩
  split at known
  next key => exact .inr (.inl ⟨(Option.some.inj known).symm, key⟩)
  split at known
  next key => exact .inr (.inr (.inl ⟨(Option.some.inj known).symm, key⟩))
  split at known
  next key => exact .inr (.inr (.inr ⟨(Option.some.inj known).symm, key⟩))
  split at known
  next key => exact .inl ⟨(Option.some.inj known).symm, .inr (.inl key)⟩
  split at known
  next key => exact .inl ⟨(Option.some.inj known).symm, .inr (.inr key)⟩
  · cases known

def Setting.kernelUs (setting : Setting) : UInt64 :=
  if setting.key = ascii "quantum" then setting.num else setting.value

theorem Setting.Valid.timer {setting : Setting} (valid : setting.Valid) (timer : Timer) :
    timer.setconf setting.key setting.num =
      match setting.knob with
      | .quantumUs => timer.setQuantumUs setting.kernelUs
      | .preempt => timer.setPreempt setting.num
      | _ => timer := by
  unfold Timer.setconf kernelUs value inMillis
  rcases valid.cases with
    ⟨knob, key | key | key⟩ | ⟨knob, key⟩ | ⟨knob, key⟩ | ⟨knob, key⟩
  all_goals
    rw [knob, key]
    rfl

theorem Timer.setQuantumUs_preemptOn (timer : Timer) (us : UInt64) :
    (timer.setQuantumUs us).preemptOn = timer.preemptOn := by
  unfold setQuantumUs
  split <;> rfl

theorem Setting.Valid.key_arrives {setting : Setting} (valid : setting.Valid) :
    (Fs.padName setting.key ++ put64 setting.num).length = 24 ∧
      cstr ((Fs.padName setting.key ++ put64 setting.num).take 16) = setting.key ∧
      get64 (Fs.padName setting.key ++ put64 setting.num) 16 = setting.num := by
  have padded : (Fs.padName setting.key).length = 16 ∧
      cstr (Fs.padName setting.key) = setting.key := by
    rcases valid.cases with
      ⟨-, key | key | key⟩ | ⟨-, key⟩ | ⟨-, key⟩ | ⟨-, key⟩ <;>
    · rw [key]
      decide
  refine ⟨?_, ?_, ?_⟩
  · rw [length_append, padded.1, length_put64]
  · rw [take_left' padded.1, padded.2]
  · have read := get64_put64 (Fs.padName setting.key) setting.num [] 16 padded.1
    rwa [append_nil] at read

namespace Tuned

/-- The session may configure the kernel. -/
def MayConf (tuned : Tuned) (sid : UInt32) : Prop := tuned.sched.capmaskOf sid &&& capConf ≠ 0

def apply (sid : UInt32) (tuned : Tuned) (setting : Setting) : Tuned :=
  tuned.setConf sid setting.key setting.num

def knobsAfter (knobs : Nat → UInt64) (setting : Setting) : Nat → UInt64 :=
  match setting.knob with
  | .logLevel => Function.update knobs knobLogLevel setting.num
  | .auditMask => Function.update knobs knobAuditMask setting.num
  | _ => knobs

variable {tuned : Tuned} {sid : UInt32} {setting : Setting}

variable (may : tuned.MayConf sid)
include may

theorem apply_spec (valid : setting.Valid) :
    (tuned.apply sid setting).timer = tuned.timer.setconf setting.key setting.num ∧
      (tuned.apply sid setting).sched.knobs = knobsAfter tuned.sched.knobs setting ∧
      (tuned.apply sid setting).sched.sessions = tuned.sched.sessions := by
  obtain ⟨long, key, num⟩ := valid.key_arrives
  have served : tuned.apply sid setting =
      { toKernel :=
          { tuned.toKernel with
            sched :=
              if setting.key = ascii "log_level" then
                (tuned.sched.knobSet (UInt8.ofNat knobLogLevel) setting.num).2
              else if setting.key = ascii "audit_mask" then
                (tuned.sched.knobSet (UInt8.ofNat knobAuditMask) setting.num).2
              else tuned.sched }
        timer := tuned.timer.setconf setting.key setting.num } := by
    unfold apply setConf setconf Kernel.registrySetconf
    rw [if_neg may, if_neg may, long, if_neg (by decide), if_neg (by decide)]
    rw [key, num]
  rw [served]
  refine ⟨rfl, ?_⟩
  unfold knobsAfter
  rcases valid.cases with
    ⟨knob, spelled | spelled | spelled⟩ | ⟨knob, spelled⟩ |
      ⟨knob, spelled⟩ | ⟨knob, spelled⟩
  all_goals
    rw [knob, spelled]
    exact ⟨rfl, rfl⟩

theorem MayConf.apply (valid : setting.Valid) : (tuned.apply sid setting).MayConf sid := by
  unfold MayConf Sched.capmaskOf Sched.occupied
  rw [(apply_spec may valid).2.2]
  exact may

def reading (tuned : Tuned) : Knob → UInt64 × UInt16
  | .quantumUs => (tuned.timer.quantumTicks.toUInt64, tuned.timer.pit)
  | .logLevel => (tuned.sched.knobs knobLogLevel, 0)
  | .auditMask => (tuned.sched.knobs knobAuditMask, 0)
  | .preempt => (tuned.timer.preemptOn.toUInt64, 0)

/--
A setting changes what is kept for its own knob only, except that turning
preemption on loads the timer anew.
-/
theorem apply_reading {knob : Knob} (valid : setting.Valid)
    (other : setting.knob ≠ knob) (on : setting.knob = .preempt → tuned.timer.preemptOn = 1) :
    (tuned.apply sid setting).reading knob = tuned.reading knob := by
  obtain ⟨timer, knobs, -⟩ := apply_spec may valid
  rw [valid.timer] at timer
  unfold knobsAfter at knobs
  unfold reading
  rw [timer, knobs]
  cases isKnob : setting.knob with
  | quantumUs =>
    cases knob with
    | quantumUs => exact absurd isKnob other
    | logLevel => rfl
    | auditMask => rfl
    | preempt => rw [Timer.setQuantumUs_preemptOn]
  | logLevel =>
    cases knob with
    | logLevel => exact absurd isKnob other
    | auditMask | quantumUs | preempt => rfl
  | auditMask =>
    cases knob with
    | auditMask => exact absurd isKnob other
    | logLevel | quantumUs | preempt => rfl
  | preempt =>
    cases knob with
    | preempt => exact absurd isKnob other
    | logLevel => rfl
    | auditMask => rfl
    | quantumUs =>
      dsimp only [Timer.setPreempt]
      rw [on isKnob, if_neg (by rintro ⟨-, off⟩; cases off)]

/-- Preemption is on, or none of the settings is about it. -/
def Quiet (tuned : Tuned) (list : List Setting) : Prop :=
  tuned.timer.preemptOn = 1 ∨ ∀ setting ∈ list, setting.knob ≠ .preempt

theorem Quiet.next {rest : List Setting} (quiet : tuned.Quiet (setting :: rest))
    (valid : setting.Valid) (single : ((setting :: rest).map knob).Nodup) :
    (setting.knob = .preempt → tuned.timer.preemptOn = 1) ∧
      (tuned.apply sid setting).Quiet rest := by
  rw [map_cons, nodup_cons] at single
  by_cases about : setting.knob = .preempt
  · have later : ∀ other ∈ rest, other.knob ≠ .preempt := by
      intro other member same
      apply single.1
      rw [about, ← same]
      exact mem_map_of_mem member
    refine ⟨fun _ => ?_, .inr later⟩
    rcases quiet with on | none
    · exact on
    · exact absurd about (none setting mem_cons_self)
  · refine ⟨fun same => absurd same about, ?_⟩
    rcases quiet with on | none
    · left
      have kept : (tuned.apply sid setting).reading .preempt = tuned.reading .preempt :=
        apply_reading may valid about fun same => absurd same about
      have same : (tuned.apply sid setting).timer.preemptOn.toUInt64 =
          tuned.timer.preemptOn.toUInt64 :=
        congrArg Prod.fst kept
      rw [UInt8.toUInt64_inj] at same
      rw [same, on]
    · exact .inr fun other member => none other (mem_cons_of_mem setting member)

variable {list : List Setting}

theorem foldl_reading {knob : Knob}
    (valid : ∀ setting ∈ list, setting.Valid) (single : (list.map Setting.knob).Nodup)
    (quiet : tuned.Quiet list) (others : ∀ setting ∈ list, setting.knob ≠ knob) :
    (list.foldl (apply sid) tuned).reading knob = tuned.reading knob := by
  induction list generalizing tuned with
  | nil => rfl
  | cons setting rest hypothesis =>
    obtain ⟨now, validRest⟩ := forall_mem_cons.mp valid
    obtain ⟨other, othersRest⟩ := forall_mem_cons.mp others
    obtain ⟨on, later⟩ := quiet.next may now single
    rw [foldl_cons, hypothesis (may.apply now) validRest (nodup_cons.mp single).2 later othersRest]
    exact apply_reading may now other on

theorem foldl_reading_of_mem (valid : ∀ other ∈ list, other.Valid)
    (single : (list.map Setting.knob).Nodup) (quiet : tuned.Quiet list) (member : setting ∈ list) :
    ∃ middle : Tuned, middle.MayConf sid ∧
      middle.reading setting.knob = tuned.reading setting.knob ∧
      (list.foldl (apply sid) tuned).reading setting.knob =
        (middle.apply sid setting).reading setting.knob := by
  induction list generalizing tuned with
  | nil => cases member
  | cons first rest hypothesis =>
    obtain ⟨now, later⟩ := forall_mem_cons.mp valid
    obtain ⟨on, quietLater⟩ := quiet.next may now single
    rw [map_cons, nodup_cons] at single
    rcases mem_cons.mp member with rfl | inRest
    · refine ⟨tuned, may, rfl, ?_⟩
      refine foldl_reading (may.apply now) later single.2 quietLater ?_
      intro other inRest same
      apply single.1
      rw [← same]
      exact mem_map_of_mem inRest
    · obtain ⟨middle, mayMiddle, before, after⟩ :=
        hypothesis (may.apply now) later single.2 quietLater inRest
      refine ⟨middle, mayMiddle, before.trans ?_, after⟩
      refine apply_reading may now ?_ on
      intro same
      apply single.1
      rw [same]
      exact mem_map_of_mem inRest

theorem foldl_knobQuantumUs (valid : ∀ other ∈ list, other.Valid) :
    (list.foldl (apply sid) tuned).sched.knobs knobQuantumUs = tuned.sched.knobs knobQuantumUs := by
  induction list generalizing tuned with
  | nil => rfl
  | cons first rest hypothesis =>
    obtain ⟨now, later⟩ := forall_mem_cons.mp valid
    rw [foldl_cons, hypothesis (may.apply now) later, (apply_spec may now).2.1]
    unfold knobsAfter
    cases first.knob <;> rfl

end Tuned

/-! ## The quantum -/

/-- The timer runs at this quantum and reports it. -/
def Timer.Runs (timer : Timer) (us : UInt64) : Prop :=
  timer.quantumUs.toNat = us.toNat ∧ timer.pit.toNat = 1193182 * us.toNat / 1000000

theorem Timer.quantumUs_setQuantumUs (timer : Timer) (low : 100 ≤ us) (high : us ≤ 200000) :
    (timer.setQuantumUs us).quantumUs.toNat = us.toNat / 1000 * 1000 := by
  have most : us.toNat ≤ 200000 := le_iff_toNat_le.mp high
  have ticks : (us / 1000).toUInt32.toNat = us.toNat / 1000 := by
    rw [UInt64.toNat_toUInt32, UInt64.toNat_div]
    have thousand : (1000 : UInt64).toNat = 1000 := rfl
    rw [thousand]
    omega
  unfold setQuantumUs quantumUs
  rw [if_pos ⟨low, high⟩]
  have thousand : (1000 : UInt32).toNat = 1000 := rfl
  rw [UInt32.toNat_mul, ticks, thousand]
  omega

/-- A quantum in range that is set is kept in milliseconds, up to a bound. -/
theorem Timer.runs_setQuantumUs_iff (timer : Timer) (low : 100 ≤ us) (high : us ≤ 200000) :
    (timer.setQuantumUs us).Runs us ↔ us.toNat % 1000 = 0 ∧ us.toNat ≤ 54925 := by
  have least : 100 ≤ us.toNat := le_iff_toNat_le.mp low
  have most : us.toNat ≤ 200000 := le_iff_toNat_le.mp high
  have narrow : us.toUInt32.toNat = us.toNat := by
    rw [toNat_toUInt32]
    omega
  have divisor : (timer.setQuantumUs us).pit.toNat = min (1193182 * us.toNat / 1000000) 65535 := by
    unfold setQuantumUs pitDivisor
    rw [if_pos ⟨low, high⟩]
    dsimp only
    rw [narrow, if_neg (by omega), UInt16.toNat_ofNat']
    split <;> omega
  unfold Runs
  rw [timer.quantumUs_setQuantumUs low high]
  omega

theorem toNat_millis {num : UInt64} (small : num.toNat ≤ 200000) :
    (num * 1000).toNat = num.toNat * 1000 := by
  have thousand : (1000 : UInt64).toNat = 1000 := rfl
  rw [UInt64.toNat_mul, thousand]
  exact Nat.mod_eq_of_lt (by omega)

/-- Taken for microseconds, a number of milliseconds is never the quantum. -/
theorem Timer.not_runs_millis {timer : Timer} (ticks : timer.quantumTicks = 5)
    (pit : timer.pit = 1193) {num : UInt64} (low : 100 ≤ num * 1000) :
    ¬ (timer.setQuantumUs num).Runs (num * 1000) := by
  have least : 100 ≤ (num * 1000).toNat := le_iff_toNat_le.mp low
  rintro ⟨reported, divisor⟩
  by_cases inRange : 100 ≤ num ∧ num ≤ 200000
  · have most : num.toNat ≤ 200000 := le_iff_toNat_le.mp inRange.2
    rw [timer.quantumUs_setQuantumUs inRange.1 inRange.2, toNat_millis most] at reported
    rw [toNat_millis most] at least
    omega
  · rw [Timer.setQuantumUs, if_neg inRange] at reported divisor
    unfold quantumUs at reported
    rw [ticks] at reported
    rw [pit] at divisor
    have five : ((5 : UInt32) * 1000).toNat = 5000 := rfl
    have boot : (1193 : UInt16).toNat = 1193 := rfl
    omega

/-! ## The whole file -/

/-- The kernel runs at what the validator computed for a setting. -/
def Tuned.Agrees (tuned : Tuned) (setting : Setting) : Prop :=
  match setting.knob with
  | .quantumUs => tuned.timer.Runs setting.value
  | .logLevel => tuned.sched.knobGet (UInt8.ofNat knobLogLevel) = setting.value
  | .auditMask => tuned.sched.knobGet (UInt8.ofNat knobAuditMask) = setting.value
  | .preempt => tuned.timer.preemptOn.toNat = setting.value.toNat

/--
A setting of the quantum does not use the bare spelling, and is a number of
whole milliseconds that the interval timer can count.
-/
def Setting.Plain (setting : Setting) : Prop :=
  setting.knob = .quantumUs → setting.key ≠ ascii "quantum" ∧ setting.value.toNat % 1000 = 0 ∧
    setting.value.toNat ≤ 54925

theorem Setting.value_of_other (setting : Setting) (other : setting.knob ≠ .quantumUs) :
    setting.value = setting.num :=
  if_neg fun both => other both.1

theorem Tuned.agrees_congr {first second : Tuned} {setting : Setting}
    (same : first.reading setting.knob = second.reading setting.knob) :
    first.Agrees setting ↔ second.Agrees setting := by
  unfold Agrees
  cases knob : setting.knob with
  | quantumUs =>
    rw [knob] at same
    obtain ⟨ticks, pit⟩ := Prod.mk.inj same
    rw [UInt32.toUInt64_inj] at ticks
    unfold Timer.Runs Timer.quantumUs
    rw [ticks, pit]
  | logLevel | auditMask =>
    rw [knob] at same
    exact iff_of_eq (congrArg (· = setting.value) (Prod.mk.inj same).1)
  | preempt =>
    rw [knob] at same
    have kept := (Prod.mk.inj same).1
    rw [UInt8.toUInt64_inj] at kept
    rw [kept]

theorem Tuned.agrees_apply_iff {tuned : Tuned} {sid : UInt32} {setting : Setting}
    (may : tuned.MayConf sid) (valid : setting.Valid)
    (boot : setting.knob = .quantumUs → tuned.timer.quantumTicks = 5 ∧ tuned.timer.pit = 1193) :
    (tuned.apply sid setting).Agrees setting ↔ setting.Plain := by
  obtain ⟨timer, knobs, -⟩ := apply_spec may valid
  rw [valid.timer] at timer
  have inRange := valid.inRange
  unfold Agrees Setting.Plain
  unfold knobsAfter at knobs
  unfold checkKnobRange at inRange
  cases knob : setting.knob with
  | quantumUs =>
    rw [knob] at timer inRange
    dsimp only at timer inRange ⊢
    rw [timer]
    obtain ⟨ticks, pit⟩ := boot knob
    have bounds : 100 ≤ setting.value ∧ setting.value ≤ 200000 := by
      split at inRange
      · cases inRange
      next inside =>
        rw [not_or, UInt64.not_lt, UInt64.not_lt] at inside
        exact inside
    by_cases bare : setting.key = ascii "quantum"
    · have millis : setting.value = setting.num * 1000 := by
        unfold value inMillis
        rw [if_pos ⟨knob, by rw [bare]; rfl⟩]
      rw [kernelUs, if_pos bare, millis]
      constructor
      · intro runs
        refine absurd runs (Timer.not_runs_millis ticks pit ?_)
        rw [← millis]
        exact bounds.1
      · intro plain
        exact absurd bare (plain rfl).1
    · rw [kernelUs, if_neg bare, tuned.timer.runs_setQuantumUs_iff bounds.1 bounds.2]
      constructor
      · intro whole _
        exact ⟨bare, whole⟩
      · intro plain
        exact (plain rfl).2
  | logLevel | auditMask =>
    rw [knob] at knobs
    refine iff_of_true ?_ nofun
    rw [setting.value_of_other (by simp [knob])]
    exact (congrFun knobs _).trans (Function.update_self ..)
  | preempt =>
    have value := setting.value_of_other (by simp [knob])
    rw [knob] at timer inRange
    refine iff_of_true ?_ nofun
    dsimp only at timer inRange ⊢
    rw [timer, value]
    split at inRange
    · cases inRange
    next bit =>
      rw [value, UInt64.not_lt, UInt64.le_iff_toNat_le] at bit
      have one : (1 : UInt64).toNat = 1 := rfl
      change ((setting.num &&& 1).toUInt8).toNat = setting.num.toNat
      rw [UInt64.toNat_toUInt8, UInt64.toNat_and, one, Nat.and_one_is_mod]
      omega

/-- The quantum in the table of knobs, which KNOBS_GET reports. -/
def Tuned.ReportsKnob (tuned : Tuned) (setting : Setting) : Prop :=
  setting.knob = .quantumUs → tuned.sched.knobGet (UInt8.ofNat knobQuantumUs) = setting.value

theorem Tuned.applyKnobs_entries {sid : UInt32} {tuned : Tuned} {list : List Setting}
    (valid : ∀ setting ∈ list, setting.Valid) :
    tuned.applyKnobs sid (list.map entry) = list.foldl (apply sid) tuned := by
  unfold applyKnobs
  induction list generalizing tuned with
  | nil => rfl
  | cons setting rest hypothesis =>
    obtain ⟨now, later⟩ := forall_mem_cons.mp valid
    have same : applyKnob sid tuned setting.entry = tuned.apply sid setting := by
      unfold applyKnob
      rw [entry, now.number]
      rfl
    rw [map_cons, foldl_cons, same]
    exact hypothesis later

theorem exists_order {list : List Setting} (shuffled : order.Perm (list.map entry)) :
    ∃ ordered : List Setting, ordered.Perm list ∧ order = ordered.map entry := by
  have matched : Forall₂ (fun entry setting => entry = Setting.entry setting)
      (list.map entry) list :=
    forall₂_map_left_iff.mpr (forall₂_same.mpr fun _ _ => rfl)
  obtain ⟨ordered, same, perm⟩ := perm_comp_forall₂ shuffled matched
  rw [← forall₂_map_right_iff, forall₂_eq_eq_eq] at same
  exact ⟨ordered, perm, same⟩

/--
A file without duplicate knobs that passes the validator is what the kernel
runs and SYSSTAT reports, in whatever order init sends the settings, exactly if
its quantum is plain; the table of knobs reports that quantum exactly if it is
the default.
-/
theorem kernel_runs_conf_iff (clean : validateKernelConf text = []) (single : NoDuplicates text)
    {tuned : Tuned} {sid : UInt32} (timer : tuned.timer = .boot)
    (knobs : tuned.sched.knobs = schedKnobsInit) (may : tuned.MayConf sid)
    (shuffled : order.Perm (parseKnobs text)) :
    ((∀ setting ∈ settings text, (tuned.applyKnobs sid order).Agrees setting) ↔
      ∀ setting ∈ settings text, setting.Plain) ∧
    ((∀ setting ∈ settings text, (tuned.applyKnobs sid order).ReportsKnob setting) ↔
      ∀ setting ∈ settings text, setting.knob = .quantumUs → setting.value = 5000) := by
  obtain ⟨-, valid⟩ := entries_of_clean clean
  rw [parseKnobs_of_clean clean single] at shuffled
  obtain ⟨ordered, perm, rfl⟩ := exists_order shuffled
  have orderedValid : ∀ setting ∈ ordered, setting.Valid :=
    fun setting member => valid setting (perm.mem_iff.mp member)
  have orderedSingle : (ordered.map knob).Nodup := (perm.map knob).nodup_iff.mpr single
  have quiet : tuned.Quiet ordered := .inl (by rw [timer]; rfl)
  rw [Tuned.applyKnobs_entries orderedValid]
  refine ⟨forall₂_congr fun setting member => ?_, forall₂_congr fun setting member => ?_⟩
  · obtain ⟨middle, mayMiddle, before, after⟩ :=
      Tuned.foldl_reading_of_mem may orderedValid orderedSingle quiet (perm.mem_iff.mpr member)
    rw [Tuned.agrees_congr after]
    refine Tuned.agrees_apply_iff mayMiddle (valid setting member) ?_
    intro knob
    rw [knob] at before
    obtain ⟨ticks, pit⟩ := Prod.mk.inj before
    rw [UInt32.toUInt64_inj] at ticks
    rw [ticks, pit, timer]
    exact ⟨rfl, rfl⟩
  · have kept := Tuned.foldl_knobQuantumUs may orderedValid
    rw [knobs] at kept
    refine forall_congr' fun _ => ?_
    change (ordered.foldl (Tuned.apply sid) tuned).sched.knobs knobQuantumUs = setting.value ↔ _
    rw [kept]
    exact eq_comm

def bootTuned : Tuned where
  sched := (schedInit.spawnImpl ⟨true, true, true⟩ (ascii "init") 0 capConf []).2
  ports := portsInit
  halted := false
  timer := .boot

/--
The validator passes `quantum=20` as 20000 microseconds; the kernel takes it
for 20, ignores it, and keeps its timer and its reports.
-/
theorem bare_quantum_ignored : validateKernelConf (ascii "quantum=20") = [] ∧
    (settings (ascii "quantum=20")).map value = [20000] ∧
    parseKnobs (ascii "quantum=20") = [(ascii "quantum", ascii "20")] ∧
    ((bootTuned.applyKnobs 1 (parseKnobs (ascii "quantum=20"))).timer.quantumUs = 5000 ∧
      (bootTuned.applyKnobs 1 (parseKnobs (ascii "quantum=20"))).timer.pit = 1193) := by
  refine ⟨?_, by decide +kernel, by decide +kernel, by decide +kernel, by decide +kernel⟩
  exact eq_nil_of_length_eq_zero (by decide +kernel)

def plainConf : Bytes :=
  ascii "# tuned" ++ [10] ++ ascii " quantum_ms = 5" ++ [10, 10] ++
    ascii "log_level=2" ++ [10] ++ ascii "audit_mask=7" ++ [10] ++
    ascii "preempt=0"

/-- It is what the kernel runs and reports. -/
theorem kernel_runs_plainConf : (settings plainConf).map value = [5000, 2, 7, 0] ∧
    (∀ setting ∈ settings plainConf,
      (bootTuned.applyKnobs 1 (parseKnobs plainConf)).Agrees setting) ∧
    ∀ setting ∈ settings plainConf, (bootTuned.applyKnobs 1 (parseKnobs plainConf)).ReportsKnob
      setting := by
  have clean : validateKernelConf plainConf = [] := eq_nil_of_length_eq_zero (by decide +kernel)
  have single : NoDuplicates plainConf := by
    unfold NoDuplicates
    decide +kernel
  have may : bootTuned.MayConf 1 := by
    unfold Tuned.MayConf
    decide +kernel
  obtain ⟨runs, reports⟩ :=
    kernel_runs_conf_iff clean single rfl rfl may (.refl (parseKnobs plainConf))
  refine ⟨by decide +kernel, runs.mpr ?_, reports.mpr ?_⟩
  · unfold Setting.Plain
    decide +kernel
  · decide +kernel

end KernelLane.Conf
