import KernelLane.KernCalls

namespace KernelLane.Kern

open GuestFrame Ports Function

/-!
# Replies to routed calls

A session takes the first finished reply under its call's number, whatever the
name.  The numbers count each session's own calls, so calls of different
sessions share them.  As long as no two waiting calls have the same number,
only the file service answers waiting calls, once each, and no call gives up
before its answer, every call collects the reply to its own request.
-/

/-! ## Calls and their replies -/

/-- The machine with its calls. -/
structure Routed where
  machine : Machine
  calls : Calls

def Routed.next (routed : Routed) (op : GuestOp) (label : Option Nat) : Routed where
  machine := op.run routed.machine
  calls :=
    if op.Runs routed.machine then routed.calls.after routed.machine label op
    else routed.calls

def Routed.boot : Routed where
  machine := .boot
  calls := ⟨0, fun _ => 0, fun _ => (0, []), fun _ => 0, fun _ => none, fun _ => false⟩

/-- An orderly step. -/
def Routed.OrderlyStep (before : Routed) (op : GuestOp × Option Nat) (after : Routed) : Prop :=
  op.1.Orderly before.machine before.calls op.2 ∧ before.next op.1 op.2 = after

/-- How calls, their slots and their replies hang together. -/
structure Calls.Kept (calls : Calls) (tab : Nat → Pending)
    (awaited : Nat → Option UInt16) : Prop where
  inTable : ∀ entry, (tab entry).used = true → entry < maxPending
  owned : ∀ entry, (tab entry).used = true → calls.owner entry < calls.issued ∧
    calls.key (calls.owner entry) = ((tab entry).seq, (tab entry).name)
  single : ∀ first second, (tab first).used = true → (tab second).used = true →
    (tab first).seq = (tab second).seq →
    first = second
  unanswered : ∀ entry, (tab entry).used = true → (tab entry).done = false →
    calls.answered (calls.owner entry) = false
  replied : ∀ entry, (tab entry).used = true → (tab entry).done = true →
    calls.reply entry = some (calls.owner entry)
  unissued : ∀ call, calls.issued ≤ call → calls.answered call = false
  pending : ∀ call, call < calls.issued → calls.answered call = false → ∃ entry,
    (tab entry).used = true ∧ (tab entry).done = false ∧ calls.owner entry = call
  waits : ∀ slot number, awaited slot = some number → ∃ entry,
    (tab entry).used = true ∧ (tab entry).seq = number ∧ calls.owner entry = calls.call slot
  distinct : ∀ first second number other, awaited first = some number →
    awaited second = some other →
    calls.call first = calls.call second →
    first = second

namespace Calls.Kept

variable {calls : Calls} {tab : Nat → Pending} {awaited later : Nat → Option UInt16}

variable (kept : calls.Kept tab awaited)

include kept

theorem entry_of_owner {first second : Nat}
    (firstUsed : (tab first).used = true) (secondUsed : (tab second).used = true)
    (same : calls.owner first = calls.owner second) : first = second := by
  have firstKey := (kept.owned first firstUsed).2
  have secondKey := (kept.owned second secondUsed).2
  rw [same, secondKey] at firstKey
  exact kept.single first second firstUsed secondUsed (congrArg Prod.fst firstKey).symm

theorem stop (waits : ∀ slot number, later slot = some number → awaited slot = some number) :
    calls.Kept tab later :=
  { kept with
    waits := fun slot number isLater => kept.waits slot number (waits slot number isLater)
    distinct := fun first second number other isFirst isSecond =>
      kept.distinct first second number other (waits _ _ isFirst) (waits _ _ isSecond) }

variable {slot entry : Nat}

theorem issue {number : UInt16} {name : Bytes}
    (inRange : entry < maxPending) (unused : (tab entry).used = false)
    (fresh : ∀ other, (tab other).used = true → (tab other).seq ≠ number)
    (caller : ∀ waited, later slot = some waited → waited = number)
    (others : ∀ other waited, other ≠ slot → later other = some waited →
      awaited other = some waited) : Calls.Kept { calls with
        issued := calls.issued + 1
        call := update calls.call slot calls.issued
        key := update calls.key calls.issued (number, name)
        owner := update calls.owner entry calls.issued
        reply := update calls.reply entry none }
      (update tab entry ⟨true, number, name, false, []⟩) later := by
  have old : ∀ {other}, other ≠ entry →
    (update tab entry ⟨true, number, name, false, []⟩) other =
      tab other := fun different => update_of_ne different _ _
  have apart : ∀ {other}, (tab other).used = true → other ≠ entry := by
    rintro other used rfl
    exact absurd (used.symm.trans unused) (by decide)
  constructor
  case inTable =>
    intro other used
    by_cases same : other = entry
    · rw [same]
      exact inRange
    · rw [old same] at used
      exact kept.inTable other used
  case owned =>
    intro other used
    by_cases same : other = entry
    · subst same
      simp
    rw [old same] at used ⊢
    obtain ⟨earlier, key⟩ := kept.owned other used
    dsimp only
    rw [update_of_ne same, update_of_ne earlier.ne]
    exact ⟨Nat.lt_succ_of_lt earlier, key⟩
  case single =>
    intro first second firstUsed secondUsed same
    by_cases firstNew : first = entry <;> by_cases secondNew : second = entry
    · rw [firstNew, secondNew]
    · subst firstNew
      rw [old secondNew] at secondUsed same
      rw [update_self] at same
      exact absurd same.symm (fresh second secondUsed)
    · subst secondNew
      rw [old firstNew] at firstUsed same
      rw [update_self] at same
      exact absurd same (fresh first firstUsed)
    · rw [old firstNew] at firstUsed same
      rw [old secondNew] at secondUsed same
      exact kept.single first second firstUsed secondUsed same
  case unanswered =>
    intro other used unfinished
    by_cases same : other = entry
    · subst same
      dsimp only
      rw [update_self]
      exact kept.unissued _ (Nat.le_refl _)
    · rw [old same] at used unfinished
      dsimp only
      rw [update_of_ne same]
      exact kept.unanswered other used unfinished
  case replied =>
    intro other used finished
    by_cases same : other = entry
    · subst same
      simp at finished
    rw [old same] at used finished
    dsimp only
    rw [update_of_ne same, update_of_ne same]
    exact kept.replied other used finished
  case unissued =>
    intro call notYet
    exact kept.unissued call (Nat.le_of_succ_le notYet)
  case pending =>
    intro call earlier isOpen
    dsimp only at earlier
    by_cases new : call = calls.issued
    · exact ⟨entry, by simp, by simp, by simp [new]⟩
    obtain ⟨other, used, unfinished, owner⟩ := kept.pending call (by omega) isOpen
    refine ⟨other, ?_⟩
    rw [old (apart used)]
    dsimp only
    rw [update_of_ne (apart used)]
    exact ⟨used, unfinished, owner⟩
  case waits =>
    intro other waited isLater
    by_cases same : other = slot
    · subst same
      refine ⟨entry, by simp, ?_, by simp⟩
      rw [update_self]
      exact (caller waited isLater).symm
    · obtain ⟨own, used, sameNumber, owner⟩ :=
        kept.waits other waited (others other waited same isLater)
      refine ⟨own, ?_⟩
      rw [old (apart used)]
      dsimp only
      rw [update_of_ne (apart used), update_of_ne same]
      exact ⟨used, sameNumber, owner⟩
  case distinct =>
    -- Calls that wait already are older than the new one.
    have older : ∀ {other waited}, other ≠ slot → later other = some waited →
        calls.call other < calls.issued := by
      intro other waited different isLater
      obtain ⟨own, used, _, owner⟩ :=
        kept.waits other waited (others other waited different isLater)
      rw [← owner]
      exact (kept.owned own used).1
    intro first second number other isFirst isSecond same
    dsimp only at same
    by_cases firstNew : first = slot <;> by_cases secondNew : second = slot
    · rw [firstNew, secondNew]
    · rw [firstNew, update_self, update_of_ne secondNew] at same
      exact absurd same.symm (older secondNew isSecond).ne
    · rw [secondNew, update_self, update_of_ne firstNew] at same
      exact absurd same (older firstNew isFirst).ne
    · rw [update_of_ne firstNew, update_of_ne secondNew] at same
      exact kept.distinct first second number other (others first number firstNew isFirst)
        (others second other secondNew isSecond) same

theorem land {call : Nat} {resp : Bytes}
    (used : (tab entry).used = true) (earlier : call < calls.issued)
    (isOpen : calls.answered call = false) (key : (calls.key call).1 = (tab entry).seq) : Calls.Kept
      { calls with
        reply := update calls.reply entry (some call)
        answered := update calls.answered call true }
      (update tab entry
        { tab entry with
          resp := resp
          done := true }) awaited := by
  -- The call's own slot has its number, so it is the one that was found.
  have owner : calls.owner entry = call := by
    obtain ⟨own, ownUsed, _, owned⟩ := kept.pending call earlier isOpen
    have ownKey := (kept.owned own ownUsed).2
    rw [owned] at ownKey
    have sameNumber : (tab own).seq = (tab entry).seq := by rw [← key, ownKey]
    rw [← kept.single own entry ownUsed used sameNumber]
    exact owned
  have header : ∀ other, (update tab entry
        { tab entry with resp := resp, done := true } other).used = (tab other).used ∧
      (update tab entry { tab entry with resp := resp, done := true } other).seq = (tab other).seq ∧
      (update tab entry
        { tab entry with
          resp := resp
          done := true } other).name = (tab other).name := by
    intro other
    by_cases same : other = entry
    · subst same
      simp
    · simp [update_of_ne same]
  constructor
  case inTable =>
    intro other otherUsed
    rw [(header other).1] at otherUsed
    exact kept.inTable other otherUsed
  case owned =>
    intro other otherUsed
    rw [(header other).1] at otherUsed
    rw [(header other).2.1, (header other).2.2]
    exact kept.owned other otherUsed
  case single =>
    intro first second firstUsed secondUsed same
    rw [(header first).1] at firstUsed
    rw [(header second).1] at secondUsed
    rw [(header first).2.1, (header second).2.1] at same
    exact kept.single first second firstUsed secondUsed same
  case unanswered =>
    intro other otherUsed unfinished
    rw [(header other).1] at otherUsed
    have different : other ≠ entry := by
      rintro rfl
      simp at unfinished
    rw [update_of_ne different] at unfinished
    dsimp only
    rw [update_of_ne]
    · exact kept.unanswered other otherUsed unfinished
    · intro same
      exact different (kept.entry_of_owner otherUsed used (same.trans owner.symm))
  case replied =>
    intro other otherUsed finished
    rw [(header other).1] at otherUsed
    dsimp only
    by_cases same : other = entry
    · rw [same, update_self, owner]
    · rw [update_of_ne same] at finished ⊢
      exact kept.replied other otherUsed finished
  case unissued =>
    intro later notYet
    dsimp only at notYet ⊢
    rw [update_of_ne (by omega)]
    exact kept.unissued later notYet
  case pending =>
    intro other otherEarlier otherOpen
    dsimp only at otherEarlier otherOpen ⊢
    have different : other ≠ call := by
      rintro rfl
      simp at otherOpen
    rw [update_of_ne different] at otherOpen
    obtain ⟨own, ownUsed, unfinished, owned⟩ := kept.pending other otherEarlier otherOpen
    have elsewhere : own ≠ entry := by
      rintro rfl
      exact different (owned.symm.trans owner)
    refine ⟨own, ?_⟩
    rw [update_of_ne elsewhere]
    exact ⟨ownUsed, unfinished, owned⟩
  case waits =>
    intro slot number waits
    obtain ⟨own, ownUsed, sameNumber, owned⟩ := kept.waits slot number waits
    refine ⟨own, ?_⟩
    rw [(header own).1, (header own).2.1]
    exact ⟨ownUsed, sameNumber, owned⟩
  case distinct => exact kept.distinct

theorem owner_of_awaited
    (waits : awaited slot = some (tab entry).seq) (used : (tab entry).used = true) :
    calls.owner entry = calls.call slot := by
  obtain ⟨own, ownUsed, sameNumber, owned⟩ := kept.waits slot _ waits
  rw [← kept.single own entry ownUsed used sameNumber]
  exact owned

theorem free {pending : Pending}
    (waiting : awaited slot = some (tab entry).seq) (used : (tab entry).used = true)
    (finished : (tab entry).done = true) (freed : pending.used = false)
    (caller : later slot = none) (others : ∀ other, other ≠ slot → later other = awaited other) :
    calls.Kept (update tab entry pending) later := by
  have own := kept.owner_of_awaited waiting used
  have old : ∀ {other}, (update tab entry pending other).used = true → other ≠ entry := by
    rintro other stillUsed rfl
    rw [update_self, freed] at stillUsed
    cases stillUsed
  have waited : ∀ {other number}, later other = some number →
      other ≠ slot ∧ awaited other = some number := by
    intro other number isLater
    have different : other ≠ slot := by
      rintro rfl
      rw [caller] at isLater
      cases isLater
    exact ⟨different, (others other different).symm.trans isLater⟩
  constructor
  case inTable =>
    intro other stillUsed
    have different := old stillUsed
    rw [update_of_ne different] at stillUsed
    exact kept.inTable other stillUsed
  case owned =>
    intro other stillUsed
    have different := old stillUsed
    rw [update_of_ne different] at stillUsed ⊢
    exact kept.owned other stillUsed
  case single =>
    intro first second firstUsed secondUsed same
    have firstOld := old firstUsed
    have secondOld := old secondUsed
    rw [update_of_ne firstOld] at firstUsed same
    rw [update_of_ne secondOld] at secondUsed same
    exact kept.single first second firstUsed secondUsed same
  case unanswered =>
    intro other stillUsed unfinished
    have different := old stillUsed
    rw [update_of_ne different] at stillUsed unfinished
    exact kept.unanswered other stillUsed unfinished
  case replied =>
    intro other stillUsed isFinished
    have different := old stillUsed
    rw [update_of_ne different] at stillUsed isFinished
    exact kept.replied other stillUsed isFinished
  case unissued => exact kept.unissued
  case pending =>
    intro call earlier isOpen
    obtain ⟨other, otherUsed, unfinished, owned⟩ := kept.pending call earlier isOpen
    have different : other ≠ entry := by
      rintro rfl
      exact absurd (finished.symm.trans unfinished) (by decide)
    refine ⟨other, ?_⟩
    rw [update_of_ne different]
    exact ⟨otherUsed, unfinished, owned⟩
  case waits =>
    intro other number isLater
    obtain ⟨different, waits⟩ := waited isLater
    obtain ⟨its, itsUsed, sameNumber, owned⟩ := kept.waits other number waits
    have elsewhere : its ≠ entry := by
      rintro rfl
      exact different (kept.distinct other slot _ _ waits waiting (owned.symm.trans own))
    refine ⟨its, ?_⟩
    rw [update_of_ne elsewhere]
    exact ⟨itsUsed, sameNumber, owned⟩
  case distinct =>
    intro first second number other isFirst isSecond
    exact kept.distinct first second number other (waited isFirst).2 (waited isSecond).2

end Calls.Kept

/-- The calls, their slots and the waiting sessions of the machine. -/
def Routed.Kept (routed : Routed) : Prop :=
  routed.calls.Kept routed.machine.ports.tab routed.machine.awaitedNumber

theorem Routed.boot_kept : Routed.boot.Kept where
  inTable := nofun
  owned := nofun
  single := nofun
  unanswered := nofun
  replied := nofun
  unissued := fun _ _ => rfl
  pending := nofun
  waits := nofun
  distinct := nofun

/-- Operations that leave the calls alone leave their identities alone. -/
theorem Calls.after_of_leavesCalls {machine : Machine} {op : GuestOp} (calls : Calls)
    (label : Option Nat) (quiet : op.leavesCalls machine = true) :
    calls.after machine label op = calls := by
  cases op with
  | request allocOk sid request path payload =>
    have full : machine.ports.freeEntry = none := Option.isNone_iff_eq_none.mp quiet
    dsimp only [Calls.after]
    rw [full]
  | send env sid h data =>
    dsimp only [GuestOp.leavesCalls] at quiet
    dsimp only [Calls.after]
    split at quiet
    · cases quiet
    · rfl
  | _ => rfl

theorem Routed.Kept.done_of_giveUp {routed : Routed} {label : Option Nat} {sid : UInt32}
    {entry : Nat} (kept : routed.Kept)
    (waiting : routed.machine.awaitedNumber sid.toNat = some (routed.machine.ports.tab entry).seq)
    (used : (routed.machine.ports.tab entry).used = true)
    (orderly : (GuestOp.giveUp sid).Orderly routed.machine routed.calls label) :
    (routed.machine.ports.tab entry).done = true := by
  have inCall : routed.machine.waiting sid = true := by
    unfold Machine.awaitedNumber at waiting
    split at waiting
    · assumption
    · cases waiting
  have answered := orderly inCall
  rw [← Calls.Kept.owner_of_awaited kept waiting used] at answered
  by_contra unfinished
  rw [Bool.not_eq_true] at unfinished
  have isOpen := Calls.Kept.unanswered kept entry used unfinished
  exact absurd (answered.symm.trans isOpen) (by decide)

theorem Routed.Kept.next {before after : Routed} {op : GuestOp × Option Nat} (kept : before.Kept)
    (step : before.OrderlyStep op after) : after.Kept := by
  obtain ⟨orderly, rfl⟩ := step
  obtain ⟨op, label⟩ := op
  unfold Routed.Kept Routed.next GuestOp.run
  by_cases runs : op.Runs before.machine
  · simp only [if_pos runs]
    cases GuestOp.callStep runs orderly with
    | kept quiet tab waits =>
      rw [Calls.after_of_leavesCalls _ _ quiet, tab]
      exact Calls.Kept.stop kept waits
    | issued entry free tab caller others =>
      have unused := List.find?_some free
      have member := List.mem_of_find?_eq_some free
      rw [Bool.not_eq_true'] at unused
      rw [tab]
      dsimp only [Calls.after]
      rw [free]
      refine Calls.Kept.issue kept (List.mem_range.mp member) unused ?_ caller others
      intro other used same
      have apart := orderly.2 other
      simp [awaits, Calls.Kept.inTable kept other used, used, same] at apart
    | landed index entry found guest awaited landing tab waits =>
      have matched := List.find?_some awaited
      simp only [Bool.and_eq_true, decide_eq_true_eq] at matched
      obtain ⟨call, earlier, rfl, isOpen, key⟩ :=
        (orderly index found).2 guest (by rw [awaited]; rfl)
      rw [tab, waits]
      dsimp only [Calls.after]
      rw [landing]
      refine Calls.Kept.land kept matched.1.1.1 earlier isOpen ?_
      rw [key, matched.2]
    | @freed _ sid ends entry waiting used finished tab caller others =>
      obtain ⟨pending, isFree, freed⟩ := tab
      have done : (before.machine.ports.tab entry).done = true := by
        rcases ends with rfl | rfl
        · exact finished rfl
        · exact Routed.Kept.done_of_giveUp kept waiting used orderly
      have same : before.calls.after before.machine label op = before.calls := by
        rcases ends with rfl | rfl <;> rfl
      rw [freed, same]
      exact Calls.Kept.free kept waiting used done isFree caller others
  · simp only [if_neg runs]
    exact kept

/--
Over every orderly history, what a session in a routed call collects is the
reply that the file service sent to this session's own latest request.
-/
theorem collects_own_reply {ops : List (GuestOp × Option Nat)} {final : Routed}
    (run : Run Routed.OrderlyStep .boot ops final) {sid : UInt32} {resp : Bytes}
    (collected : (final.machine.collect sid).1 = some resp) :
    ∃ entry, (final.machine.ports.tab entry).resp = resp ∧
      final.calls.owner entry = final.calls.call sid.toNat ∧
      final.calls.reply entry = some (final.calls.call sid.toNat) := by
  have kept : final.Kept := run.invariant (fun kept step => kept.next step) Routed.boot_kept
  obtain ⟨entry, used, done, number, stored⟩ := Machine.finished_of_collect collected
  have waiting : final.machine.awaitedNumber sid.toNat =
      some (final.machine.ports.tab entry).seq := by
    rw [number]
    unfold Machine.collect at collected
    dsimp only at collected
    split at collected
    next waits => exact if_pos waits
    · cases collected
  have owner := Calls.Kept.owner_of_awaited kept waiting used
  refine ⟨entry, stored, owner, ?_⟩
  rw [← owner]
  exact Calls.Kept.replied kept entry used done

/-! ## Two sessions in their first calls -/

def routedAfter (ops : List (GuestOp × Option Nat)) : Routed :=
  ops.foldl (fun routed op => routed.next op.1 op.2) .boot

def serviceOps : List (GuestOp × Option Nat) :=
  [startOp (ascii "fs") 0, startOp (ascii "a") 0, startOp (ascii "b") 0,
    .create 1 (ascii "fs"), .create 2 (ascii "a"), .create 3 (ascii "b"),
    .bind 1 (ascii "a"), .bind 1 (ascii "b")].map fun op => (op, none)

def firstReply (body : Bytes) : Bytes :=
  put16 1 ++ put16 1 ++ put32 1 ++ List.replicate 16 0 ++ body

def crossedOps : List (GuestOp × Option Nat) :=
  serviceOps ++ [(.request true 2 1 (ascii "/a") [], none),
    (.request true 3 1 (ascii "/b") [], none),
    (.send plainEnv 1 2 (firstReply (ascii "for b")), some 1)]

/--
Session 2 is in call 0 and session 3 in call 1; the service has answered call
1 only, and session 2 collects that answer.
-/
theorem collects_other_reply : (routedAfter crossedOps).calls.call 2 = 0 ∧
    (routedAfter crossedOps).calls.call 3 = 1 ∧ (routedAfter crossedOps).calls.answered 0 = false ∧
    (routedAfter crossedOps).calls.reply 1 = some 1 ∧
    ((routedAfter crossedOps).machine.ports.tab 1).resp = firstReply (ascii "for b") ∧
    ((routedAfter crossedOps).machine.collect 2).1 = some (firstReply (ascii "for b")) := by
  decide +kernel

def servedOps : List (GuestOp × Option Nat) :=
  serviceOps ++ [(.request true 2 1 (ascii "/a") [], none),
    (.send plainEnv 1 1 (firstReply (ascii "for a")), some 0)]

/-- The application collects the reply to its call. -/
theorem collects_own_reply_of_served : ((routedAfter servedOps).machine.collect 2).1 =
      some (firstReply (ascii "for a")) ∧
    ∃ entry, ((routedAfter servedOps).machine.ports.tab entry).resp = firstReply (ascii "for a") ∧
      (routedAfter servedOps).calls.reply entry = some ((routedAfter servedOps).calls.call 2) := by
  have run : Run Routed.OrderlyStep .boot servedOps (routedAfter servedOps) := by
    iterate 8 refine .cons ⟨trivial, rfl⟩ ?_
    refine .cons ⟨⟨?_, ?_⟩, rfl⟩ (.cons ⟨?_, rfl⟩ (.nil _))
    · decide +kernel
    · exact awaits_of_noneWaits (by decide +kernel) _
    · intro index found
      have port : (routedAfter (servedOps.take 9)).machine.ports.portOf 1 1 = some 4 := by
        decide +kernel
      obtain rfl : 4 = index := by simpa using port.symm.trans found
      refine ⟨fun endpoint => absurd endpoint (by decide +kernel), ?_⟩
      intro _ _
      exact ⟨0, by decide +kernel, rfl, by decide +kernel, by decide +kernel⟩
  have collected : ((routedAfter servedOps).machine.collect 2).1 =
      some (firstReply (ascii "for a")) := by
    decide +kernel
  obtain ⟨entry, stored, _, reply⟩ := collects_own_reply run collected
  exact ⟨collected, entry, stored, reply⟩

end KernelLane.Kern
