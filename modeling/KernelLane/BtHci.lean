import KernelLane.Effects
import KernelLane.GuestFrame
import Mathlib.Algebra.Order.BigOperators.Group.List

namespace KernelLane.Bt

open GuestFrame Effect List

/-!
# Waiting for an HCI command

A Bluetooth command ends with the completion event of its own opcode.  The
reader of the UART takes one event after the other until that one, and leaves
what follows unread.
-/

structure HCIEvent where
  code : UInt8
  params : Bytes

inductive H4Error
  | uartEOF
  | truncated
  | badH4Type

/-- A read of the bytes that wait in the UART. -/
abbrev Reader := Effect Bytes H4Error

def readByte : Reader UInt8
  | [] => (.error .uartEOF, [])
  | byte :: rest => (.ok byte, rest)

def readN : Nat → Reader Bytes
  | 0 => pure []
  | n + 1 => do
    let byte ← readByte
    let rest ← readN n
    pure (byte :: rest)

/-- Behind the type byte every failure is a truncated frame. -/
def orTruncated {Result : Type} (read : Reader Result) : Reader Result := fun u =>
  match read u with
  | (.error _, after) => (.error .truncated, after)
  | done => done

def h4Evt : UInt8 := 0x03

def readHCIEvent : Reader HCIEvent := do
  let t ← readByte
  if t ≠ h4Evt then fail .badH4Type
  else
    let code ← orTruncated readByte
    let n ← orTruncated readByte
    let params ← orTruncated (readN n.toNat)
    pure ⟨code, params⟩

def frameHCIEvent (ev : HCIEvent) : Bytes :=
  h4Evt :: ev.code :: UInt8.ofNat ev.params.length :: ev.params

def evtCmdComplete : UInt8 := 0x0e

/-- The loop of a command behind its write; an event takes at least three bytes. -/
def awaitComplete (opcode : UInt16) : Nat → Reader (UInt8 × Bytes)
  | 0 => fail .uartEOF
  | fuel + 1 => do
    let ev ← readHCIEvent
    if ev.code ≠ evtCmdComplete then awaitComplete opcode fuel
    else if ev.params.length < 4 then fail .truncated
    else if get16 ev.params 1 ≠ opcode then awaitComplete opcode fuel
    else pure (ev.params.getD 3 0, ev.params.drop 4)

structure UART where
  rx : Bytes
  tx : Bytes

def h4Cmd : UInt8 := 0x01

def frameHCICommand (opcode : UInt16) (params : Bytes) : Bytes :=
  h4Cmd :: opcode.toUInt8 :: (opcode >>> 8).toUInt8 :: UInt8.ofNat params.length :: params

def commandFull (opcode : UInt16) (params : Bytes) : Effect UART H4Error (UInt8 × Bytes) := fun u =>
  let (answer, rx) := awaitComplete opcode (u.rx.length + 1) u.rx
  (answer, ⟨rx, u.tx ++ frameHCICommand opcode params⟩)

variable {opcode : UInt16} {rest params tx : Bytes} {ev : HCIEvent}

theorem readN_append (data : Bytes) : readN data.length (data ++ rest) = (.ok data, rest) := by
  induction data with
  | nil => rfl
  | cons byte data hypothesis =>
    have first : readByte (byte :: data ++ rest) = (.ok byte, data ++ rest) := rfl
    rw [length_cons, readN, bind_of_ok first, bind_of_ok hypothesis]
    rfl

theorem readHCIEvent_frame (short : ev.params.length < 256) :
    readHCIEvent (frameHCIEvent ev ++ rest) = (.ok ev, rest) := by
  have count : (UInt8.ofNat ev.params.length).toNat = ev.params.length :=
    UInt8.toNat_ofNat_of_lt' short
  have params : orTruncated (readN ev.params.length) (ev.params ++ rest) =
      (.ok ev.params, rest) := by
    rw [orTruncated, readN_append]
  rw [← count] at params
  change (orTruncated (readN (UInt8.ofNat ev.params.length).toNat) >>= _) (ev.params ++ rest) = _
  rw [bind_of_ok params]
  rfl

/-- The frame of the event is whole, and a completion names its command. -/
def Whole (ev : HCIEvent) : Prop :=
  ev.params.length < 256 ∧ (ev.code = evtCmdComplete → 4 ≤ ev.params.length)

def Completes (opcode : UInt16) (ev : HCIEvent) : Prop :=
  ev.code = evtCmdComplete ∧ get16 ev.params 1 = opcode

section

variable {others : List HCIEvent} (whole : ∀ other ∈ others, Whole other)
  (skipped : ∀ other ∈ others, ¬Completes opcode other) (last : Whole ev)
  (own : Completes opcode ev)
include whole skipped last own

theorem awaitComplete_eq {fuel : Nat} (enough : others.length ≤ fuel) :
    awaitComplete opcode (fuel + 1) (others.flatMap frameHCIEvent ++ (frameHCIEvent ev ++ rest)) =
      (.ok (ev.params.getD 3 0, ev.params.drop 4), rest) := by
  induction others generalizing fuel with
  | nil =>
    have full := last.2 own.1
    rw [awaitComplete, flatMap_nil, nil_append, bind_of_ok (readHCIEvent_frame last.1),
      if_neg (not_not.mpr own.1), if_neg (by omega), if_neg (not_not.mpr own.2)]
    rfl
  | cons other others hypothesis =>
    rw [forall_mem_cons] at whole skipped
    rw [length_cons] at enough
    obtain ⟨fuel, rfl⟩ : ∃ more, fuel = more + 1 := ⟨fuel - 1, by omega⟩
    have later := hypothesis whole.2 skipped.2 (Nat.le_of_succ_le_succ enough)
    rw [awaitComplete, flatMap_cons, append_assoc, bind_of_ok (readHCIEvent_frame whole.1.1)]
    split
    · exact later
    next complete =>
      have full := whole.1.2 (not_not.mp complete)
      rw [if_neg (by omega), if_pos fun same => skipped.1 ⟨not_not.mp complete, same⟩]
      exact later

/--
Whatever whole events of other kinds and for other commands come first, a
command writes its frame, returns the status and the parameters of its own
completion and leaves the bytes behind it.
-/
theorem commandFull_answered :
    commandFull opcode params ⟨others.flatMap frameHCIEvent ++ (frameHCIEvent ev ++ rest), tx⟩ =
      (.ok (ev.params.getD 3 0, ev.params.drop 4), ⟨rest, tx ++ frameHCICommand opcode params⟩) := by
  have many := length_le_sum_of_one_le (others.map fun other => (frameHCIEvent other).length)
    (by simp [frameHCIEvent])
  rw [length_map, ← length_flatMap] at many
  rw [commandFull, awaitComplete_eq whole skipped last own]
  rw [length_append]
  omega

end

theorem commandFull_answered_reset :
    commandFull 0x0c03 [] ⟨[3, 0x3e, 0, 3, 0x0e, 4, 1, 3, 0x0c, 0, 3], []⟩ =
      (.ok (0, []), ⟨[3], [1, 3, 0x0c, 0]⟩) :=
  @commandFull_answered 0x0c03 [3] [] [] ⟨0x0e, [1, 3, 0x0c, 0]⟩ [⟨0x3e, []⟩]
    (by simp [Whole, evtCmdComplete]) (by simp [Completes, evtCmdComplete]) (by simp [Whole])
    ⟨rfl, by decide⟩

end KernelLane.Bt
