import KernelLane.KernRegistry
import Mathlib.Data.List.Induction

namespace KernelLane.Kern

open GuestFrame List UInt64 Nat

/-!
# The kernel log and its readers

Everything that reaches the console is kept in a ring of 16384 bytes, with a
count of all bytes ever logged.  A LOGDUMP request reads a chunk of the ring
from an offset in that stream, and the client library asks for chunk after
chunk.  The kernel puts the chunk four bytes behind the two counters, the
library takes everything behind the counters for the chunk: four bytes that an
earlier reply left in the kernel's buffer come with each chunk, and the next
request skips four bytes of the log.
-/

/-! ## The ring -/

def logSize : Nat := 16384

/-- The log: the ring and the number of bytes ever logged. -/
structure Log where
  ring : Nat → UInt8
  total : UInt64

open Log

namespace Log

def boot : Log := ⟨fun _ => 0, 0⟩

def pushByte (log : Log) (byte : UInt8) : Log where
  ring := Function.update log.ring (log.total.toNat % logSize) byte
  total := log.total + 1

def push (log : Log) (bytes : Bytes) : Log := bytes.foldl pushByte log

def oldest (log : Log) : UInt64 :=
  if ofNat logSize < log.total then log.total - ofNat logSize
  else 0

/-- A chunk of the log, the count, and the offset the chunk starts at. -/
structure Read where
  data : Bytes
  total : UInt64
  first : UInt64

def read (log : Log) (off : UInt64) (cap : Nat) : Read :=
  let off := if off < log.oldest then log.oldest else off
  let avail := if off < log.total then log.total - off else 0
  let n := if avail.toNat < cap then avail.toNat else cap
  { data := (range n).map fun i => log.ring ((off + ofNat i).toNat % logSize)
    total := log.total
    first := off }

end Log

/-! ## Requests -/

/-- The four bytes that an earlier reply left in the kernel's buffer. -/
structure Stale where
  bytes : Bytes
  four : bytes.length = 4

def logdumpBody (log : Log) (stale : Stale) (off : UInt64) : Bytes :=
  let chunk := log.read off 4000
  put64 chunk.total ++ put64 chunk.first ++ stale.bytes ++ chunk.data

def logdumpReply (log : Log) (seq : UInt16) (stale : Stale) (off : UInt64) : Bytes :=
  kbegin 9 seq ++ (put32 0 ++ logdumpBody log stale off)

/-! ## The client -/

/-- The errors of a log request. -/
inductive LogError where
  | short
  | rejected
  deriving DecidableEq, Repr

/-- One chunk, as the client takes it from a reply. -/
structure LogChunk where
  total : UInt64
  first : UInt64
  data : Bytes

def logDump (rep : Bytes) : Except LogError LogChunk :=
  if rep.length < 24 + 4 + 16 then .error .short
  else if get32 rep 24 ≠ 0 then .error .rejected
  else .ok ⟨get64 rep 28, get64 rep 36, rep.drop 44⟩

/--
Fetch the log chunk by chunk.  The replies depend on the number of the request
and the offset; nothing is returned while there is no fuel for a request.
-/
def logAll (reply : Nat → UInt64 → Bytes) :
    Nat → Nat → UInt64 → Bytes → Option (Bytes × Option LogError)
  | 0, _, _, _ => none
  | fuel + 1, request, off, out =>
    match logDump (reply request off) with
    | .error error => some (out, some error)
    | .ok chunk =>
      if chunk.data.length = 0 then some (out, none)
      else
        let out := out ++ chunk.data
        let off := chunk.first + ofNat chunk.data.length
        if chunk.total ≤ off then some (out, none)
        else logAll reply fuel (request + 1) off out

/-- The log is fetched with this result. -/
def LogAllReturns (reply : Nat → UInt64 → Bytes) (result : Bytes × Option LogError) : Prop :=
  ∃ fuel, logAll reply fuel 0 0 [] = some result

/-! ## What the ring holds -/

namespace Log

variable (log : Log)

variable (bytes : Bytes)

theorem push_append_byte (byte : UInt8) :
    log.push (bytes ++ [byte]) = (log.push bytes).pushByte byte := by
  simp [push]

theorem total_push : (boot.push bytes).total.toNat = bytes.length % 2 ^ 64 := by
  induction bytes using reverseRecOn with
  | nil => rfl
  | append_singleton bytes byte hypothesis =>
    rw [push_append_byte]
    simp only [pushByte, UInt64.toNat_add, hypothesis]
    simp

variable {offset count : Nat}

theorem ring_push (logged : offset < bytes.length) (recent : bytes.length ≤ offset + logSize) :
    bytes[offset]? = some ((boot.push bytes).ring (offset % logSize)) := by
  induction bytes using reverseRecOn with
  | nil => cases logged
  | append_singleton bytes byte hypothesis =>
    have place : (boot.push bytes).total.toNat % logSize = bytes.length % logSize := by
      rw [total_push]
      exact mod_mod_of_dvd _ (by decide)
    rw [length_append, length_singleton] at logged recent
    rw [push_append_byte]
    simp only [pushByte, place]
    by_cases last : offset = bytes.length
    · subst last
      simp
    have elsewhere : offset % logSize ≠ bytes.length % logSize := by
      unfold logSize at recent ⊢
      omega
    rw [Function.update_of_ne elsewhere, List.getElem?_append_left (by omega)]
    exact hypothesis (by omega) (by omega)

def slice (log : Log) (offset count : Nat) : Bytes :=
  (range count).map fun i => log.ring ((offset + i) % logSize)

@[simp] theorem length_slice (offset count : Nat) : (log.slice offset count).length = count := by
  simp [slice]

theorem slice_add (offset first second : Nat) : log.slice offset (first + second) =
    log.slice offset first ++ log.slice (offset + first) second := by
  simp [slice, range_add, add_assoc]

theorem take_slice (offset : Nat) {first : Nat} (within : first ≤ count) :
    (log.slice offset count).take first = log.slice offset first := by
  obtain ⟨second, rfl⟩ := Nat.exists_eq_add_of_le within
  rw [slice_add]
  exact take_left' (length_slice log offset first)

theorem drop_slice (offset : Nat) {first : Nat} (within : first ≤ count) :
    (log.slice offset count).drop first = log.slice (offset + first) (count - first) := by
  obtain ⟨second, rfl⟩ := Nat.exists_eq_add_of_le within
  rw [slice_add, Nat.add_sub_cancel_left]
  exact drop_left' (length_slice log offset first)

theorem slice_congr {other : Nat} (same : offset % logSize = other % logSize) (count : Nat) :
    log.slice offset count = log.slice other count := by
  refine map_congr_left fun i _ => ?_
  rw [add_mod, same, ← add_mod]

theorem slice_push (recent : bytes.length ≤ offset + logSize)
    (logged : offset + count ≤ bytes.length) :
    (boot.push bytes).slice offset count = (bytes.drop offset).take count := by
  apply ext_getElem?
  intro i
  by_cases inside : i < count
  · have found := ring_push bytes (by omega : offset + i < bytes.length) (by omega)
    rw [List.getElem?_take_of_lt inside, List.getElem?_drop, found]
    simp [slice, inside]
  · rw [List.getElem?_eq_none (by simp; omega), List.getElem?_eq_none (by simp; omega)]

def start (log : Log) (off : UInt64) : Nat := max off.toNat log.oldest.toNat

theorem read_eq (off : UInt64) (cap : Nat) : log.read off cap =
    ⟨log.slice (log.start off) (min (log.total.toNat - log.start off) cap),
      log.total, UInt64.ofNat (log.start off)⟩ := by
  have moved : (if off < log.oldest then log.oldest else off) = ofNat (log.start off) := by
    unfold start
    split
    next older =>
      have above := lt_iff_toNat_lt.mp older
      rw [Nat.max_eq_right (Nat.le_of_lt above), UInt64.ofNat_toNat]
    next newer =>
      have above := UInt64.le_iff_toNat_le.mp (UInt64.not_lt.mp newer)
      rw [Nat.max_eq_left above, UInt64.ofNat_toNat]
  have small : log.start off < 2 ^ 64 := by exact Nat.max_lt.mpr ⟨off.toNat_lt, log.oldest.toNat_lt⟩
  have startNat : (ofNat (log.start off)).toNat = log.start off := toNat_ofNat_of_lt' small
  have available : (if ofNat (log.start off) < log.total then
        log.total - ofNat (log.start off)
      else 0).toNat = log.total.toNat - log.start off := by
    split
    next before => rw [UInt64.toNat_sub_of_le _ _ (UInt64.le_of_lt before), startNat]
    next behind =>
      have : log.total.toNat ≤ log.start off := by
        rw [← startNat]
        exact UInt64.le_iff_toNat_le.mp (UInt64.not_lt.mp behind)
      simp
      omega
  unfold read
  simp only [moved, available]
  have count : (if log.total.toNat - log.start off < cap then log.total.toNat - log.start off
      else cap) = min (log.total.toNat - log.start off) cap := by
    split <;> omega
  rw [count]
  congr 1
  refine map_congr_left fun i member => ?_
  have below := mem_range.mp member
  have bound := log.total.toNat_lt
  rw [UInt64.toNat_add, startNat, UInt64.toNat_ofNat_of_lt' (by omega : i < 2 ^ 64),
    mod_eq_of_lt (by omega : log.start off + i < 2 ^ 64)]

end Log

/-! ## What the client makes of it -/

theorem logDump_logdumpReply (log : Log) (seq : UInt16) (stale : Stale) (off : UInt64) :
    logDump (logdumpReply log seq stale off) = .ok ⟨log.total, ofNat (log.start off),
      stale.bytes ++ log.slice (log.start off) (min (log.total.toNat - log.start off) 4000)⟩ := by
  have header : (kbegin 9 seq).length = 24 := by simp [kbegin]
  have status : (kbegin 9 seq ++ put32 0).length = 28 := by simp [kbegin]
  have body := log.read_eq off 4000
  unfold logDump logdumpReply logdumpBody
  rw [body]
  generalize log.slice _ _ = data
  generalize ofNat _ = first
  simp only [append_assoc]
  have totalField : get64 (kbegin 9 seq ++ (put32 0 ++ (put64 log.total ++
      (put64 first ++ (stale.bytes ++ data))))) 28 = log.total := by
    rw [← append_assoc]
    exact get64_put64 _ _ _ 28 status
  have firstField : get64 (kbegin 9 seq ++ (put32 0 ++ (put64 log.total ++
      (put64 first ++ (stale.bytes ++ data))))) 36 = first := by
    rw [← append_assoc, ← append_assoc]
    exact get64_put64 _ _ _ 36 (by simp [kbegin])
  rw [totalField, firstField]
  rfl

/--
The chunks that the client puts together from what is left of the log.  Each
one starts with stale bytes, and four bytes behind it are skipped.
-/
def spliced (stale : Nat → Stale) (request : Nat) (rest : Bytes) : Bytes :=
  (stale request).bytes ++ rest.take 4000 ++
    if 4004 < rest.length then spliced stale (request + 1) (rest.drop 4004)
    else []
termination_by rest.length
decreasing_by
  rw [length_drop]
  omega

section Fetched

variable (log : Log) (seq : Nat → UInt16) (stale : Nat → Stale)

def logReplies (request : Nat) (off : UInt64) : Bytes :=
  logdumpReply log (seq request) (stale request) off

def Log.rest (off : UInt64) : Bytes := log.slice (log.start off) (log.total.toNat - log.start off)

variable {reply : Nat → UInt64 → Bytes} {fuel request : Nat} {off : UInt64} {out : Bytes}
  {error : Option LogError}

theorem logAll_starts {result : Bytes}
    (ran : logAll reply fuel request off out = some (result, error)) : out <+: result := by
  induction fuel generalizing request off out with
  | zero => cases ran
  | succ fuel hypothesis =>
    rw [logAll] at ran
    split at ran
    · cases ran
      exact prefix_refl _
    split at ran
    · cases ran
      exact prefix_refl _
    dsimp only at ran
    split at ran
    · cases ran
      exact prefix_append _ _
    · exact (prefix_append _ _).trans (hypothesis ran)

theorem logAll_more {result : Bytes × Option LogError}
    (ran : logAll reply fuel request off out = some result) (more : Nat) :
    logAll reply (fuel + more) request off out = some result := by
  induction fuel generalizing request off out with
  | zero => cases ran
  | succ fuel hypothesis =>
    rw [succ_add]
    rw [logAll] at ran ⊢
    split at ran
    next failed => simpa only [failed] using ran
    next chunk took =>
      split at ran
      next empty => rw [if_pos empty, ran]
      next some =>
        rw [if_neg some]
        dsimp only at ran ⊢
        split at ran
        next last => rw [if_pos last, ran]
        next goes =>
          rw [if_neg goes]
          exact hypothesis ran

theorem LogAllReturns.unique {first second : Bytes × Option LogError}
    (one : LogAllReturns reply first) (other : LogAllReturns reply second) : first = second := by
  obtain ⟨fuel, ran⟩ := one
  obtain ⟨more, again⟩ := other
  have left := logAll_more ran more
  have right := logAll_more again fuel
  rw [add_comm] at right
  exact Option.some.inj (left.symm.trans right)

theorem logAll_succ (fuel request : Nat) (off : UInt64) (out : Bytes) :
    logAll (logReplies log seq stale) (fuel + 1) request off out =
      let data :=
        (stale request).bytes ++ log.slice (log.start off)
          (min (log.total.toNat - log.start off) 4000)
      let next := ofNat (log.start off) + ofNat data.length
      if log.total ≤ next then some (out ++ data, none)
      else logAll (logReplies log seq stale) fuel (request + 1) next (out ++ data) := by
  rw [logAll, logReplies, logDump_logdumpReply]
  dsimp only
  rw [if_neg (by simp [(stale request).four])]

theorem Log.start_next (left : 4004 < log.total.toNat - log.start off) :
    (ofNat (log.start off) + ofNat 4004).toNat = log.start off + 4004 ∧
      log.start (ofNat (log.start off) + ofNat 4004) = log.start off + 4004 := by
  have bound := log.total.toNat_lt
  have moved : (ofNat (log.start off) + ofNat 4004).toNat = log.start off + 4004 := by
    rw [UInt64.toNat_add, UInt64.toNat_ofNat_of_lt' (by omega : log.start off < 2 ^ 64),
      toNat_ofNat_of_lt' (by decide : 4004 < 2 ^ 64)]
    omega
  refine ⟨moved, ?_⟩
  have above : log.oldest.toNat ≤ log.start off := le_max_right _ _
  rw [start]
  omega

theorem Log.rest_next (left : 4004 < log.total.toNat - log.start off) :
    log.rest (ofNat (log.start off) + ofNat 4004) = (log.rest off).drop 4004 := by
  unfold rest
  rw [(log.start_next left).2, log.drop_slice _ (Nat.le_of_lt left), Nat.sub_sub]

theorem logAll_full (fuel request : Nat) (out : Bytes)
    (left : 4004 < log.total.toNat - log.start off) :
    logAll (logReplies log seq stale) (fuel + 1) request off out =
      logAll (logReplies log seq stale) fuel (request + 1)
        (ofNat (log.start off) + ofNat 4004)
        (out ++ ((stale request).bytes ++ (log.rest off).take 4000)) := by
  have full : min (log.total.toNat - log.start off) 4000 = 4000 := by omega
  have taken : (log.rest off).take 4000 = log.slice (log.start off) 4000 :=
    log.take_slice _ (by omega)
  have length : ((stale request).bytes ++ log.slice (log.start off) 4000).length = 4004 := by
    simp [(stale request).four]
  rw [logAll_succ]
  dsimp only
  rw [full, taken, length, if_neg]
  rw [le_iff_toNat_le, (log.start_next left).1]
  omega

/--
After some requests the client has what is spliced from the rest of the log,
and asks again where the last offset is not behind the log.
-/
theorem logAll_fetches (request : Nat) (off : UInt64) (out : Bytes) : ∃ steps number last,
    (∀ fuel, logAll (logReplies log seq stale) (fuel + steps) request off out =
      if log.total ≤ last then some (out ++ spliced stale request (log.rest off), none)
      else
        logAll (logReplies log seq stale) fuel number last
          (out ++ spliced stale request (log.rest off))) ∧
      (log.start off ≤ log.total.toNat → log.total.toNat + 4 < 2 ^ 64 → log.total ≤ last) := by
  generalize held : log.rest off = rest
  fun_induction spliced stale request rest generalizing off out with
  | case1 request rest hypothesis =>
    subst held
    by_cases more : 4004 < (log.rest off).length
    · have left : 4004 < log.total.toNat - log.start off := by simpa [rest] using more
      obtain ⟨steps, number, last, ran, behind⟩ := hypothesis more _
        (out ++ ((stale request).bytes ++ (log.rest off).take 4000)) (log.rest_next left)
      refine ⟨steps + 1, number, last, fun fuel => ?_, fun before => behind ?_⟩
      · rw [← add_assoc, logAll_full log seq stale _ request out left, ran, if_pos more]
        simp only [append_assoc]
      · rw [(log.start_next left).2]
        omega
    · have left : log.total.toNat - log.start off ≤ 4004 := by simpa [rest] using more
      have taken : (log.rest off).take 4000 =
          log.slice (log.start off) (min (log.total.toNat - log.start off) 4000) := by
        rw [← log.take_slice _ (min_le_left _ _), min_comm, ← take_take, rest,
          take_of_length_le (le_of_eq (log.length_slice _ _))]
      rw [if_neg more, append_nil, taken]
      refine ⟨1, request + 1, _, fun fuel => logAll_succ log seq stale fuel request off out,
        fun before room => ?_⟩
      have small : 4 + min (log.total.toNat - log.start off) 4000 < 2 ^ 64 := by omega
      rw [UInt64.le_iff_toNat_le, UInt64.toNat_add,
        toNat_ofNat_of_lt' (by omega : log.start off < 2 ^ 64), length_append, (stale request).four,
        length_slice, toNat_ofNat_of_lt' small]
      omega

theorem spliced_starts {result : Bytes}
    (ran : logAll (logReplies log seq stale) fuel request off out = some (result, error)) :
    out ++ spliced stale request (log.rest off) <+: result := by
  obtain ⟨steps, number, last, fetched, -⟩ := logAll_fetches log seq stale request off out
  have ran := logAll_more ran steps
  rw [fetched] at ran
  split at ran
  · cases ran
    exact prefix_refl _
  · exact logAll_starts ran

end Fetched

/-! ## When that is the log -/

/-- A chunk that repeats four bytes is its own start behind these bytes. -/
theorem append_take_eq_self_iff {four chunk : Bytes} (four_length : four.length = 4) {count : Nat}
    (length : chunk.length = 4 * (count + 1)) :
    four ++ chunk.take (4 * count) = chunk ↔ chunk = (replicate (count + 1) four).flatten := by
  induction count generalizing chunk with
  | zero => simp [eq_comm]
  | succ count hypothesis =>
    obtain ⟨front, back, rfl, frontLength⟩ :
        ∃ front back, chunk = front ++ back ∧ front.length = 4 :=
      ⟨chunk.take 4, chunk.drop 4, (take_append_drop 4 chunk).symm, by rw [length_take]; omega⟩
    have backLength : back.length = 4 * (count + 1) := by
      rw [length_append] at length
      omega
    have cut : (front ++ back).take (4 * (count + 1)) = front ++ back.take (4 * count) := by
      rw [take_append, take_of_length_le (by omega)]
      congr 2
      omega
    rw [cut, replicate_succ, flatten_cons]
    constructor
    · intro same
      obtain ⟨sameFront, sameBack⟩ := append_inj same (four_length.trans frontLength.symm)
      subst sameFront
      rw [(hypothesis backLength).mp sameBack]
    · intro same
      obtain ⟨sameFront, sameBack⟩ := append_inj same (frontLength.trans four_length.symm)
      subst sameFront
      rw [(hypothesis backLength).mpr sameBack]

def repeated (stale : Nat → Stale) (request : Nat) : Nat → Bytes
  | 0 => []
  | chunks + 1 =>
    (replicate 1001 (stale request).bytes).flatten ++ repeated stale (request + 1) chunks

theorem length_flatten_replicate {four : Bytes} (four_length : four.length = 4) (count : Nat) :
    (replicate count four).flatten.length = 4 * count := by
  rw [length_flatten, map_replicate, sum_replicate_nat, four_length, mul_comm]

theorem length_repeated (stale : Nat → Stale) (request chunks : Nat) :
    (repeated stale request chunks).length = 4004 * chunks := by
  induction chunks generalizing request with
  | zero => rfl
  | succ chunks hypothesis =>
    rw [repeated, length_append, hypothesis, length_flatten_replicate (stale request).four]
    omega

section

variable (stale : Nat → Stale) (request : Nat)
include stale request

/-- The last chunk is the log where it is full and repeats the stale bytes. -/
theorem append_take_eq_repeated_iff {rest : Bytes} (last : rest.length ≤ 4004) :
    (stale request).bytes ++ rest.take 4000 = rest ↔
      ∃ chunks, 0 < chunks ∧ rest = repeated stale request chunks := by
  have four := (stale request).four
  constructor
  · intro same
    have full := congrArg List.length same
    rw [length_append, length_take] at full
    refine ⟨1, one_pos, ?_⟩
    rw [repeated, repeated, append_nil]
    exact (append_take_eq_self_iff four (by omega : _ = 4 * (1000 + 1))).mp same
  · rintro ⟨chunks, some, same⟩
    have full := congrArg List.length same
    rw [length_repeated] at full
    obtain rfl : chunks = 1 := by omega
    rw [repeated, repeated, append_nil] at same
    exact (append_take_eq_self_iff four (by omega : _ = 4 * (1000 + 1))).mpr same

theorem spliced_eq_self_iff (rest : Bytes) : spliced stale request rest = rest ↔
    ∃ chunks, 0 < chunks ∧ rest = repeated stale request chunks := by
  fun_induction spliced stale request rest with
  | case1 request rest later =>
    by_cases more : 4004 < rest.length
    · rw [if_pos more]
      have later := later more
      obtain ⟨front, back, rfl, frontLength⟩ :
          ∃ front back, rest = front ++ back ∧ front.length = 4004 :=
        ⟨rest.take 4004, rest.drop 4004, (take_append_drop 4004 rest).symm,
          by rw [length_take]; omega⟩
      rw [length_append] at more
      have four := (stale request).four
      have piece := append_take_eq_self_iff four (by omega : front.length = 4 * (1000 + 1))
      rw [drop_left' frontLength] at later ⊢
      rw [take_append_of_le_length (by omega)]
      constructor
      · intro same
        obtain ⟨sameFront, sameBack⟩ := append_inj same (by simp [four, frontLength])
        obtain ⟨chunks, -, backEq⟩ := later.mp sameBack
        refine ⟨chunks + 1, Nat.succ_pos _, ?_⟩
        rw [repeated, ← backEq, piece.mp sameFront]
      · rintro ⟨_ | chunks, some, same⟩
        · cases some
        obtain ⟨sameFront, sameBack⟩ :=
          append_inj same (by rw [frontLength, length_flatten_replicate four])
        have positive : 0 < chunks := by
          rcases Nat.eq_zero_or_pos chunks with rfl | positive
          · rw [sameBack, length_repeated] at more
            omega
          · exact positive
        rw [piece.mpr sameFront, later.mpr ⟨chunks, positive, sameBack⟩]
    · rw [if_neg more, append_nil]
      exact append_take_eq_repeated_iff stale request (Nat.le_of_not_lt more)

theorem length_spliced_cases (rest : Bytes) :
    (spliced stale request rest).length = rest.length + 4 ∨
      4004 ∣ (spliced stale request rest).length ∧
        rest.length ≤ (spliced stale request rest).length := by
  fun_induction spliced stale request rest with
  | case1 request rest later =>
    by_cases more : 4004 < rest.length
    · have later := later more
      rw [if_pos more, length_append, length_append, (stale request).four, length_take]
      rw [length_drop] at later
      omega
    · rw [if_neg more, append_nil, length_append, (stale request).four, length_take]
      omega

/-- With four bytes less in the log the stale bytes may stand for them. -/
theorem spliced_drop_eq_iff {held : Bytes} {chunks tail : Nat}
    (length : held.length = 4004 * chunks + tail) (uncut : 4 < tail) (last : tail ≤ 4004) :
    spliced stale request (held.drop 4) = held ↔ ∀ chunk ≤ chunks, (stale (request + chunk)).bytes =
      (held.drop (4004 * chunk)).take 4 := by
  induction chunks generalizing request held with
  | zero =>
    rw [spliced, if_neg (by rw [length_drop]; omega), append_nil,
      take_of_length_le (by rw [length_drop]; omega)]
    nth_rewrite 2 [← take_append_drop 4 held]
    rw [append_cancel_right_eq]
    constructor
    · intro same chunk none
      obtain rfl := le_zero.mp none
      exact same
    · intro each
      exact each 0 (le_refl 0)
  | succ chunks hypothesis =>
    have cutLength : (held.drop 4004).length = 4004 * chunks + tail := by
      rw [length_drop]
      omega
    have later := hypothesis (request + 1) cutLength
    have place : ∀ chunk, 4004 + 4004 * chunk = 4004 * (chunk + 1) := by
      intro chunk
      omega
    simp only [drop_drop, Nat.reduceAdd, place, Nat.add_assoc, Nat.add_comm 1] at later
    have cut : held.take 4 ++ (held.drop 4).take 4000 ++ held.drop 4004 = held := by
      rw [← take_add, take_append_drop]
    rw [spliced, if_pos (by rw [length_drop]; omega), drop_drop]
    constructor
    · intro same chunk most
      obtain ⟨sameFront, sameBack⟩ :=
        append_inj (same.trans cut.symm) (by
          rw [length_append, length_append, length_take, length_take, (stale request).four]
          omega)
      cases chunk with
      | zero => exact append_cancel_right sameFront
      | succ chunk => exact later.mp sameBack chunk (le_of_succ_le_succ most)
    · intro each
      have sameBack := later.mpr fun chunk most => each (chunk + 1) (succ_le_succ most)
      have sameFront := each 0 (zero_le _)
      rw [add_zero, drop_zero] at sameFront
      rw [sameBack, sameFront, cut]

end

/-! ## The whole log -/

def heldBytes (bytes : Bytes) : Bytes := bytes.drop (bytes.length - logSize)

theorem length_heldBytes (bytes : Bytes) : (heldBytes bytes).length = min bytes.length logSize := by
  rw [heldBytes, length_drop]
  omega

theorem Log.start_zero (log : Log) : log.start 0 = log.total.toNat - logSize := by
  rw [start, oldest]
  split
  next full =>
    rw [UInt64.toNat_sub_of_le _ _ (UInt64.le_of_lt full)]
    exact zero_max _
  next short =>
    have below := UInt64.le_iff_toNat_le.mp (UInt64.not_lt.mp short)
    have size : (ofNat logSize).toNat = logSize := rfl
    rw [size] at below
    rw [Nat.sub_eq_zero_of_le below]
    rfl

/-- From offset 0 on, the log returns as many bytes as its counter says. -/
theorem Log.rest_zero (bytes : Bytes) : (boot.push bytes).rest 0 = bytes.drop
    (bytes.length - min (bytes.length % 2 ^ 64) logSize) := by
  have counted := total_push bytes
  unfold rest
  rw [start_zero, counted]
  have place : (bytes.length % 2 ^ 64 - logSize) % logSize =
      (bytes.length - min (bytes.length % 2 ^ 64) logSize) % logSize := by
    unfold logSize
    omega
  rw [slice_congr _ place, slice_push bytes (by omega) (by omega)]
  apply take_of_length_le
  rw [length_drop]
  omega

variable {bytes : Bytes}

/--
A read returns the logged bytes from the offset on, or from the oldest byte
that the ring still holds, and says where they start.
-/
theorem Log.read_shows_history (short : bytes.length < 2 ^ 64) (off : UInt64) (cap : Nat) :
    let first := max off.toNat (bytes.length - logSize)
    (boot.push bytes).read off cap =
      ⟨(bytes.drop first).take cap, UInt64.ofNat bytes.length, UInt64.ofNat first⟩ := by
  have counted : (boot.push bytes).total.toNat = bytes.length := by
    rw [total_push, Nat.mod_eq_of_lt short]
  have oldest := start_zero (boot.push bytes)
  rw [start, UInt64.toNat_zero, Nat.zero_max, counted] at oldest
  rw [read_eq, start, oldest, counted, ← counted, UInt64.ofNat_toNat, counted]
  dsimp only
  congr 1
  by_cases inside : off.toNat ≤ bytes.length
  · rw [slice_push bytes (by omega) (by omega), ← length_drop, Nat.min_comm,
      ← take_eq_take_min]
  · have none : bytes.length - max off.toNat (bytes.length - logSize) = 0 := by omega
    rw [none, drop_eq_nil_of_le (by omega), Nat.zero_min, take_nil]
    rfl

theorem Log.read_shows_history_two : (boot.push [1, 2]).read 1 8 = ⟨[2], 2, 1⟩ :=
  read_shows_history (by decide) 1 8

theorem Log.rest_zero_wrapped (short : bytes.length % 2 ^ 64 < logSize)
    (wrapped : 2 ^ 64 ≤ bytes.length) :
    (boot.push bytes).rest 0 = (heldBytes bytes).drop (logSize - bytes.length % 2 ^ 64) := by
  have size : logSize = 16384 := rfl
  have same : bytes.length - min (bytes.length % 2 ^ 64) logSize =
      bytes.length - logSize + (logSize - bytes.length % 2 ^ 64) := by
    omega
  rw [rest_zero, heldBytes, drop_drop, same]

theorem logAllReturns_iff {log : Log} (seq : Nat → UInt16) (stale : Nat → Stale)
    (room : log.total.toNat + 4 < 2 ^ 64) (result : Bytes) :
    LogAllReturns (logReplies log seq stale) (result, none) ↔
      spliced stale 0 (log.rest 0) = result := by
  have started : log.start 0 ≤ log.total.toNat := by
    rw [start_zero]
    exact sub_le _ _
  have returned : LogAllReturns (logReplies log seq stale) (spliced stale 0 (log.rest 0), none) :=
    by
      obtain ⟨steps, number, last, fetched, behind⟩ := logAll_fetches log seq stale 0 0 []
      exact ⟨0 + steps, (fetched 0).trans (if_pos (behind started room))⟩
  constructor
  · intro returns
    exact congrArg Prod.fst (returned.unique returns)
  · intro same
    rw [← same]
    exact returned

/-- At the end of the counter more than the ring is returned, if anything. -/
theorem not_logAllReturns_full {log : Log} (seq : Nat → UInt16) (stale : Nat → Stale)
    (full : (log.rest 0).length = logSize) {result : Bytes} (size : result.length = logSize) :
    ¬ LogAllReturns (logReplies log seq stale) (result, none) := by
  rintro ⟨fuel, ran⟩
  have chunks := (spliced_starts log seq stale ran).length_le
  rw [nil_append] at chunks
  have ring : logSize = 16384 := rfl
  rcases length_spliced_cases stale 0 (log.rest 0) with long | ⟨cut, long⟩
  · omega
  · omega

theorem ne_repeated {held : Bytes} (full : held.length = logSize) (stale : Nat → Stale) :
    ¬ ∃ chunks, 0 < chunks ∧ held = repeated stale 0 chunks := by
  rintro ⟨chunks, -, same⟩
  have length := congrArg List.length same
  have ring : logSize = 16384 := rfl
  rw [length_repeated] at length
  omega

theorem spliced_wrapped_iff (stale : Nat → Stale) (short : bytes.length % 2 ^ 64 < logSize)
    (wrapped : 2 ^ 64 ≤ bytes.length) :
    spliced stale 0 ((boot.push bytes).rest 0) = heldBytes bytes ↔
      bytes.length % 2 ^ 64 = 16380 ∧ ∀ chunk ≤ 4, (stale chunk).bytes =
        ((heldBytes bytes).drop (4004 * chunk)).take 4 := by
  have ring : logSize = 16384 := rfl
  have full : (heldBytes bytes).length = 4004 * 4 + 368 := by
    rw [length_heldBytes]
    omega
  have each := spliced_drop_eq_iff stale 0 full (by decide) (by decide)
  simp only [zero_add] at each
  rw [rest_zero_wrapped short wrapped]
  constructor
  · intro same
    have length := congrArg List.length same
    have cases := length_spliced_cases stale 0
      ((heldBytes bytes).drop (logSize - bytes.length % 2 ^ 64))
    rw [length_drop] at cases
    have counter : bytes.length % 2 ^ 64 = 16380 := by omega
    rw [counter] at same
    exact ⟨counter, each.mp same⟩
  · rintro ⟨counter, stales⟩
    rw [counter]
    exact each.mpr stales

/--
The log is returned exactly where the ring holds chunks of 4004 bytes that
repeat the stale bytes, or, after the counter has wrapped to 16380, where the
stale bytes are those that the kernel leaves out.
-/
theorem logAll_exact_iff (bytes : Bytes) (seq : Nat → UInt16) (stale : Nat → Stale) :
    LogAllReturns (logReplies (boot.push bytes) seq stale) (heldBytes bytes, none) ↔ (∃ chunks,
        0 < chunks ∧ heldBytes bytes = repeated stale 0 chunks) ∨
      2 ^ 64 ≤ bytes.length ∧ bytes.length % 2 ^ 64 = 16380 ∧ ∀ chunk ≤ 4, (stale chunk).bytes =
        ((heldBytes bytes).drop (4004 * chunk)).take 4 := by
  have counted := total_push bytes
  have heldLength := length_heldBytes bytes
  have ring : logSize = 16384 := rfl
  by_cases wrapped : bytes.length % 2 ^ 64 < logSize ∧ 2 ^ 64 ≤ bytes.length
  · have full : (heldBytes bytes).length = logSize := by omega
    rw [logAllReturns_iff seq stale (by omega), spliced_wrapped_iff stale wrapped.1 wrapped.2]
    constructor
    · intro counter
      exact Or.inr ⟨wrapped.2, counter⟩
    · rintro (repeats | ⟨-, counter⟩)
      · exact absurd repeats (ne_repeated full stale)
      · exact counter
  · have whole : min (bytes.length % 2 ^ 64) logSize = min bytes.length logSize := by omega
    have same : bytes.length - min bytes.length logSize = bytes.length - logSize := by omega
    have rest : (boot.push bytes).rest 0 = heldBytes bytes := by
      rw [rest_zero, whole, same, heldBytes]
    by_cases room : (boot.push bytes).total.toNat + 4 < 2 ^ 64
    · rw [logAllReturns_iff seq stale room, rest, spliced_eq_self_iff]
      constructor
      · exact Or.inl
      · rintro (repeats | ⟨long, counter, -⟩)
        · exact repeats
        · omega
    · have full : (heldBytes bytes).length = logSize := by omega
      constructor
      · intro returns
        exact absurd returns (not_logAllReturns_full seq stale (by rw [rest, full]) full)
      · rintro (repeats | ⟨-, counter, -⟩)
        · exact absurd repeats (ne_repeated full stale)
        · omega

def noStale : Stale := ⟨[0, 0, 0, 0], rfl⟩

/-- One logged byte comes back behind four bytes that nobody logged. -/
theorem logAll_one_byte : logAll (logReplies (boot.push [65]) (fun _ => 0) fun _ => noStale)
      1 0 0 [] = some ([0, 0, 0, 0, 65], none) ∧
    ¬ LogAllReturns (logReplies (boot.push [65]) (fun _ => 0) fun _ => noStale)
      (heldBytes [65], none) := by
  have ran : logAll (logReplies (boot.push [65]) (fun _ => 0) fun _ => noStale)
      1 0 0 [] = some ([0, 0, 0, 0, 65], none) := by
    decide
  refine ⟨ran, fun held => ?_⟩
  have same :=
    LogAllReturns.unique (⟨1, ran⟩ : LogAllReturns
        (logReplies (boot.push [65]) (fun _ => 0) fun _ => noStale) _)
      held
  exact absurd same (by decide)

end KernelLane.Kern
