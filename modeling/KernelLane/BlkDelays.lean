import KernelLane.DevBlk
import KernelLane.Runs

namespace KernelLane.Block

open List

/-!
# Block requests that take their time

The virtio driver gives up on a request after a billion polls, but the device
does not: it completes the request later, in the one buffer that all requests
share, and the used index that it moves is taken for the next request's.
-/

/-- How a device serves its requests, by their numbers. -/
structure BlkDevice where
  /-- The polls of the used index before the one that finds the request completed. -/
  delay : Nat → Nat
  status : Nat → UInt8
  /-- What a read of the sector delivers. -/
  read : Nat → UInt64 → Bytes

/-- A request that the device has not completed. -/
structure Ticket where
  number : Nat
  write : Bool
  sector : UInt64
  left : Nat

/-- The driver and the memory that it shares with the device. -/
structure BlkDriver where
  sectors : UInt64
  lastUsed : UInt16
  statusByte : UInt8
  sectorData : Bytes
  /-- The requests made so far. -/
  issued : Nat
  pending : List Ticket
  /-- The requests completed, each with the newest request of that moment. -/
  completed : List (Nat × Nat)

namespace BlkDriver

def usedIdx (driver : BlkDriver) : UInt16 := UInt16.ofNat driver.completed.length

def complete (device : BlkDevice) (driver : BlkDriver) (ticket : Ticket) : BlkDriver :=
  { driver with
    statusByte := device.status ticket.number
    sectorData :=
      if ticket.write then driver.sectorData else device.read ticket.number ticket.sector
    completed := driver.completed ++ [(ticket.number, driver.issued - 1)] }

def advance (device : BlkDevice) (driver : BlkDriver) (ticket : Ticket) : BlkDriver :=
  if ticket.left = 0 then driver.complete device ticket
  else { driver with pending := driver.pending ++ [{ ticket with left := ticket.left - 1 }] }

/-- The device works until the next poll. -/
def tick (device : BlkDevice) (driver : BlkDriver) : BlkDriver :=
  driver.pending.foldl (advance device) { driver with pending := [] }

def issue (device : BlkDevice) (write : Bool) (sector : UInt64) (data : Bytes)
    (driver : BlkDriver) : BlkDriver :=
  { driver with
    statusByte := 99
    sectorData := if write then data else driver.sectorData
    issued := driver.issued + 1
    pending := driver.pending ++ [⟨driver.issued, write, sector, device.delay driver.issued⟩] }

def spinLimit : Nat := 1000000000

/-- Poll the used index so often, or until it has moved. -/
def spin (device : BlkDevice) : Nat → BlkDriver → Bool × BlkDriver
  | 0, driver => (false, driver)
  | polls + 1, driver =>
    let seen := driver.tick device
    if seen.usedIdx = seen.lastUsed then spin device polls seen else (true, seen)

/-- One turn of the sector loop, up to the check of the status. -/
def moveSector (device : BlkDevice) (write : Bool) (sector : UInt64) (data : Bytes)
    (driver : BlkDriver) : Bool × BlkDriver :=
  match spin device (spinLimit + 1) (driver.issue device write sector data) with
  | (false, waited) => (false, waited)
  | (true, seen) =>
    -- the index is read once more, a poll later
    let seen := seen.tick device
    (seen.statusByte = 0, { seen with lastUsed := seen.usedIdx })

def rwSectors (device : BlkDevice) (write : Bool) (lba : UInt64) :
    Nat → Nat → Image → BlkDriver → Int × Image × BlkDriver
  | 0, _, buf, driver => (0, buf, driver)
  | remaining + 1, s, buf, driver =>
    match driver.moveSector device write (lba + UInt64.ofNat s)
      (buf.readBytes (s * blkSect) blkSect) with
    | (false, failed) => (-1, buf, failed)
    | (true, moved) =>
      rwSectors device write lba remaining (s + 1)
        (if write then buf else buf.splice (s * blkSect) moved.sectorData) moved

def rw (device : BlkDevice) (request : Request) (driver : BlkDriver) : Int × Image × BlkDriver :=
  if request.count = 0 ∨ 8 < request.count ∨ request.Overflows ∨
      driver.sectors ≠ 0 ∧ driver.sectors.toNat < request.endLba then
    (-1, request.buf, driver)
  else rwSectors device request.write request.lba request.count.toNat 0 request.buf driver

/-- The driver after `virtio_blk_init`. -/
def init (sectors : UInt64) : BlkDriver := ⟨sectors, 0, 99, [], 0, [], []⟩

/-- The device is done with all requests, and the driver has seen it. -/
def caughtUp (driver : BlkDriver) : Bool :=
  driver.pending.isEmpty && driver.usedIdx = driver.lastUsed

end BlkDriver

/-- A call of the driver, or a moment without one. -/
inductive BlkOp where
  | rw (request : Request)
  | idle

def BlkOp.run (device : BlkDevice) (before : BlkDriver) : BlkOp → BlkDriver
  | .rw request => (before.rw device request).2.2
  | .idle => before.tick device

/-- A call is made when no earlier request is out. -/
def BlkOp.patient (before : BlkDriver) : BlkOp → Bool
  | .rw _ => before.caughtUp
  | .idle => true

namespace BlkDriver

variable (device : BlkDevice) {driver : BlkDriver}

/-- The requests up to a number are completed. -/
def Done (driver : BlkDriver) (last : Nat) : Prop :=
  ∀ number < last, (number, number) ∈ driver.completed

/-- Every completion came to the newest request, and all requests are completed
but for one that the driver waits for. -/
structure Owned (driver : BlkDriver) : Prop where
  completed : ∀ done ∈ driver.completed, done.1 = done.2
  state : driver.pending = [] ∧ driver.Done driver.issued ∨
    ∃ ticket, driver.pending = [ticket] ∧ ticket.number + 1 = driver.issued ∧
      driver.usedIdx = driver.lastUsed ∧ driver.Done ticket.number

theorem tick_of_empty (empty : driver.pending = []) : driver.tick device = driver := by
  rw [tick, empty, foldl_nil, ← empty]

theorem caughtUp_iff : driver.caughtUp = true ↔
    driver.pending = [] ∧ driver.usedIdx = driver.lastUsed := by
  simp [caughtUp]

variable (owned : driver.Owned)
include owned

theorem Owned.tick : (driver.tick device).Owned := by
  obtain ⟨completed, empty | ⟨ticket, alone, newest, unmoved, done⟩⟩ := owned
  · rw [tick_of_empty device empty.1]
    exact ⟨completed, .inl empty⟩
  rw [BlkDriver.tick, alone, foldl_cons, foldl_nil, advance]
  split
  · refine ⟨?_, .inl ⟨rfl, fun number before => ?_⟩⟩
    · simp only [complete, forall_mem_append, forall_mem_singleton]
      exact ⟨completed, by omega⟩
    · simp only [complete, mem_append] at before ⊢
      by_cases old : number < ticket.number
      · exact .inl (done number old)
      · exact .inr (by simp; omega)
  · exact ⟨completed, .inr ⟨_, rfl, newest, unmoved, done⟩⟩

theorem Owned.spin (polls : Nat) : (driver.spin device polls).2.Owned ∧
      ((driver.spin device polls).1 = true → (driver.spin device polls).2.pending = []) := by
  induction polls generalizing driver with
  | zero => exact ⟨owned, by simp [BlkDriver.spin]⟩
  | succ polls hypothesis =>
    unfold BlkDriver.spin
    dsimp only
    split
    · exact hypothesis (owned.tick device)
    next moved =>
      refine ⟨owned.tick device, fun _ => ?_⟩
      rcases (owned.tick device).state with ⟨empty, _⟩ | ⟨_, _, _, unmoved, _⟩
      · exact empty
      · exact absurd unmoved moved

theorem Owned.done (empty : driver.pending = []) : driver.Done driver.issued := by
  rcases owned.state with ⟨_, done⟩ | ⟨_, alone, _⟩
  · exact done
  · simp [empty] at alone

variable (ready : driver.caughtUp = true)
include ready

theorem Owned.moveSector (write : Bool) (sector : UInt64) (data : Bytes) :
    (driver.moveSector device write sector data).2.Owned ∧
      ((driver.moveSector device write sector data).1 = true →
        (driver.moveSector device write sector data).2.caughtUp = true) := by
  obtain ⟨empty, unmoved⟩ := caughtUp_iff.mp ready
  have issued : (driver.issue device write sector data).Owned :=
    ⟨owned.completed, .inr ⟨⟨driver.issued, write, sector, _⟩,
      by rw [issue, empty, nil_append], rfl, unmoved, owned.done empty⟩⟩
  obtain ⟨waited, moved⟩ := issued.spin device (spinLimit + 1)
  unfold BlkDriver.moveSector
  split
  next after gaveUp =>
    rw [gaveUp] at waited
    exact ⟨waited, by simp⟩
  next seen changed =>
    rw [changed] at waited moved
    have none := moved rfl
    rw [tick_of_empty device none]
    exact ⟨⟨waited.completed, .inl ⟨none, waited.done none⟩⟩, fun _ => caughtUp_iff.mpr ⟨none, rfl⟩⟩

theorem Owned.rwSectors (write : Bool) (lba : UInt64) (remaining s : Nat) (buf : Image) :
    (driver.rwSectors device write lba remaining s buf).2.2.Owned ∧
      ((driver.rwSectors device write lba remaining s buf).1 = 0 →
        (driver.rwSectors device write lba remaining s buf).2.2.caughtUp = true) := by
  induction remaining generalizing s buf driver with
  | zero => exact ⟨owned, fun _ => ready⟩
  | succ remaining hypothesis =>
    obtain ⟨moved, kept⟩ := owned.moveSector device ready write (lba + UInt64.ofNat s)
      (buf.readBytes (s * blkSect) blkSect)
    unfold BlkDriver.rwSectors
    split
    next failed equal =>
      rw [equal] at moved
      exact ⟨moved, by simp⟩
    next after equal =>
      rw [equal] at moved kept
      exact hypothesis moved (kept rfl) _ _

theorem Owned.rw (request : Request) : (driver.rw device request).2.2.Owned ∧
      ((driver.rw device request).1 = 0 → (driver.rw device request).2.2.caughtUp = true) := by
  unfold BlkDriver.rw
  split
  · exact ⟨owned, fun _ => ready⟩
  · exact owned.rwSectors device ready ..

end BlkDriver

open BlkDriver

theorem completions_belong_to_requests {device : BlkDevice} {sectors : UInt64} {ops : List BlkOp}
    {driver : BlkDriver} (run : Run (fun before op after => op.patient before = true ∧
      op.run device before = after) (init sectors) ops driver) :
    (∀ done ∈ driver.completed, done.1 = done.2) ∧
      ∀ request, driver.caughtUp = true → (driver.rw device request).1 = 0 →
        ∀ number < (driver.rw device request).2.2.issued,
          (number, number) ∈ (driver.rw device request).2.2.completed := by
  have owned : driver.Owned := by
    refine run.invariant (fun {before op after} owned step => ?_)
      ⟨by simp [init], .inl ⟨rfl, by simp [Done, init]⟩⟩
    obtain ⟨patient, rfl⟩ := step
    cases op with
    | rw request => exact (owned.rw device patient request).1
    | idle => exact owned.tick device
  refine ⟨owned.completed, fun request ready success => ?_⟩
  obtain ⟨after, caught⟩ := owned.rw device ready request
  exact after.done (caughtUp_iff.mp (caught success)).1

/-- A device that answers every request, after these delays. -/
def slowDevice (delay : Nat → Nat) : BlkDevice := ⟨delay, fun _ => 0, fun _ _ => []⟩

def readSector : Request := ⟨0, false, 5, fun _ => 0, 1⟩

theorem second_read_completed :
    (1, 1) ∈ (([.rw readSector, .idle].foldl (BlkOp.run (slowDevice id)) (init 8)).rw
      (slowDevice id) readSector).2.2.completed :=
  (completions_belong_to_requests (Run.of_admits (by decide +kernel))).2 readSector
    (by decide +kernel) (by decide +kernel) 1 (by decide +kernel)

namespace BlkDriver

variable {device : BlkDevice} {driver : BlkDriver} {write : Bool} {sector : UInt64}

theorem spin_late {number left polls : Nat}
    (alone : driver.pending = [⟨number, write, sector, left⟩]) (late : polls ≤ left)
    (unmoved : UInt16.ofNat driver.completed.length = driver.lastUsed) : driver.spin device polls =
      (false, { driver with pending := [⟨number, write, sector, left - polls⟩] }) := by
  induction polls generalizing driver left with
  | zero => rw [spin, Nat.sub_zero, ← alone]
  | succ polls hypothesis =>
    obtain ⟨less, rfl⟩ := Nat.exists_eq_succ_of_ne_zero (show left ≠ 0 by omega)
    simp only [spin, tick, alone, foldl, advance, usedIdx, unmoved, ↓reduceIte,
      Nat.succ_ne_zero, nil_append, Nat.succ_sub_succ]
    refine hypothesis ?_ (Nat.le_of_succ_le_succ late) ?_
    · rfl
    · exact unmoved

theorem moveSector_late {data : Bytes} (ready : driver.caughtUp = true)
    (late : spinLimit < device.delay driver.issued) : driver.moveSector device write sector data =
      (false, { driver.issue device write sector data with pending :=
        [⟨driver.issued, write, sector, device.delay driver.issued - (spinLimit + 1)⟩] }) := by
  obtain ⟨empty, unmoved⟩ := caughtUp_iff.mp ready
  have alone : (driver.issue device write sector data).pending =
      [⟨driver.issued, write, sector, device.delay driver.issued⟩] := by
    rw [issue, empty, nil_append]
  rw [moveSector, spin_late alone late unmoved]

end BlkDriver

/-- A device that completes every request a poll too late. -/
def lateDevice : BlkDevice := slowDevice fun _ => spinLimit + 1

/-- The first read times out.  The second succeeds at its first poll, which
finds the first completed. -/
theorem late_completion_taken_for_next : ((init 8).rw lateDevice readSector).1 = -1 ∧
      (((init 8).rw lateDevice readSector).2.2.rw lateDevice readSector).1 = 0 ∧
      (((init 8).rw lateDevice readSector).2.2.rw lateDevice readSector).2.2.completed =
        [(0, 1)] := by
  have gaveUp : (init 8).rw lateDevice readSector =
      (-1, readSector.buf, ⟨8, 0, 99, [], 1, [⟨0, false, 5, 0⟩], []⟩) := by
    rw [BlkDriver.rw, if_neg (by decide)]
    change rwSectors lateDevice false 5 1 0 _ _ = _
    rw [rwSectors, moveSector_late rfl (Nat.lt_succ_self spinLimit)]
    rfl
  rw [gaveUp]
  decide +kernel

end KernelLane.Block
