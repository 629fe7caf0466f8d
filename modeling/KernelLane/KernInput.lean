import KernelLane.KernMachine

namespace KernelLane.Kern

open RingQueue Function List

/-!
# The queue of key events

Console bytes become key records in one ring of 256 places.  The ring is read
by the session that has the focus; the records say nothing about the session
that had it when they came in.
-/

def qlen : Nat := 256

/-- One key record. -/
structure KeyRecord where
  kind : UInt8
  mods : UInt8
  cp : UInt16
  deriving DecidableEq, Repr

def KeyRecord.bytes (key : KeyRecord) : Bytes :=
  [key.kind, key.mods, key.cp.toUInt8, (key.cp >>> 8).toUInt8]

def keyDown (b : UInt8) : KeyRecord where
  kind := 1
  mods := 0
  cp := if b = 13 then 10 else b.toUInt16

/-- The ring of records. -/
structure Inq where
  kind : Nat → UInt8
  mods : Nat → UInt8
  cp : Nat → UInt16
  qh : Nat
  qt : Nat
  qn : Nat

namespace Inq

def boot : Inq where
  kind := fun _ => 0
  mods := fun _ => 0
  cp := fun _ => 0
  qh := 0
  qt := 0
  qn := 0

def record (inq : Inq) (index : Nat) : KeyRecord := ⟨inq.kind index, inq.mods index, inq.cp index⟩

def pushByte (inq : Inq) (b : UInt8) : Inq :=
  if qlen ≤ inq.qn then inq
  else
    { kind := update inq.kind inq.qt 1
      mods := update inq.mods inq.qt 0
      cp := update inq.cp inq.qt (if b = 13 then 10 else b.toUInt16)
      qh := inq.qh
      qt := (inq.qt + 1) % qlen
      qn := inq.qn + 1 }

def poll (inq : Inq) (received : Bytes) : Inq := (received.take 64).foldl pushByte inq

def copyOut : Nat → Inq → Bytes × Inq
  | 0, inq => ([], inq)
  | room + 1, inq =>
    if 0 < inq.qn then
      let rest :=
        copyOut room { inq with qh := (inq.qh + 1) % qlen, qn := inq.qn - 1 }
      ((inq.record inq.qh).bytes ++ rest.1, rest.2)
    else ([], inq)

def recv (inq : Inq) (focus : Option UInt32) (sid cap : UInt32) : Bytes × Inq :=
  if cap < 4 then ([], inq)
  else if focus ≠ some sid then ([], inq)
  else inq.copyOut (cap.toNat / 4)

/-! ## The ring as a queue -/

def contents (inq : Inq) : List KeyRecord := window qlen inq.record inq.qh inq.qn

/-- The tail lies behind the records. -/
structure Ready (inq : Inq) : Prop where
  headIn : inq.qh < qlen
  tailAt : inq.qt = place qlen inq.qh inq.qn
  fits : inq.qn ≤ qlen

theorem boot_ready : boot.Ready where
  headIn := by decide
  tailAt := rfl
  fits := by decide

@[simp] theorem length_contents (inq : Inq) : inq.contents.length = inq.qn := by simp [contents]

def queued {α : Type} (queue : List α) (item : α) : List α :=
  if qlen ≤ queue.length then queue else queue ++ [item]

theorem pushByte_spec {inq : Inq} (ready : inq.Ready) (b : UInt8) : (inq.pushByte b).Ready ∧
    (inq.pushByte b).contents = queued inq.contents (keyDown b) := by
  unfold pushByte queued
  rw [length_contents]
  split
  · exact ⟨ready, rfl⟩
  next room =>
    have below : inq.qn < qlen := Nat.lt_of_not_le room
    refine ⟨⟨ready.headIn, ?_, below⟩, ?_⟩
    · dsimp only
      rw [ready.tailAt, place_succ]
    · have records : record
            { kind := update inq.kind inq.qt 1
              mods := update inq.mods inq.qt 0
              cp := update inq.cp inq.qt (if b = 13 then 10 else b.toUInt16)
              qh := inq.qh
              qt := (inq.qt + 1) % qlen
              qn := inq.qn + 1 } =
          update inq.record (place qlen inq.qh inq.qn) (keyDown b) := by
        rw [← ready.tailAt]
        funext index
        by_cases same : index = inq.qt
        · subst same
          simp [record, keyDown]
        · simp [record, same]
      rw [contents, records]
      exact window_push below inq.record inq.qh (keyDown b)

theorem poll_spec {inq : Inq} (ready : inq.Ready) (received : Bytes) : (inq.poll received).Ready ∧
    (inq.poll received).contents = ((received.take 64).map keyDown).foldl queued inq.contents := by
  unfold poll
  generalize received.take 64 = taken
  induction taken generalizing inq with
  | nil => exact ⟨ready, rfl⟩
  | cons b rest hypothesis =>
    obtain ⟨next, pushed⟩ := pushByte_spec ready b
    obtain ⟨last, polled⟩ := hypothesis next
    refine ⟨last, ?_⟩
    rw [foldl_cons, map_cons, foldl_cons, polled, pushed]

theorem copyOut_spec {inq : Inq} (ready : inq.Ready) (room : Nat) : (inq.copyOut room).2.Ready ∧
    (inq.copyOut room).2.contents = inq.contents.drop room ∧
    (inq.copyOut room).1 = (inq.contents.take room).flatMap KeyRecord.bytes := by
  induction room generalizing inq with
  | zero => exact ⟨ready, rfl, rfl⟩
  | succ room hypothesis =>
    unfold copyOut
    split
    next some =>
      obtain ⟨count, counted⟩ := Nat.exists_eq_succ_of_ne_zero (Nat.ne_of_gt some)
      have headIn := ready.headIn
      have next : Ready
          { inq with
            qh := (inq.qh + 1) % qlen
            qn := inq.qn - 1 } := by
        refine ⟨Nat.mod_lt _ (by decide), ?_, ?_⟩
        · dsimp only
          rw [ready.tailAt, place_next, counted]
          rfl
        · exact Nat.le_trans (Nat.sub_le _ _) ready.fits
      have front : inq.contents = inq.record inq.qh :: contents
          { inq with
            qh := (inq.qh + 1) % qlen
            qn := inq.qn - 1 } := by
        unfold contents
        rw [counted]
        exact window_pop headIn inq.record count
      obtain ⟨last, left, copied⟩ := hypothesis next
      refine ⟨last, ?_, ?_⟩
      · rw [left, front, drop_succ_cons]
      · dsimp only
        rw [copied, front, take_succ_cons, flatMap_cons]
    next empty =>
      have none : inq.contents = [] := by
        rw [← length_eq_zero_iff, length_contents]
        omega
      rw [none]
      exact ⟨ready, by simp, by simp⟩

end Inq

end KernelLane.Kern
