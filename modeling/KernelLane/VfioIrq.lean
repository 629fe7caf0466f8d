import KernelLane.VfioDma

namespace KernelLane.Devices

open Pci Function

/-!
# Interrupt vectors

Vectors are taken when a session binds an interrupt.  They come back when the
binding fails, when the session recovers the device after a reset, and when the
session dies.
-/

/-- The source's number of the vector, whose bit the doorbell keeps. -/
def Doorbell.msiVector (bell : Doorbell) : Nat := 0x40 + bell.vector

namespace Vfio

/-- Unbind these doorbells and free their vectors. -/
def dropBells (state : Vfio) (own : Doorbell → Bool) : Vfio :=
  { state with
    doorbells := dropEntries state.doorbells own
    msiVectorBitmap := fun bit =>
      state.msiVectorBitmap bit && !(List.range maxDoorbells).any fun slot =>
        match state.doorbells slot with
        | some bell => own bell && bell.vector = bit
        | none => false }

def recoverAfterFlr (state : Vfio) (sid : UInt32) (fn : Bdf) : Option Unit × Vfio :=
  if !state.pciAccess sid fn then (none, state)
  else
    let unbound := state.dropBells fun bell => bell.sid = sid && bell.fn = fn
    Vfio.onBus
      { unbound with
        barMaps := dropEntries state.barMaps fun entry => entry.sid = sid && entry.fn = fn }
      (pciFlr fn)

/-- The bitmap marks exactly the vectors of the doorbells in use. -/
structure Vectored (state : Vfio) : Prop where
  inTable : ∀ {slot bell}, state.doorbells slot = some bell → slot < maxDoorbells
  marked : ∀ bit, state.msiVectorBitmap bit = true ↔
    ∃ slot bell, state.doorbells slot = some bell ∧ bell.msiVector = 0x40 + bit
  distinct : ∀ {left right first second}, state.doorbells left = some first →
    state.doorbells right = some second → first.msiVector = second.msiVector → left = right
  inRange : ∀ {slot bell}, state.doorbells slot = some bell →
    0x40 ≤ bell.msiVector ∧ bell.msiVector ≤ 0x5f

/-- The doorbells and the bitmap are the same. -/
def SameVectors (before after : Vfio) : Prop :=
  after.doorbells = before.doorbells ∧ after.msiVectorBitmap = before.msiVectorBitmap

theorem SameVectors.onBus {Result : Type} (state : Vfio) (access : Config Result) :
    SameVectors state (state.onBus access).2 := by
  unfold Vfio.onBus
  split <;> exact ⟨rfl, rfl⟩

namespace Vectored

variable {state : Vfio} (vectored : state.Vectored)
include vectored

theorem same {after : Vfio} (same : SameVectors state after) : after.Vectored := by
  obtain ⟨inTable, marked, distinct, inRange⟩ := vectored
  constructor <;> simpa only [same.1, same.2]

theorem dropBells (own : Doorbell → Bool) : (state.dropBells own).Vectored := by
  have kept {slot : Nat} {bell : Doorbell} : (state.dropBells own).doorbells slot = some bell ↔
      state.doorbells slot = some bell ∧ own bell = false := by
    simp [Vfio.dropBells, dropEntries, Option.filter_eq_some_iff]
  refine ⟨fun used => vectored.inTable (kept.mp used).1, fun bit => ?_,
    fun first second => vectored.distinct (kept.mp first).1 (kept.mp second).1,
    fun used => vectored.inRange (kept.mp used).1⟩
  simp only [Vfio.dropBells, Bool.and_eq_true, vectored.marked, Bool.not_eq_true',
    List.any_eq_false, List.mem_range]
  constructor
  · rintro ⟨⟨slot, bell, used, same⟩, others⟩
    have other := others slot (vectored.inTable used)
    simp only [used, Doorbell.msiVector] at other same
    refine ⟨slot, bell, kept.mpr ⟨used, ?_⟩, same⟩
    simpa [show bell.vector = bit by omega] using other
  · rintro ⟨slot, bell, used, same⟩
    obtain ⟨used, alive⟩ := kept.mp used
    refine ⟨⟨slot, bell, used, same⟩, fun other _ => ?_⟩
    split
    · next dead found =>
      rw [Bool.and_eq_true, decide_eq_true_eq]
      rintro ⟨owned, rfl⟩
      obtain rfl := vectored.distinct found used same.symm
      cases found.symm.trans used
      cases owned.symm.trans alive
    · simp

theorem take {after : Vfio} {slot : Nat} {bell : Doorbell} (inTable : slot < maxDoorbells)
    (idle : state.doorbells slot = none) (inRange : bell.vector < msiVectors)
    (unmarked : state.msiVectorBitmap bell.vector = false)
    (bells : after.doorbells = update state.doorbells slot (some bell))
    (bitmap : after.msiVectorBitmap = update state.msiVectorBitmap bell.vector true) :
    after.Vectored := by
  have used {place : Nat} {entry : Doorbell} : after.doorbells place = some entry ↔
      place = slot ∧ entry = bell ∨ state.doorbells place = some entry := by
    rw [bells]
    by_cases same : place = slot
    · subst same
      simp [idle, eq_comm]
    · simp [same]
  have fresh : ¬ ∃ place entry, state.doorbells place = some entry ∧
      entry.msiVector = bell.msiVector := by
    intro held
    cases ((vectored.marked bell.vector).mpr held).symm.trans unmarked
  have above : 0x40 ≤ bell.msiVector ∧ bell.msiVector ≤ 0x5f := by
    simp only [Doorbell.msiVector, msiVectors] at inRange ⊢
    omega
  obtain ⟨oldTable, oldMarked, oldDistinct, oldRange⟩ := vectored
  constructor
  · grind
  · intro bit
    rw [bitmap, update_apply]
    split
    · next same => exact iff_of_true rfl ⟨slot, bell, used.mpr (.inl ⟨rfl, rfl⟩), same ▸ rfl⟩
    · next other =>
      rw [oldMarked]
      refine exists₂_congr fun place entry => and_congr_left fun same => ?_
      rw [used, or_iff_right]
      rintro ⟨-, rfl⟩
      exact other (Nat.add_left_cancel same).symm
  · grind
  · grind

theorem bindIrq (sid : UInt32) (fn : Bdf) (kind : Nat) :
    (state.bindIrq sid fn kind).2.Vectored := by
  unfold Vfio.bindIrq
  split
  · exact vectored
  have looked := vectored.same (.onBus state (pciRead32 fn 0))
  generalize state.onBus (pciRead32 fn 0) = vendor at looked ⊢
  rcases vendor with ⟨_ | vend, next⟩
  · exact looked
  dsimp only
  split
  · exact looked
  unfold allocMsiVector
  cases found : (List.range msiVectors).find? fun vector => !next.msiVectorBitmap vector with
  | none => exact looked
  | some vector =>
    have inRange := List.mem_range.mp (List.mem_of_find?_eq_some found)
    have unmarked : next.msiVectorBitmap vector = false := by simpa using List.find?_some found
    dsimp only
    generalize made : ({ next with msiVectorBitmap := update _ vector true } : Vfio) = taken
    have freed {later : Vfio} (same : taken.SameVectors later) :
        (later.freeMsiVector vector).Vectored := by
      subst made
      exact looked.same ⟨same.1, by
        rw [freeMsiVector, same.2, update_idem, ← unmarked, update_eq_self]⟩
    have recorded {later : Vfio} (same : taken.SameVectors later) :
        (later.recordDoorbell sid fn kind vector).2.Vectored := by
      unfold recordDoorbell
      cases free : freeSlot maxDoorbells later.doorbells with
      | none => exact freed same
      | some slot =>
        subst made
        refine looked.take (List.mem_range.mp (List.mem_of_find?_eq_some free)) ?_ inRange unmarked
          (congrArg (update · slot _) same.1) same.2
        simpa [same.1] using List.find?_some free
    split
    · have programmed := SameVectors.onBus taken (programMsix fn)
      generalize taken.onBus (programMsix fn) = table at programmed ⊢
      rcases table with ⟨_ | _, last⟩
      · exact freed programmed
      · exact recorded programmed
    · exact recorded ⟨rfl, rfl⟩

theorem recoverAfterFlr (sid : UInt32) (fn : Bdf) : (state.recoverAfterFlr sid fn).2.Vectored := by
  unfold Vfio.recoverAfterFlr
  split
  · exact vectored
  · exact ((vectored.dropBells _).same ⟨rfl, rfl⟩).same (.onBus _ (pciFlr fn))

end Vectored

end Vfio

inductive IrqOp where
  | bind (sid : UInt32) (fn : Bdf) (kind : Nat)
  | recover (sid : UInt32) (fn : Bdf)
  | cleanup (sid : UInt32)

def IrqOp.run (state : Vfio) : IrqOp → Vfio
  | .bind sid fn kind => (state.bindIrq sid fn kind).2
  | .recover sid fn => (state.recoverAfterFlr sid fn).2
  | .cleanup sid => state.sessionCleanup sid

/-- One call, after anything that leaves the doorbells and the bitmap alone. -/
def IrqStep (state : Vfio) (op : IrqOp) (next : Vfio) : Prop :=
  ∃ middle, state.SameVectors middle ∧ next = op.run middle

theorem vectored_of_run {start final : Vfio} {ops : List IrqOp}
    (noBells : ∀ slot, start.doorbells slot = none) (clear : ∀ bit, start.msiVectorBitmap bit = false)
    (run : Run IrqStep start ops final) : final.Vectored := by
  refine run.invariant ?_ ⟨by simp [noBells], by simp [noBells, clear], by simp [noBells],
    by simp [noBells]⟩
  rintro before op after vectored ⟨middle, same, rfl⟩
  have vectored := vectored.same same
  cases op with
  | bind sid fn kind => exact vectored.bindIrq sid fn kind
  | recover sid fn => exact vectored.recoverAfterFlr sid fn
  | cleanup sid => exact (vectored.dropBells fun bell => bell.sid = sid).same ⟨rfl, rfl⟩

theorem vectored_of_run_framebuffer :
    (framebufferOwner.bindIrq 1 vfbFn 1).2.msiVectorBitmap 0 = true ∧
      (framebufferOwner.bindIrq 1 vfbFn 1).2.Vectored := by
  have step : IrqStep framebufferOwner (.bind 1 vfbFn 1) _ := ⟨_, ⟨rfl, rfl⟩, rfl⟩
  exact ⟨by decide +kernel, vectored_of_run (fun _ => rfl) (fun _ => rfl) (.cons step (.nil _))⟩

end KernelLane.Devices
