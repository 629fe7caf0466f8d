import KernelLane.Runs
import KernelLane.Vfio

namespace KernelLane.Devices

open Pci Function Vfio DeviceOp

/-!
# Memory that devices reach

The frames that a session's devices reach lie in the session's memory when
they are mapped.  They stay there as long as the memory does: growing may move
it, and a session that dies leaves the hardware's tables as they are.
-/

/-- A device of the session reaches this frame. -/
def Vfio.Reachable (state : Vfio) (sid : UInt32) (phys : Nat) : Prop :=
  ∃ fn addr, (state.hwDomains sid).attached fn = true ∧
    (state.hwDomains sid).frames addr = some phys

/-- The frame lies in the memory. -/
def Memory.Holds (memory : Memory) (phys : Nat) : Prop :=
  memory.base ≤ phys ∧ phys + 0x1000 ≤ memory.base + memory.size

/-- What devices reach for a session lies in the memory of that session. -/
def Vfio.Confined (state : Vfio) : Prop :=
  ∀ sid phys, state.Reachable sid phys →
    ∃ memory, state.memory sid = some memory ∧ memory.Holds phys

/-- No frame of the session is mapped. -/
def Vfio.NoFrames (state : Vfio) (sid : UInt32) : Prop :=
  ∀ addr, (state.hwDomains sid).frames addr = none

/--
A call that is careful with mapped frames: a range does not wrap around, and
the memory moves, comes and goes only while none of its frames is mapped.
-/
def DeviceOp.Careful (state : Vfio) : DeviceOp → Prop
  | .dmaMap _ _ _ off size => off + size < 2 ^ 64
  | .grow sid _ pages =>
    state.NoFrames sid ∨ ∀ memory, state.memory sid = some memory →
      memory.size + pages * pageSize ≤ memory.capacity
  | .ensure sid _ bytes =>
    state.NoFrames sid ∨ ∀ memory, state.memory sid = some memory →
      alignUp bytes pageSize ≤ memory.capacity
  | .mapBar sid _ _ _ => state.NoFrames sid
  | .start sid _ _ => state.NoFrames sid
  | .die sid => state.NoFrames sid
  | _ => True

/-- A careful step. -/
def DeviceOp.CarefulStep (before : Vfio) (op : DeviceOp) (after : Vfio) : Prop :=
  op.Careful before ∧ op.run before = after

/-! ## Frames -/

/-- Every mapped frame lies in the memory of its session. -/
def Vfio.FramesHeld (state : Vfio) : Prop :=
  ∀ sid addr phys, (state.hwDomains sid).frames addr = some phys →
    ∃ memory, state.memory sid = some memory ∧ memory.Holds phys

theorem Vfio.FramesHeld.confined {state : Vfio} (held : state.FramesHeld) : state.Confined := by
  rintro sid phys ⟨_, addr, _, mapped⟩
  exact held sid addr phys mapped

/-- The hardware domains and the memories stay. -/
structure SameFrames (state after : Vfio) : Prop where
  hw : after.hwDomains = state.hwDomains
  memory : after.memory = state.memory

namespace SameFrames

variable {state after : Vfio}

theorem refl (state : Vfio) : SameFrames state state := ⟨rfl, rfl⟩

theorem trans {last : Vfio} (first : SameFrames state after) (second : SameFrames after last) :
    SameFrames state last :=
  ⟨second.hw.trans first.hw, second.memory.trans first.memory⟩

theorem held (same : SameFrames state after) (held : state.FramesHeld) : after.FramesHeld := by
  intro sid addr phys mapped
  rw [same.hw] at mapped
  rw [same.memory]
  exact held sid addr phys mapped

theorem onBus {Result : Type} (state : Vfio) (access : Config Result) :
    SameFrames state (state.onBus access).2 := by
  unfold Vfio.onBus
  split <;> exact ⟨rfl, rfl⟩

theorem nextBarBase (state : Vfio) (base : Nat) :
    SameFrames state { state with nextBarBase := base } :=
  ⟨rfl, rfl⟩

end SameFrames

/-- Nothing but the memory of this session changed. -/
structure MovesOnly (sid : UInt32) (state after : Vfio) : Prop where
  hw : after.hwDomains = state.hwDomains
  memory : ∀ other, other ≠ sid → after.memory other = state.memory other

namespace MovesOnly

variable {state after : Vfio} {sid : UInt32}

theorem of_same (same : SameFrames state after) : MovesOnly sid state after :=
  ⟨same.hw, fun _ _ => by rw [same.memory]⟩

theorem trans {last : Vfio} (first : MovesOnly sid state after)
    (second : MovesOnly sid after last) : MovesOnly sid state last :=
  ⟨second.hw.trans first.hw, fun other different =>
    (second.memory other different).trans (first.memory other different)⟩

theorem held (moves : MovesOnly sid state after) (none : state.NoFrames sid)
    (held : state.FramesHeld) : after.FramesHeld := by
  intro other addr phys mapped
  rw [moves.hw] at mapped
  by_cases same : other = sid
  · subst same
    rw [none addr] at mapped
    cases mapped
  · rw [moves.memory other same]
    exact held other addr phys mapped

theorem replaced (state : Vfio) (sid : UInt32) (memory : Option Memory) : MovesOnly sid state
    { state with memory := update state.memory sid memory } :=
  ⟨rfl, fun _ different => update_of_ne different _ _⟩

end MovesOnly

variable {memory : Memory} {env : IommuEnv} {off : Nat} {hw : HwDomain} {size : Nat}

def Vfio.withMemory (state : Vfio) (sid : UInt32) (memory : Memory) : Vfio :=
  { state with memory := update state.memory sid (some memory) }

theorem Vfio.FramesHeld.withMemory {state : Vfio} {sid : UInt32} {larger : Memory}
    (held : state.FramesHeld) (had : state.memory sid = some memory)
    (careful : state.NoFrames sid ∨ larger.base = memory.base ∧ memory.size ≤ larger.size) :
    (state.withMemory sid larger).FramesHeld := by
  rcases careful with none | ⟨base, size⟩
  · exact (MovesOnly.replaced state sid (some larger)).held none held
  intro other addr phys mapped
  obtain ⟨found, known, low, high⟩ := held other addr phys mapped
  rw [Vfio.withMemory]
  by_cases same : other = sid
  · subst same
    rw [had] at known
    cases known
    refine ⟨larger, update_self _ _ _, ?_, ?_⟩ <;> omega
  · refine ⟨found, ?_, low, high⟩
    exact (update_of_ne same _ _).trans known

theorem Memory.growMemory_in_place {grown : Memory} {allocator : Allocator} {pages : Nat}
    (held : memory.size + pages * pageSize ≤ memory.capacity)
    (ran : memory.growMemory allocator pages = some grown) :
    grown.base = memory.base ∧ memory.size ≤ grown.size := by
  unfold growMemory at ran
  dsimp only at ran
  split at ran
  · cases ran
  split at ran
  · cases ran
    exact ⟨rfl, Nat.le_refl _⟩
  · cases ran
    exact ⟨rfl, Nat.le_add_right _ _⟩

theorem Memory.ensureMemoryBytes_in_place {grown : Memory} {allocator : Allocator} {bytes : Nat}
    (held : alignUp bytes pageSize ≤ memory.capacity)
    (ran : memory.ensureMemoryBytes allocator bytes = some grown) :
    grown.base = memory.base ∧ memory.size ≤ grown.size := by
  unfold ensureMemoryBytes at ran
  dsimp only at ran
  split at ran
  · cases ran
  split at ran
  · cases ran
    exact ⟨rfl, Nat.le_refl _⟩
  next larger =>
  split at ran
  · cases ran
  · cases ran
    exact ⟨rfl, Nat.le_of_not_le larger⟩

/-! ## Mapping -/

theorem unmapFrames_frames {count : Nat} {addr phys : Nat}
    (mapped : (unmapFrames env off count hw).frames addr = some phys) :
    hw.frames addr = some phys := by
  induction count with
  | zero => exact mapped
  | succ count hypothesis =>
    rw [unmapFrames] at mapped
    split at mapped
    · dsimp only at mapped
      by_cases here : addr = devAddr off count
      · subst here
        simp at mapped
      · rw [update_of_ne here] at mapped
        exact hypothesis mapped
    · exact hypothesis mapped

/-- A frame that is mapped now was mapped before or belongs to the range. -/
theorem mapFrames_frames {fn : Bdf} {base count index : Nat} {pages : List Nat} {addr phys : Nat}
    (mapped : (mapFrames env fn off base count index hw pages).2.1.frames addr = some phys) :
    hw.frames addr = some phys ∨ ∃ frame, frame < index + count ∧
      phys = (base + off + frame * 0x1000) % 2 ^ 64 := by
  induction count generalizing index hw pages with
  | zero => exact .inl mapped
  | succ count hypothesis =>
    rw [mapFrames] at mapped
    split at mapped
    · rcases hypothesis mapped with earlier | ⟨frame, below, same⟩
      · dsimp only at earlier
        by_cases here : addr = devAddr off index
        · subst here
          rw [update_self] at earlier
          cases earlier
          exact .inr ⟨index, by omega, rfl⟩
        · rw [update_of_ne here] at earlier
          exact .inl earlier
      · exact .inr ⟨frame, by omega, same⟩
    · exact .inl (unmapFrames_frames mapped)

theorem Vfio.FramesHeld.mapped {state after : Vfio} {sid : UInt32} (held : state.FramesHeld)
    (memory : after.memory = state.memory)
    (updated : after.hwDomains = update state.hwDomains sid hw)
    (inside : ∀ addr phys, hw.frames addr = some phys →
      ∃ owned, state.memory sid = some owned ∧ owned.Holds phys) : after.FramesHeld := by
  intro other addr phys found
  rw [updated] at found
  rw [memory]
  by_cases same : other = sid
  · subst same
    rw [update_self] at found
    exact inside addr phys found
  · rw [update_of_ne same] at found
    exact held other addr phys found

theorem Memory.holds_frame {frame : Nat} (noWrap : off + size < 2 ^ 64)
    (inside : ¬memory.shownSize < (off + size) % 2 ^ 64) (below : frame < size / 0x1000) :
    memory.Holds ((memory.base + off + frame * 0x1000) % 2 ^ 64) := by
  have covered := memory.covered
  have fits := memory.fits
  have shown : memory.shownSize ≤ memory.size := Nat.mod_le _ _
  constructor <;> omega

theorem Vfio.guestRange_eq_some {state : Vfio} {sid : UInt32}
    (found : state.guestRange sid off size = some memory) :
    state.memory sid = some memory ∧ ¬memory.shownSize < (off + size) % 2 ^ 64 := by
  unfold guestRange at found
  split at found
  · cases found
  next owned known =>
  split at found
  · cases found
  next inside =>
  cases found
  exact ⟨known, inside⟩

theorem Vfio.FramesHeld.domainReady {state : Vfio} (held : state.FramesHeld) (env : IommuEnv)
    (sid : UInt32) : (state.domainReady env sid).2.FramesHeld ∧
      (state.domainReady env sid).2.memory = state.memory := by
  unfold Vfio.domainReady
  split
  · exact ⟨held, rfl⟩
  split
  · exact ⟨held, rfl⟩
  split
  · exact ⟨held.mapped rfl rfl (held sid), rfl⟩
  · exact ⟨held, rfl⟩

theorem Vfio.FramesHeld.dmaMap {state : Vfio} (held : state.FramesHeld) {sid : UInt32} {fn : Bdf}
    (noWrap : off + size < 2 ^ 64) : (state.dmaMap env sid fn off size).2.FramesHeld := by
  unfold Vfio.dmaMap
  split
  · exact held
  have ready := held.domainReady env sid
  rcases domain : state.domainReady env sid with ⟨isReady, next⟩
  rw [domain] at ready
  cases isReady with
  | false => exact ready.1
  | true =>
    dsimp only
    split
    · exact ready.1
    next memory found =>
    obtain ⟨known, inside⟩ := guestRange_eq_some found
    split
    · exact ready.1
    split
    · exact ready.1
    refine ready.1.mapped rfl rfl ?_
    intro addr phys mapped
    rcases mapFrames_frames mapped with earlier | ⟨frame, below, rfl⟩
    · exact ready.1 sid addr phys earlier
    · rw [Nat.zero_add] at below
      exact ⟨memory, known, Memory.holds_frame noWrap inside below⟩

theorem Vfio.FramesHeld.dmaUnmap {state : Vfio} (held : state.FramesHeld) (env : IommuEnv)
    (sid : UInt32) (off size : Nat) : (state.dmaUnmap env sid off size).2.FramesHeld := by
  unfold Vfio.dmaUnmap
  split
  · exact held
  split
  · exact held
  refine held.mapped rfl rfl ?_
  intro addr phys mapped
  exact held sid addr phys (unmapFrames_frames mapped)

/-! ## The other calls -/

theorem Vfio.memory_cases {Outcome : Type} {state : Vfio} {sid : UInt32}
    {change : Memory → Option Memory} {kept result : Outcome} {replaced : Memory → Outcome}
    (ran : (match state.memory sid with
      | none => kept
      | some memory =>
        match change memory with
        | none => kept
        | some larger => replaced larger) = result) :
    result = kept ∨ ∃ memory larger, state.memory sid = some memory ∧
      change memory = some larger ∧ result = replaced larger := by
  subst ran
  cases state.memory sid with
  | none => exact .inl rfl
  | some memory =>
    dsimp only
    cases changed : change memory with
    | none => exact .inl rfl
    | some larger => exact .inr ⟨memory, larger, rfl, changed, rfl⟩

theorem Vfio.ensureBytes_cases (state : Vfio) (sid : UInt32) (allocator : Allocator) (bytes : Nat) :
    state.ensureBytes sid allocator bytes = (false, state) ∨ ∃ memory larger,
      state.memory sid = some memory ∧ memory.ensureMemoryBytes allocator bytes = some larger ∧
        state.ensureBytes sid allocator bytes = (true, state.withMemory sid larger) := by
  -- The function stays a variable, or its page arithmetic is computed.
  obtain ⟨ensure, named⟩ : ∃ function, function = Memory.ensureMemoryBytes allocator bytes :=
    ⟨_, rfl⟩
  unfold ensureBytes
  rw [← named]
  exact memory_cases rfl

theorem DeviceOp.run_grow_cases (state : Vfio) (sid : UInt32) (allocator : Allocator)
    (pages : Nat) : (grow sid allocator pages).run state = state ∨ ∃ memory grown,
      state.memory sid = some memory ∧ memory.growMemory allocator pages = some grown ∧
        (grow sid allocator pages).run state = state.withMemory sid grown := by
  obtain ⟨grow, named⟩ : ∃ function, function = Memory.growMemory allocator pages := ⟨_, rfl⟩
  rw [run, ← named]
  exact memory_cases rfl

namespace MovesOnly

variable (state : Vfio) (sid : UInt32) (fn : Bdf)

theorem locateBar (bar : Nat) : MovesOnly sid state (state.locateBar fn bar).2 := by
  unfold Vfio.locateBar
  have probed := SameFrames.onBus state (pciBarInfo fn bar)
  generalize state.onBus (pciBarInfo fn bar) = probe at probed ⊢
  rcases probe with ⟨found | info, next⟩
  · dsimp only
    have assigned := SameFrames.onBus next (pciAssignBar fn bar next.nextBarBase)
    generalize next.onBus (pciAssignBar fn bar next.nextBarBase) = assignment at assigned ⊢
    rcases assignment with ⟨found | info, last⟩
    · exact .of_same (probed.trans assigned)
    · exact .of_same ((probed.trans assigned).trans (.nextBarBase last _))
  · exact .of_same probed

theorem ensureBytes (allocator : Allocator) (bytes : Nat) :
    MovesOnly sid state (state.ensureBytes sid allocator bytes).2 := by
  rcases state.ensureBytes_cases sid allocator bytes with
    same | ⟨_, larger, _, _, ran⟩
  · rw [same]
    exact .of_same (.refl state)
  · rw [ran]
    exact .replaced state sid (some larger)

theorem coverWindow (allocator : Allocator) (need : Nat) :
    MovesOnly sid state (state.coverWindow sid allocator need).2 := by
  unfold Vfio.coverWindow
  dsimp only
  split
  · exact ensureBytes state sid allocator _
  · exact .of_same (.refl state)

end MovesOnly

namespace SameFrames

variable (state : Vfio) (sid : UInt32) (fn : Bdf)

theorem decodeMemory (isMem : Bool) : SameFrames state (state.decodeMemory fn isMem) := by
  unfold Vfio.decodeMemory
  split
  · exact onBus state _
  · exact .refl state

theorem iommuMapPages (phys size : Nat) :
    SameFrames state (state.iommuMapPages sid phys size).2 := by
  unfold Vfio.iommuMapPages
  split
  · exact .refl state
  dsimp only
  split <;> exact ⟨rfl, rfl⟩

theorem iommuUnmapRange (phys size : Nat) :
    SameFrames state (state.iommuUnmapRange sid phys size) := by
  unfold Vfio.iommuUnmapRange
  split <;> exact ⟨rfl, rfl⟩

theorem recordBar (saved : Nat) (entry : BarMap) :
    SameFrames state (state.recordBar saved entry).2 := by
  unfold Vfio.recordBar
  split
  · exact ⟨rfl, rfl⟩
  · exact (iommuUnmapRange state entry.sid entry.phys _).trans ⟨rfl, rfl⟩

theorem unmapBar (bar : Nat) : SameFrames state (state.unmapBar sid fn bar).2 := by
  unfold Vfio.unmapBar
  split
  · exact .refl state
  split
  · exact .refl state
  · exact (iommuUnmapRange state sid _ _).trans ⟨rfl, rfl⟩

theorem barTarget (bar : Nat) : SameFrames state (state.barTarget sid fn bar).2 := by
  unfold Vfio.barTarget
  split
  · split
    · exact .refl state
    · exact onBus state _
  · exact onBus state _

theorem accessBar (bar off width : Nat) :
    SameFrames state (accessBar state sid fn bar off width).2 := by
  unfold DeviceOp.accessBar
  split
  swap
  · exact .refl state
  unfold barResolve
  split
  · exact .refl state
  have target := barTarget state sid fn bar
  generalize state.barTarget sid fn bar = found at target ⊢
  rcases found with ⟨found | info, next⟩
  · exact target
  · dsimp only
    split
    · exact target
    · split <;> exact target

theorem recordDoorbell (kind vector : Nat) :
    SameFrames state (state.recordDoorbell sid fn kind vector).2 := by
  unfold Vfio.recordDoorbell
  split <;> exact ⟨rfl, rfl⟩

theorem allocMsiVector : SameFrames state state.allocMsiVector.2 := by
  unfold Vfio.allocMsiVector
  split <;> exact ⟨rfl, rfl⟩

theorem bindIrq (kind : Nat) : SameFrames state (state.bindIrq sid fn kind).2 := by
  unfold Vfio.bindIrq
  split
  · exact .refl state
  have looked := onBus state (pciRead32 fn 0)
  generalize state.onBus (pciRead32 fn 0) = vendor at looked ⊢
  rcases vendor with ⟨found | vend, next⟩
  · exact looked
  dsimp only
  split
  · exact looked
  have taken := allocMsiVector next
  generalize next.allocMsiVector = allocated at taken ⊢
  rcases allocated with ⟨found | vector, after⟩
  · exact looked.trans taken
  dsimp only
  split
  · have programmed := onBus after (programMsix fn)
    generalize after.onBus (programMsix fn) = table at programmed ⊢
    rcases table with ⟨found | result, last⟩
    · exact ((looked.trans taken).trans programmed).trans ⟨rfl, rfl⟩
    · exact ((looked.trans taken).trans programmed).trans (recordDoorbell last sid fn kind vector)
  · exact (looked.trans taken).trans (recordDoorbell after sid fn kind vector)

theorem assignPci (target : UInt32) (fn : Bdf) (caller : UInt32) :
    SameFrames state (state.assignPci target fn caller).2 := by
  unfold Vfio.assignPci
  split
  · exact .refl state
  have looked := onBus state (pciRead32 fn 0)
  generalize state.onBus (pciRead32 fn 0) = vendor at looked ⊢
  rcases vendor with ⟨found | vend, next⟩
  · exact looked
  dsimp only
  split
  · exact looked
  split
  · exact looked
  · exact looked.trans ⟨rfl, rfl⟩

theorem onDevice {Result : Type} (access : Config Result) :
    SameFrames state (onDevice state sid fn access) := by
  unfold DeviceOp.onDevice
  split
  · exact onBus state access
  · exact .refl state

end SameFrames

theorem MovesOnly.mapBar (state : Vfio) (sid : UInt32) (fn : Bdf) (bar : Nat)
    (allocator : Allocator) : MovesOnly sid state (state.mapBar sid fn bar allocator).2 := by
  unfold Vfio.mapBar
  split
  · exact .of_same (.refl state)
  split
  · exact .of_same (.refl state)
  have located := MovesOnly.locateBar state sid fn bar
  generalize state.locateBar fn bar = place at located ⊢
  rcases place with ⟨found | info, next⟩
  · exact located
  refine located.trans ?_
  unfold mapLocated
  have window : SameFrames next (next.allocWindow info.size).2 := ⟨rfl, rfl⟩
  dsimp only
  generalize next.allocWindow info.size = slot at window ⊢
  rcases slot with ⟨found | win, placed⟩
  · exact .of_same window
  refine (MovesOnly.of_same window).trans ?_
  dsimp only
  have covers := MovesOnly.coverWindow placed sid allocator ((win + info.size) % 2 ^ 64)
  generalize placed.coverWindow sid allocator ((win + info.size) % 2 ^ 64) = cover at covers ⊢
  rcases cover with ⟨_ | _, covered⟩
  · exact covers.trans (.of_same ⟨rfl, rfl⟩)
  refine covers.trans (.of_same ?_)
  dsimp only
  have decodes := SameFrames.decodeMemory covered fn info.isMem
  have grants :=
    SameFrames.iommuMapPages (covered.decodeMemory fn info.isMem) sid info.phys (info.size % 2 ^ 32)
  generalize (covered.decodeMemory fn info.isMem).iommuMapPages sid info.phys
    (info.size % 2 ^ 32) = grant at grants ⊢
  rcases grant with ⟨_ | _, granted⟩
  · exact (decodes.trans grants).trans ⟨rfl, rfl⟩
  · exact (decodes.trans grants).trans (SameFrames.recordBar granted _ _)

theorem Vfio.FramesHeld.step {before after : Vfio} {op : DeviceOp} (held : before.FramesHeld)
    (step : op.CarefulStep before after) : after.FramesHeld := by
  obtain ⟨careful, rfl⟩ := step
  cases op with
  | read32 | write32 | enableBusmaster | flr => exact (SameFrames.onDevice ..).held held
  | mapBar sid fn bar allocator => exact (MovesOnly.mapBar ..).held careful held
  | unmapBar sid fn bar => exact (SameFrames.unmapBar ..).held held
  | barRead | barWrite => exact (SameFrames.accessBar ..).held held
  | bindIrq sid fn kind => exact (SameFrames.bindIrq ..).held held
  | dmaMap env sid fn off size => exact held.dmaMap careful
  | dmaUnmap env sid off size => exact held.dmaUnmap env sid off size
  | assign target fn caller => exact (SameFrames.assignPci ..).held held
  | grow sid allocator pages =>
    rcases run_grow_cases before sid allocator pages with
      same | ⟨memory, grown, known, ran, replaced⟩
    · rw [same]
      exact held
    rw [replaced]
    refine held.withMemory known (careful.imp id fun inPlace => ?_)
    exact Memory.growMemory_in_place (inPlace memory known) ran
  | ensure sid allocator bytes =>
    change (before.ensureBytes sid allocator bytes).2.FramesHeld
    rcases before.ensureBytes_cases sid allocator bytes with
      same | ⟨memory, larger, known, ran, replaced⟩
    · rw [same]
      exact held
    rw [replaced]
    refine held.withMemory known (careful.imp id fun inPlace => ?_)
    exact Memory.ensureMemoryBytes_in_place (inPlace memory known) ran
  | start sid memory capmask =>
    have moves : MovesOnly sid before ((start sid memory capmask).run before) :=
      (MovesOnly.replaced before sid (some memory)).trans (.of_same ⟨rfl, rfl⟩)
    exact moves.held careful held
  | die sid =>
    have kept : (before.sessionCleanup sid).hwDomains = before.hwDomains := by
      unfold sessionCleanup iommuUnmapAll
      split <;> rfl
    have moves : MovesOnly sid before ((die sid).run before) :=
      (MovesOnly.replaced before sid none).trans (.of_same ⟨kept, rfl⟩)
    exact moves.held careful held
  | setCaps | reset | signal => exact (⟨rfl, rfl⟩ : SameFrames before _).held held

def twoPages : Memory where
  base := 0x10000000
  size := 0x20000
  capacity := 0x20000
  maxPages := none
  maxBytes := 0x20000
  covered := Nat.le_refl _
  fits := by decide

/-- One session, with the PCI capability, next to the virtual framebuffer. -/
def framebufferOwner : Vfio where
  bus := ⟨⟨true, 0xE0000000, 0xE0000000, false⟩,
    fun _ => ⟨fun _ => ⟨2 ^ 32, 0, 0⟩, fun _ => allOnes, fun _ val => val⟩⟩
  barMaps := fun _ => none
  doorbells := fun _ => none
  assigns := fun _ => none
  domains := fun _ => ⟨false, []⟩
  nextHandle := 1
  msiVectorBitmap := fun _ => false
  nextBarBase := 0x82100000
  nextWinOff := 0x5000000
  hwDomains := fun _ => ⟨false, fun _ => false, fun _ => none⟩
  capmask := fun sid => if sid = 1 then Kern.capPci else 0
  memory := fun sid => if sid = 1 then some twoPages else none

end KernelLane.Devices
