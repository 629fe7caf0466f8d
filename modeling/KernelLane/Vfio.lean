import KernelLane.KernSched
import KernelLane.PciConfig

namespace KernelLane.Devices

open Pci Function

/-!
# Devices in the hands of sessions

A session with the PCI capability reaches the devices that are assigned to it:
it reads and writes their configuration registers, maps and accesses their
memory, binds their interrupts and makes its own memory visible to them.  The
kernel keeps a table of mapped memory, a table of assignments, and for each
session the list of pages that it may touch.

What the allocator of the runtime and the IOMMU of the platform answer are
arguments of the calls.
-/

/-! ## The memory of a session -/

def pageSize : Nat := 65536
def ensureSlackBytes : Nat := 8 * 1024 * 1024

def alignUp (value unit : Nat) : Nat := (value + (unit - 1)) / unit * unit

/-- The answers of an allocator: memory lies in the address space. -/
structure Allocator where
  place : Nat → Option Nat
  fits : ∀ {bytes base}, place bytes = some base → base + bytes ≤ 2 ^ 64

/-- The linear memory of a session. -/
structure Memory where
  base : Nat
  size : Nat
  capacity : Nat
  maxPages : Option Nat
  maxBytes : Nat
  covered : size ≤ capacity
  fits : base + capacity ≤ 2 ^ 64

namespace Memory

def allows (memory : Memory) (bytes : Nat) : Bool :=
  memory.maxPages.all fun pages => bytes ≤ pages * pageSize

def shownSize (memory : Memory) : Nat := memory.size % 2 ^ 32

def relocated (memory : Memory) (allocator : Allocator)
    (size capacity : Nat) (covered : size ≤ capacity) : Option Memory :=
  match placed : allocator.place capacity with
  | none => none
  | some base =>
    some
      { memory with
        base := base
        size := size
        capacity := capacity
        covered := covered
        fits := allocator.fits placed }

theorem le_alignUp (value unit : Nat) (positive : 0 < unit) : value ≤ alignUp value unit := by
  unfold alignUp
  have division := Nat.div_add_mod (value + (unit - 1)) unit
  have remainder := Nat.mod_lt (value + (unit - 1)) positive
  rw [Nat.mul_comm] at division
  omega

/-- Provide at least so many bytes, with room for more behind them. -/
def ensureMemoryBytes (allocator : Allocator) (minBytes : Nat) (memory : Memory) : Option Memory :=
  let want := alignUp minBytes pageSize
  let capacity := alignUp (want + ensureSlackBytes) pageSize
  let memory' := { memory with maxBytes := max memory.maxBytes capacity }
  if want = 0 then none
  else if want ≤ memory.size then some memory
  else if !memory.allows want then none
  else if held : want ≤ memory.capacity then some { memory' with size := want, covered := held }
  else
    memory'.relocated allocator want capacity (Nat.le_trans (Nat.le_add_right want ensureSlackBytes)
      (le_alignUp _ pageSize (by decide)))

def growMemory (allocator : Allocator) (pages : Nat) (memory : Memory) : Option Memory :=
  let grown := memory.size + pages * pageSize
  if memory.maxBytes < grown ∨ !memory.allows grown then none
  else if grown = memory.size then some memory
  else if held : grown ≤ memory.capacity then some { memory with size := grown, covered := held }
  else memory.relocated allocator grown grown (Nat.le_refl grown)

end Memory

/-! ## Tables -/

def maxBarMaps : Nat := 8
def maxDoorbells : Nat := 4
def maxPciDevs : Nat := 16
def maxIommuPages : Nat := 8192
def msiVectors : Nat := 32

structure BarMap where
  sid : UInt32
  fn : Bdf
  bar : Nat
  phys : Nat
  size : Nat
  winOff : Nat
  isMem : Bool
  isWc : Bool

structure Doorbell where
  sid : UInt32
  handle : Nat
  fn : Bdf
  kind : Nat
  vector : Nat

structure PciAssign where
  targetSid : UInt32
  fn : Bdf

/-- The pages that a session may touch. -/
structure IommuDomain where
  used : Bool
  pages : List Nat

/-- The hardware domain of a session. -/
structure HwDomain where
  created : Bool
  attached : Bdf → Bool
  /-- The frames behind the addresses that devices use. -/
  frames : Nat → Option Nat

/-- The answers of the platform's IOMMU during one call. -/
structure IommuEnv where
  present : Bool
  create : Bool
  attach : Bool
  detach : Bool
  map : Nat → Bool
  unmap : Nat → Bool

structure Vfio where
  bus : PciBus
  barMaps : Nat → Option BarMap
  doorbells : Nat → Option Doorbell
  assigns : Nat → Option PciAssign
  domains : UInt32 → IommuDomain
  nextHandle : Nat
  msiVectorBitmap : Nat → Bool
  nextBarBase : Nat
  nextWinOff : Nat
  hwDomains : UInt32 → HwDomain
  /-- The capabilities of the sessions, as the scheduler has them. -/
  capmask : UInt32 → UInt64
  /-- The memory of the sessions that live. -/
  memory : UInt32 → Option Memory

def freeSlot {Entry : Type} (count : Nat) (table : Nat → Option Entry) : Option Nat :=
  (List.range count).find? fun slot => (table slot).isNone

def findEntry {Entry : Type} (count : Nat) (table : Nat → Option Entry)
    (wanted : Entry → Bool) : Option (Nat × Entry) :=
  (List.range count).findSome? fun slot =>
    match table slot with
    | some entry => if wanted entry then some (slot, entry) else none
    | none => none

def dropEntries {Entry : Type} (table : Nat → Option Entry)
    (dropped : Entry → Bool) : Nat → Option Entry :=
  fun slot => (table slot).filter fun entry => !dropped entry

namespace Vfio

def hasCap (state : Vfio) (sid : UInt32) (cap : UInt64) : Bool := state.capmask sid &&& cap ≠ 0

def onBus {Result : Type} (state : Vfio) (access : Config Result) : Option Result × Vfio :=
  match access state.bus with
  | (.ok result, bus) => (some result, { state with bus := bus })
  | (.error _, bus) => (none, { state with bus := bus })

def bdfAssignedTo (state : Vfio) (sid : UInt32) (fn : Bdf) : Bool :=
  state.hasCap sid Kern.capDevman || state.bus.isVfb fn ||
    (findEntry maxPciDevs state.assigns fun entry => entry.targetSid = sid && entry.fn = fn).isSome

def pciAccess (state : Vfio) (sid : UInt32) (fn : Bdf) : Bool :=
  state.hasCap sid Kern.capPci && state.bdfAssignedTo sid fn

/-! ## Pages -/

def pageOf (phys : Nat) : Nat := phys / 0x1000 * 0x1000

def setDomain (state : Vfio) (sid : UInt32) (domain : IommuDomain) : Vfio :=
  { state with domains := update state.domains sid domain }

def domainOf (state : Vfio) (sid : UInt32) : IommuDomain :=
  if (state.domains sid).used then state.domains sid else ⟨true, []⟩

def mapPagesFrom : Nat → Nat → List Nat → Bool × List Nat
  | 0, _, pages => (true, pages)
  | count + 1, page, pages =>
    if maxIommuPages ≤ pages.length then (false, pages)
    else mapPagesFrom count (page + 0x1000) (pages ++ [page])

def iommuMapPages (state : Vfio) (sid : UInt32) (phys size : Nat) : Bool × Vfio :=
  if Kern.maxSessions ≤ sid.toNat then (false, state)
  else
    let domain := state.domainOf sid
    let start := pageOf ((phys + 0xFFF) % 2 ^ 64)
    let stop := pageOf ((phys + size + 0xFFF) % 2 ^ 64)
    if size = 0 ∨ stop ≤ start then (true, state.setDomain sid domain)
    else
      let (all, pages) := mapPagesFrom ((stop - start) / 0x1000) start domain.pages
      (all, state.setDomain sid { domain with pages := pages })

def iommuUnmapAll (state : Vfio) (sid : UInt32) : Vfio :=
  if Kern.maxSessions ≤ sid.toNat then state
  else state.setDomain sid ⟨false, []⟩

def iommuUnmapRange (state : Vfio) (sid : UInt32) (phys size : Nat) : Vfio :=
  if Kern.maxSessions ≤ sid.toNat ∨ (state.domains sid).used = false then state
  else
    let start := pageOf phys
    let stop := pageOf ((phys + size + 0xFFF) % 2 ^ 64)
    state.setDomain sid
      { state.domains sid with
        pages :=
          (state.domains sid).pages.filter fun page => !(start ≤ page && page < stop) }

def iommuPermits (state : Vfio) (sid : UInt32) (phys size : Nat) : Bool :=
  if Kern.maxSessions ≤ sid.toNat ∨ (state.domains sid).used = false then false
  else
    let start := pageOf phys
    let stop := pageOf ((phys + size + 0xFFF) % 2 ^ 64)
    (List.range ((stop - start) / 0x1000)).all fun index =>
      (state.domains sid).pages.contains (start + index * 0x1000)

/-! ## Mapped memory -/

def allocWindow (state : Vfio) (size : Nat) : Option Nat × Vfio :=
  let off := alignUp state.nextWinOff 4096
  let next := (off + alignUp size 4096 % 2 ^ 64) % 2 ^ 64
  (if 0x10000000 < next then none else some off, { state with nextWinOff := next })

def barMapOf (state : Vfio) (sid : UInt32) (fn : Bdf) (bar : Nat) : Option (Nat × BarMap) :=
  findEntry maxBarMaps state.barMaps fun entry =>
    entry.sid = sid && entry.fn = fn && entry.bar = bar

/-- Where the device decodes; an address is assigned where there is none. -/
def locateBar (state : Vfio) (fn : Bdf) (bar : Nat) : Option BarInfo × Vfio :=
  match state.onBus (pciBarInfo fn bar) with
  | (some info, next) => (some info, next)
  | (none, next) =>
    match next.onBus (pciAssignBar fn bar next.nextBarBase) with
    | (none, last) => (none, last)
    | (some info, last) =>
      (some info, { last with nextBarBase := last.nextBarBase + alignUp info.size 0x100000 })

def ensureBytes (state : Vfio) (sid : UInt32) (allocator : Allocator)
    (minBytes : Nat) : Bool × Vfio :=
  match state.memory sid with
  | none => (false, state)
  | some memory =>
    match memory.ensureMemoryBytes allocator minBytes with
    | none => (false, state)
    | some larger =>
      (true, { state with memory := update state.memory sid (some larger) })

def coverWindow (state : Vfio) (sid : UInt32) (allocator : Allocator) (need : Nat) : Bool × Vfio :=
  let shown := ((state.memory sid).map Memory.shownSize).getD 0
  if shown < need then state.ensureBytes sid allocator (need % 2 ^ 32)
  else (true, state)

def decodeMemory (state : Vfio) (fn : Bdf) (isMem : Bool) : Vfio :=
  if isMem then (state.onBus (pciEnableBusmaster fn)).2
  else state

def recordBar (state : Vfio) (saved : Nat) (entry : BarMap) : Option Nat × Vfio :=
  match freeSlot maxBarMaps state.barMaps with
  | some slot =>
    (some entry.winOff, { state with barMaps := update state.barMaps slot (some entry) })
  | none =>
    (none,
      { state.iommuUnmapRange entry.sid entry.phys (entry.size % 2 ^ 32) with nextWinOff := saved })

/-- Map memory that was located. -/
def mapLocated (state : Vfio) (sid : UInt32) (fn : Bdf) (bar : Nat)
    (allocator : Allocator) (info : BarInfo) : Option Nat × Vfio :=
  match state.allocWindow info.size with
  | (none, next) => (none, next)
  | (some win, next) =>
    match next.coverWindow sid allocator ((win + info.size) % 2 ^ 64) with
    | (false, covered) => (none, { covered with nextWinOff := state.nextWinOff })
    | (true, covered) =>
      match (covered.decodeMemory fn info.isMem).iommuMapPages sid info.phys (info.size % 2 ^ 32)
      with
      | (false, granted) => (none, { granted with nextWinOff := state.nextWinOff })
      | (true, granted) =>
        granted.recordBar state.nextWinOff ⟨sid, fn, bar, info.phys, info.size, win, info.isMem,
          info.isMem && 1024 * 768 * 4 ≤ info.size⟩

def mapBar (state : Vfio) (sid : UInt32) (fn : Bdf) (bar : Nat)
    (allocator : Allocator) : Option Nat × Vfio :=
  if !state.pciAccess sid fn || 5 < bar then (none, state)
  else
    match state.barMapOf sid fn bar with
    | some (_, entry) => (some entry.winOff, state)
    | none =>
      match state.locateBar fn bar with
      | (none, next) => (none, next)
      | (some info, next) => next.mapLocated sid fn bar allocator info

def unmapBar (state : Vfio) (sid : UInt32) (fn : Bdf) (bar : Nat) : Bool × Vfio :=
  if !state.pciAccess sid fn then (false, state)
  else
    match state.barMapOf sid fn bar with
    | none => (false, state)
    | some (slot, entry) =>
      (true, { state.iommuUnmapRange sid entry.phys (entry.size % 2 ^ 32) with
          barMaps := update state.barMaps slot none })

/--
Where an access goes: to the mapping, or to what the register says.  A mapping
of no bytes counts as none.
-/
def barTarget (state : Vfio) (sid : UInt32) (fn : Bdf) (bar : Nat) : Option BarInfo × Vfio :=
  match state.barMapOf sid fn bar with
  | some (_, entry) =>
    if entry.size ≠ 0 then (some ⟨entry.phys, entry.size, entry.isMem⟩, state)
    else state.onBus (pciBarInfo fn bar)
  | none => state.onBus (pciBarInfo fn bar)

def barResolve (state : Vfio) (sid : UInt32) (fn : Bdf)
    (bar off width : Nat) : Option BarInfo × Vfio :=
  if 5 < bar ∨ width = 0 ∨ 4 < width ∨ state.bdfAssignedTo sid fn = false then (none, state)
  else
    match state.barTarget sid fn bar with
    | (none, next) => (none, next)
    | (some info, next) =>
      if info.size < off + width then (none, next)
      else if !next.iommuPermits sid ((info.phys + off) % 2 ^ 64) width then (none, next)
      else (some info, next)

/-! ## Interrupts -/

def allocMsiVector (state : Vfio) : Option Nat × Vfio :=
  match (List.range msiVectors).find? fun vector => !state.msiVectorBitmap vector with
  | none => (none, state)
  | some vector =>
    (some vector, { state with msiVectorBitmap := update state.msiVectorBitmap vector true })

def freeMsiVector (state : Vfio) (vector : Nat) : Vfio :=
  { state with msiVectorBitmap := update state.msiVectorBitmap vector false }

/-- Enter a doorbell; a full table frees the vector. -/
def recordDoorbell (state : Vfio) (sid : UInt32) (fn : Bdf)
    (kind vector : Nat) : Option Nat × Vfio :=
  match freeSlot maxDoorbells state.doorbells with
  | none => (none, state.freeMsiVector vector)
  | some slot =>
    (some state.nextHandle, { state with
        nextHandle := state.nextHandle + 1
        doorbells := update state.doorbells slot (some ⟨sid, state.nextHandle, fn, kind, vector⟩) })

def bindIrq (state : Vfio) (sid : UInt32) (fn : Bdf) (kind : Nat) : Option Nat × Vfio :=
  if !state.pciAccess sid fn || 2 < kind then (none, state)
  else
    match state.onBus (pciRead32 fn 0) with
    | (none, next) => (none, next)
    | (some vend, next) =>
      if vend = allOnes ∨ vend % 2 ^ 16 = 2 ^ 16 - 1 then (none, next)
      else
        match next.allocMsiVector with
        | (none, taken) => (none, taken)
        | (some vector, taken) =>
          if kind = 2 then
            match taken.onBus (programMsix fn) with
            | (none, failed) => (none, failed.freeMsiVector vector)
            | (some _, done) => done.recordDoorbell sid fn kind vector
          else taken.recordDoorbell sid fn kind vector

/-! ## Memory that devices see -/

def setHw (state : Vfio) (sid : UInt32) (hw : HwDomain) : Vfio :=
  { state with hwDomains := update state.hwDomains sid hw }

def domainReady (state : Vfio) (env : IommuEnv) (sid : UInt32) : Bool × Vfio :=
  if Kern.maxSessions ≤ sid.toNat ∨ env.present = false then (false, state)
  else if (state.hwDomains sid).created then (true, state)
  else if env.create then (true, state.setHw sid { state.hwDomains sid with created := true })
  else (false, state)

def devAddr (off index : Nat) : Nat := (off + index * 0x1000) % 2 ^ 64

def unmapFrames (env : IommuEnv) (off : Nat) : Nat → HwDomain → HwDomain
  | 0, hw => hw
  | count + 1, hw =>
    let earlier := unmapFrames env off count hw
    if env.unmap (devAddr off count) then
      { earlier with frames := update earlier.frames (devAddr off count) none }
    else earlier

/--
Map the frames of a range one by one, and enter each into the page list.  The
first one that is refused takes the earlier ones back.
-/
def mapFrames (env : IommuEnv) (fn : Bdf) (off base : Nat) :
    Nat → Nat → HwDomain → List Nat → Bool × HwDomain × List Nat
  | 0, _, hw, pages => (true, hw, pages)
  | count + 1, index, hw, pages =>
    let phys := (base + off + index * 0x1000) % 2 ^ 64
    if env.map (devAddr off index) then
      mapFrames env fn off base count (index + 1)
        { hw with frames := update hw.frames (devAddr off index) (some phys) }
        (pages ++ [phys])
    else
      let back := unmapFrames env off index hw
      (false, { back with
          attached :=
            if env.detach then update back.attached fn false
            else back.attached },
        pages)

def guestRange (state : Vfio) (sid : UInt32) (off size : Nat) : Option Memory :=
  match state.memory sid with
  | none => none
  | some memory =>
    if memory.shownSize < (off + size) % 2 ^ 64 then none else some memory

def dmaMap (state : Vfio) (env : IommuEnv) (sid : UInt32) (fn : Bdf)
    (off size : Nat) : Bool × Vfio :=
  if !state.pciAccess sid fn || size = 0 || size % 0x1000 ≠ 0 then (false, state)
  else
    match state.domainReady env sid with
    | (false, next) => (false, next)
    | (true, next) =>
      match next.guestRange sid off size with
      | none => (false, next)
      | some memory =>
        let frames := size / 0x1000
        let domain := next.domains sid
        if maxIommuPages < domain.pages.length + frames then (false, next)
        else if !env.attach then (false, next)
        else
          let hw := next.hwDomains sid
          let (all, mapped, pages) :=
            mapFrames env fn off memory.base frames 0
              { hw with attached := update hw.attached fn true }
              domain.pages
          (all, (next.setHw sid mapped).setDomain sid { domain with pages := pages })

def erasePages (base off : Nat) : Nat → List Nat → List Nat
  | 0, pages => pages
  | count + 1, pages =>
    (erasePages base off count pages).erase ((base + off + count * 0x1000) % 2 ^ 64)

def dmaUnmap (state : Vfio) (env : IommuEnv) (sid : UInt32) (off size : Nat) : Bool × Vfio :=
  if Kern.maxSessions ≤ sid.toNat ∨ (state.domains sid).used = false ∨
      size = 0 ∨ size % 0x1000 ≠ 0 then
    (false, state)
  else
    match state.guestRange sid off size with
    | none => (false, state)
    | some memory =>
      let frames := size / 0x1000
      (true, (state.setHw sid (unmapFrames env off frames (state.hwDomains sid))).setDomain sid
        { state.domains sid with
          pages := erasePages memory.base off frames (state.domains sid).pages })

/-! ## Assignment -/

def assignPci (state : Vfio) (target : UInt32) (fn : Bdf) (caller : UInt32) : Bool × Vfio :=
  if !state.hasCap caller Kern.capDevman then (false, state)
  else
    match state.onBus (pciRead32 fn 0) with
    | (none, next) => (false, next)
    | (some vend, next) =>
      if vend = allOnes ∨ vend % 2 ^ 16 = 2 ^ 16 - 1 then (false, next)
      else
        match freeSlot maxPciDevs next.assigns with
        | none => (false, next)
        | some slot =>
          (true, { next with assigns := update next.assigns slot (some ⟨target, fn⟩) })

/-- A session dies: its entries go, and with them its page table. -/
def sessionCleanup (state : Vfio) (sid : UInt32) : Vfio :=
  let vectors := fun vector =>
    state.msiVectorBitmap vector && !(List.range maxDoorbells).any fun slot =>
      match state.doorbells slot with
      | some bell => bell.sid = sid && bell.vector = vector
      | none => false
  { state.iommuUnmapAll sid with
    barMaps := dropEntries state.barMaps fun entry => entry.sid = sid
    doorbells := dropEntries state.doorbells fun bell => bell.sid = sid
    msiVectorBitmap := vectors
    assigns := dropEntries state.assigns fun entry => entry.targetSid = sid }

end Vfio

/-! ## Calls -/

/-- What sessions, the kernel and the devices do. -/
inductive DeviceOp where
  | read32 (sid : UInt32) (fn : Bdf) (offset : Nat)
  | write32 (sid : UInt32) (fn : Bdf) (offset : Nat) (val : UInt32)
  | mapBar (sid : UInt32) (fn : Bdf) (bar : Nat) (allocator : Allocator)
  | unmapBar (sid : UInt32) (fn : Bdf) (bar : Nat)
  | barRead (sid : UInt32) (fn : Bdf) (bar off width : Nat)
  | barWrite (sid : UInt32) (fn : Bdf) (bar off width : Nat)
  | enableBusmaster (sid : UInt32) (fn : Bdf)
  | bindIrq (sid : UInt32) (fn : Bdf) (kind : Nat)
  | flr (sid : UInt32) (fn : Bdf)
  | dmaMap (env : IommuEnv) (sid : UInt32) (fn : Bdf) (off size : Nat)
  | dmaUnmap (env : IommuEnv) (sid : UInt32) (off size : Nat)
  | assign (target : UInt32) (fn : Bdf) (caller : UInt32)
  /-- The guest asks for more memory. -/
  | grow (sid : UInt32) (allocator : Allocator) (pages : Nat)
  /-- The kernel provides memory for a service. -/
  | ensure (sid : UInt32) (allocator : Allocator) (bytes : Nat)
  | start (sid : UInt32) (memory : Memory) (capmask : UInt64)
  | die (sid : UInt32)
  | setCaps (sid : UInt32) (capmask : UInt64)
  /-- A device resets itself and loses its addresses. -/
  | reset (fn : Bdf)
  /-- A device changes one of its other registers. -/
  | signal (fn : Bdf) (offset val : Nat)

namespace DeviceOp

def onDevice {Result : Type} (state : Vfio) (sid : UInt32) (fn : Bdf)
    (access : Config Result) : Vfio :=
  if state.pciAccess sid fn then (state.onBus access).2 else state

def accessBar (state : Vfio) (sid : UInt32) (fn : Bdf)
    (bar off width : Nat) : Option BarInfo × Vfio :=
  if state.hasCap sid Kern.capPci then state.barResolve sid fn bar off width
  else (none, state)

/-- The state after a call. -/
def run (state : Vfio) : DeviceOp → Vfio
  | .read32 sid fn offset => onDevice state sid fn (pciRead32 fn offset)
  | .write32 sid fn offset val => onDevice state sid fn (pciWrite32 fn offset val.toNat)
  | .mapBar sid fn bar allocator => (state.mapBar sid fn bar allocator).2
  | .unmapBar sid fn bar => (state.unmapBar sid fn bar).2
  | .barRead sid fn bar off width => (accessBar state sid fn bar off width).2
  | .barWrite sid fn bar off width => (accessBar state sid fn bar off width).2
  | .enableBusmaster sid fn => onDevice state sid fn (pciEnableBusmaster fn)
  | .bindIrq sid fn kind => (state.bindIrq sid fn kind).2
  | .flr sid fn => onDevice state sid fn (pciFlr fn)
  | .dmaMap env sid fn off size => (state.dmaMap env sid fn off size).2
  | .dmaUnmap env sid off size => (state.dmaUnmap env sid off size).2
  | .assign target fn caller => (state.assignPci target fn caller).2
  | .grow sid allocator pages =>
    match state.memory sid with
    | none => state
    | some memory =>
      match memory.growMemory allocator pages with
      | none => state
      | some grown =>
        { state with memory := update state.memory sid (some grown) }
  | .ensure sid allocator bytes => (state.ensureBytes sid allocator bytes).2
  | .start sid memory capmask =>
    { state with
      memory := update state.memory sid (some memory)
      capmask := update state.capmask sid capmask }
  | .die sid =>
    { state.sessionCleanup sid with memory := update state.memory sid none }
  | .setCaps sid capmask => { state with capmask := update state.capmask sid capmask }
  | .reset fn =>
    let func := state.bus.func fn
    { state with
      bus :=
        { state.bus with
          func :=
            update state.bus.func fn { func with bars := fun bar => (func.bars bar).write 0 } } }
  | .signal fn offset val =>
    let func := state.bus.func fn
    { state with
      bus :=
        { state.bus with
          func :=
            update state.bus.func fn { func with regs := update func.regs offset val } } }

end DeviceOp

end KernelLane.Devices
