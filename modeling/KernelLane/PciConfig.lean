import KernelLane.Effects
import Mathlib.Tactic.Ring

namespace KernelLane.Pci

open Function Effect

/-!
# The configuration space of PCI devices

The kernel reads and writes the configuration registers of a device, learns
from its base address registers where the device decodes memory and how much
of it, and programs an address where there is none.  Registers are words of 32
bits, kept as numbers.  The virtual framebuffer answers from a table.

Devices are not part of the kernel.  A base address register keeps the bits of
a written word above its granularity and reads them back with its type bits;
what a device makes of a write to another register is its own affair.
-/

def allOnes : Nat := 2 ^ 32 - 1

/-- The address of a function: bus, device and function number. -/
structure Bdf where
  bus : Nat
  dev : Nat
  fn : Nat
  deriving DecidableEq, Repr

/-! ## Devices -/

/--
A base address register: it takes multiples of its granularity and shows its
type in read-only bits below.
-/
structure BarReg where
  gran : Nat
  flags : Nat
  addr : Nat

namespace BarReg

def read (reg : BarReg) : Nat := reg.addr + reg.flags

def write (reg : BarReg) (val : Nat) : BarReg := { reg with addr := val / reg.gran * reg.gran }

end BarReg

/-- One function of a device. -/
structure Func where
  /-- The base address registers. -/
  bars : Nat → BarReg
  /-- The other registers, by offset. -/
  regs : Nat → Nat
  /-- What a register reads after a word was written to it. -/
  settle : Nat → Nat → Nat

def isBarOffset (offset : Nat) : Bool := 0x10 ≤ offset && offset < 0x28

def Func.read (func : Func) (offset : Nat) : Nat :=
  if isBarOffset offset then (func.bars ((offset - 0x10) / 4)).read
  else func.regs offset

def Func.write (func : Func) (offset val : Nat) : Func :=
  if isBarOffset offset then
    let bar := (offset - 0x10) / 4
    { func with bars := update func.bars bar ((func.bars bar).write val) }
  else { func with regs := update func.regs offset (func.settle offset val) }

/-! ## The virtual framebuffer -/

structure Vfb where
  enabled : Bool
  bar0 : Nat
  base : Nat
  /-- The next read of the address returns the size mask. -/
  probe : Bool

def vfbBarSize : Nat := 0x400000

def vfbFn : Bdf := ⟨0, 1, 0⟩

def vfbRd32 (vfb : Vfb) (offset : Nat) : Nat × Vfb :=
  if offset = 0x00 then (0x56781234, vfb)
  else if offset = 0x04 then (0x00000007, vfb)
  else if offset = 0x08 then (0x030000, vfb)
  else if offset = 0x10 then
    if vfb.probe then (2 ^ 32 - vfbBarSize, { vfb with probe := false })
    else (vfb.bar0, vfb)
  else if offset = 0x2C then (0xFFFF0000, vfb)
  else (0, vfb)

def vfbWr32 (vfb : Vfb) (offset val : Nat) : Vfb :=
  if offset = 0x10 then
    if val = allOnes then { vfb with probe := true }
    else { vfb with bar0 := val / 16 * 16, probe := false }
  else vfb

/-! ## Register access -/

/-- The devices that the kernel sees. -/
structure PciBus where
  vfb : Vfb
  func : Bdf → Func

/-- An access to the configuration space; a failure is the error `-1`. -/
abbrev Config (Result : Type) := Effect PciBus Unit Result

def PciBus.isVfb (bus : PciBus) (fn : Bdf) : Bool := bus.vfb.enabled && fn = vfbFn

def addressable (fn : Bdf) (offset : Nat) : Bool :=
  fn.bus ≤ 255 && fn.dev ≤ 31 && fn.fn ≤ 7 && offset ≤ 0xFC && offset % 4 = 0

def pciRead32 (fn : Bdf) (offset : Nat) : Config Nat := fun bus =>
  if !addressable fn offset then (.ok allOnes, bus)
  else if bus.isVfb fn then
    let (value, vfb) := vfbRd32 bus.vfb offset
    (.ok value, { bus with vfb := vfb })
  else (.ok ((bus.func fn).read offset), bus)

def pciWrite32 (fn : Bdf) (offset val : Nat) : Config Int := fun bus =>
  if !addressable fn offset then (.ok (-1), bus)
  else if bus.isVfb fn then (.ok 0, { bus with vfb := vfbWr32 bus.vfb offset val })
  else
    (.ok 0, { bus with func := update bus.func fn ((bus.func fn).write offset val) })

/-! ## Base address registers -/

/-- Where a device decodes, how much, and whether it is memory. -/
structure BarInfo where
  phys : Nat
  size : Nat
  isMem : Bool
  deriving DecidableEq, Repr

def barOffset (bar : Nat) : Nat := 0x10 + bar * 4

def checkPresent (fn : Bdf) (bar v : Nat) : Config Unit := do
  if v = allOnes ∧ bar = 0 then
    let vend ← pciRead32 fn 0
    if vend = allOnes ∨ vend % 2 ^ 16 = 2 ^ 16 - 1 then fail ()
    else pure ()
  else pure ()

def ioBarInfo (fn : Bdf) (bar v : Nat) : Config BarInfo := do
  let _ ← pciWrite32 fn (barOffset bar) allOnes
  let sz ← pciRead32 fn (barOffset bar)
  let _ ← pciWrite32 fn (barOffset bar) v
  if sz = 0 ∨ sz = allOnes then fail ()
  else
    let size := (2 ^ 32 - sz / 4 * 4) % 2 ^ 32
    pure ⟨v / 4 * 4, if size = 0 then 0x100 else size, false⟩

def mem64BarInfo (fn : Bdf) (bar v : Nat) : Config BarInfo := do
  if 5 ≤ bar then fail ()
  else
    let high ← pciRead32 fn (barOffset bar + 4)
    let _ ← pciWrite32 fn (barOffset bar) allOnes
    let _ ← pciWrite32 fn (barOffset bar + 4) allOnes
    let szLow ← pciRead32 fn (barOffset bar)
    let szHigh ← pciRead32 fn (barOffset bar + 4)
    let _ ← pciWrite32 fn (barOffset bar) v
    let _ ← pciWrite32 fn (barOffset bar + 4) high
    let sz := (szHigh * 2 ^ 32 + szLow) / 16 * 16
    if sz = 0 ∨ sz = 2 ^ 64 - 16 then fail ()
    else pure ⟨v / 16 * 16 + high * 2 ^ 32, 2 ^ 64 - sz, true⟩

def mem32BarInfo (fn : Bdf) (bar v : Nat) : Config BarInfo := do
  let _ ← pciWrite32 fn (barOffset bar) allOnes
  let sz ← pciRead32 fn (barOffset bar)
  let _ ← pciWrite32 fn (barOffset bar) v
  let sz := sz / 16 * 16
  if sz = 0 ∨ sz = 2 ^ 32 - 16 then fail ()
  else pure ⟨v / 16 * 16, 2 ^ 32 - sz, true⟩

def isMemBits (v : Nat) : Bool := v % 2 = 0
def is64Bits (v : Nat) : Bool := v % 8 / 2 = 2

def pciBarInfo (fn : Bdf) (bar : Nat) : Config BarInfo := do
  if 5 < bar then fail ()
  else
    let v ← pciRead32 fn (barOffset bar)
    checkPresent fn bar v
    if v = 0 then fail ()
    else if !isMemBits v then ioBarInfo fn bar v
    else if is64Bits v then mem64BarInfo fn bar v
    else mem32BarInfo fn bar v

def enableDecoding (fn : Bdf) (isMem : Bool) : Config Unit := do
  let cmd ← pciRead32 fn 0x04
  if cmd ≠ allOnes then
    let _ ← pciWrite32 fn 0x04 (cmd ||| (if isMem then 0x2 else 0x1) ||| 0x4)
    pure ()
  else pure ()

def assignedSize (mask : Nat) : Nat :=
  let size := (2 ^ 64 - mask) % 2 ^ 64
  if size = 0 ∨ 2 ^ 32 < size then 0x1000 else size

def readHigh (fn : Bdf) (bar : Nat) (is64 : Bool) : Config Nat :=
  if is64 then pciRead32 fn (barOffset bar + 4) else pure 0

def keepBar (fn : Bdf) (bar orig size : Nat) : Config BarInfo := do
  let _ ← pciWrite32 fn (barOffset bar) orig
  let hi ← readHigh fn bar (isMemBits orig && is64Bits orig)
  enableDecoding fn (isMemBits orig)
  pure ⟨if isMemBits orig then hi * 2 ^ 32 + orig / 16 * 16 else orig / 4 * 4, size, isMemBits orig⟩

/-- Program an address and read back what the device made of it. -/
def placeBar (fn : Bdf) (bar orig size base : Nat) : Config BarInfo := do
  let isMem := isMemBits orig
  let is64 := isMem && is64Bits orig
  if isMem && base < 0x100000 || !isMem && 0xFFFF < base then fail ()
  else
    let _ ←
      pciWrite32 fn (barOffset bar) (if isMem then base % 2 ^ 32 / 16 * 16 else base / 4 * 4 + 1)
    if is64 then
      let _ ← pciWrite32 fn (barOffset bar + 4) (base / 2 ^ 32)
      pure ()
    else pure ()
    let rbLow ← pciRead32 fn (barOffset bar)
    let rbHigh ← readHigh fn bar is64
    enableDecoding fn isMem
    pure ⟨if isMem then rbHigh * 2 ^ 32 + rbLow / 16 * 16 else rbLow / 4 * 4, size, isMem⟩

/-- Assign an address to a base address register that has none. -/
def pciAssignBar (fn : Bdf) (bar base : Nat) : Config BarInfo := do
  if 5 < bar then fail ()
  else
    let orig ← pciRead32 fn (barOffset bar)
    if orig = allOnes ∨ orig % 2 ^ 16 = 2 ^ 16 - 1 then fail ()
    else
      let is64 := isMemBits orig && is64Bits orig
      enableDecoding fn (isMemBits orig)
      let _ ← pciWrite32 fn (barOffset bar) allOnes
      let lowMask ← pciRead32 fn (barOffset bar)
      let highMask ← readHigh fn bar is64
      let mask := highMask * 2 ^ 32 + lowMask
      if mask = 2 ^ 32 - 1 ∨ is64 ∧ mask = 2 ^ 64 - 1 then
        let _ ← pciWrite32 fn (barOffset bar) orig
        fail ()
      else if orig / 4 * 4 ≠ 0 then keepBar fn bar orig (assignedSize mask)
      else placeBar fn bar orig (assignedSize mask) base

/-! ## Bus mastering, reset and message interrupts -/

def pciEnableBusmaster (fn : Bdf) : Config Int := do
  let cmd ← pciRead32 fn 0x04
  if cmd = allOnes then fail ()
  else pciWrite32 fn 0x04 (cmd ||| 0x7)

def findCap (fn : Bdf) (wanted : Nat) : Nat → Nat → Config (Option Nat)
  | 0, _ => pure none
  | fuel + 1, ptr =>
    if ptr < 0x40 then pure none
    else do
      let hdr ← pciRead32 fn ptr
      if hdr = allOnes then pure none
      else if hdr % 2 ^ 8 = wanted then pure (some ptr)
      else findCap fn wanted fuel (hdr / 2 ^ 8 % 2 ^ 8)

def findCapFrom (fn : Bdf) (wanted : Nat) : Config Nat := do
  let capPtr ← pciRead32 fn 0x34
  if capPtr = allOnes then fail ()
  else
    match ← findCap fn wanted 16 (capPtr % 2 ^ 8) with
    | none => fail ()
    | some ptr => pure ptr

def pciFlr (fn : Bdf) : Config Unit := do
  let ptr ← findCapFrom fn 0x10
  let raw ← pciRead32 fn (ptr + 8)
  if raw = allOnes then fail ()
  else
    let _ ← pciWrite32 fn (ptr + 8) (raw % 2 ^ 16 ||| 2 ^ 15)
    pure ()

/--
Program the first entry of the interrupt table, which lies in the device's
memory, and switch the table on.
-/
def programMsix (fn : Bdf) : Config Unit := do
  let ptr ← findCapFrom fn 0x11
  let msgCtrl ← pciRead32 fn ptr
  let tableOff ← pciRead32 fn (ptr + 4)
  if msgCtrl = allOnes ∨ tableOff = allOnes then fail ()
  else
    let _ ← pciBarInfo fn 0
    let _ ← pciWrite32 fn ptr (msgCtrl ||| 2 ^ 15)
    pure ()

end KernelLane.Pci
