import KernelLane.WasmMemory

namespace KernelLane.Wasi

open Wasm Words

/-!
# The WASI imports

The bridge serves the preview1 imports of a guest.  Each import takes its
arguments from the operand stack, reads and writes the linear memory of the
guest through addresses among them, and calls a hook of the host for the rest.
A hook that the host does not offer is missing from the context.

What is here are the imports as the bridge implements them, over the memory
that records its accesses.
-/

def errBadf : UInt32 := 8
def errInval : UInt32 := 28
def errNosys : UInt32 := 52
def routedPathMax : Nat := 192
def preopenFd : UInt32 := 3
def uint32Max : Nat := 2 ^ 32 - 1

/-- What a routed read leaves: an error, a count, and bytes in the buffer. -/
structure ReadReply where
  error : UInt32
  done : UInt32
  bytes : Bytes

/-- The hooks of the host and the arguments of the program. -/
structure OwnedWasiContext (Host : Type) where
  write : Option (Int32 → Bytes → Host → UInt32 × Host)
  exit : Option (Int32 → Host → Host)
  yield : Option (Host → Host)
  nowNs : Option (Host → UInt64 × Host)
  random : Option (Host → UInt32 × Host)
  pathOpen : Option (Int32 → Bytes → Int32 → Host → (UInt32 × UInt32) × Host)
  mkdir : Option (Int32 → Bytes → Host → UInt32 × Host)
  readFd : Option (Int32 → Nat → Host → ReadReply × Host)
  closeFd : Option (Int32 → Host → UInt32 × Host)
  /-- The table of arguments; an entry may be null. -/
  args : Option (Nat → Option Bytes)
  argCount : UInt32

/-- How an import ends. -/
inductive ImportStatus where
  | completed (results : List UInt64)
  | exited (code : UInt32)
  | trapped
  | error
  deriving DecidableEq, Repr

def ImportStatus.errno (error : UInt32) : ImportStatus := .completed [error.toUInt64]

/-- The memory of the guest and the state of the host. -/
structure Guest (Host : Type) where
  memory : LinearMemory
  host : Host

/-- The arguments of an import, as the interpreter hands them over. -/
abbrev Values := Nat → UInt64

def Values.word (args : Values) (index : Nat) : Nat := (args index).toUInt32.toNat

def Values.signed (args : Values) (index : Nat) : Int32 := (args index).toUInt32.toInt32

def memoryRange (memory : LinearMemory) (address size : Nat) : Prop :=
  memory.present = true ∧ memory.checkMemory address size

instance (memory : LinearMemory) (address size : Nat) :
    Decidable (memoryRange memory address size) :=
  inferInstanceAs (Decidable (_ ∧ _))

def wordAt (memory : LinearMemory) (address : Nat) : Nat := getLE (memory.bytes.readBytes address 4)

section Imports

variable {Host : Type} (context : OwnedWasiContext Host)

def Guest.touch (guest : Guest Host) (start length : Nat) : Guest Host :=
  { guest with memory := guest.memory.touch start length }

def Guest.put (guest : Guest Host) (address : Nat) (bytes : Bytes) : Guest Host :=
  { guest with memory := guest.memory.put address bytes }

/-- An import: its arguments, how many results it has, the guest. -/
abbrev Import (Host : Type) := Values → Nat → Guest Host → ImportStatus × Guest Host

def genericStub : Import Host := fun _ resultCount guest =>
  match resultCount with
  | 0 => (.completed [], guest)
  | others + 1 => (.completed (errNosys.toUInt64 :: List.replicate others 0), guest)

def OwnedWasiContext.text (index : Nat) : Option Bytes := context.args.bind fun table => table index

/--
Count the arguments and their bytes; the loop stops at the first null.  The
largest word stands for too much to count, and leaves the size at zero.
-/
def argsSizeFrom : Nat → Nat → Nat → Nat × Nat
  | 0, count, size => (count, size)
  | remaining + 1, count, size =>
    match context.text count with
    | none => (count, size)
    | some text =>
      if uint32Max < text.length then (uint32Max, 0)
      else if (2 ^ 64 + uint32Max - text.length - 1) % 2 ^ 64 < size then (uint32Max, 0)
      else argsSizeFrom remaining (count + 1) (size + (text.length + 1))

def argsSize : Nat × Nat := argsSizeFrom context context.argCount.toNat 0 0

def argsInRange (memory : LinearMemory) (args : Values) : Prop :=
  (argsSize context).1 ≠ uint32Max ∧ memoryRange memory (args.word 0) ((argsSize context).1 * 4) ∧
    memoryRange memory (args.word 1) (argsSize context).2

instance (memory : LinearMemory) (args : Values) : Decidable (argsInRange context memory args) :=
  inferInstanceAs (Decidable (_ ∧ _))

def argsSizesGet : Import Host := fun args resultCount guest =>
  if resultCount ≠ 1 then (.error, guest)
  else if ¬argsInRange context guest.memory args then (.trapped, guest)
  else
    (.errno 0, (guest.put (args.word 0) (putLE 4 (argsSize context).1)).put
      (args.word 1) (putLE 4 (argsSize context).2))

/-- Store pointers and bytes of the arguments, one after the other. -/
def storeArgs (pointers buffer : Nat) : Nat → Nat → Nat → Guest Host → Guest Host
  | 0, _, _, guest => guest
  | remaining + 1, index, offset, guest =>
    -- A counted argument is never null.
    let text := (context.text index).getD []
    storeArgs pointers buffer remaining (index + 1) (offset + (text.length + 1))
      ((guest.put (pointers + index * 4) (putLE 4 (buffer + offset))).put
        (buffer + offset) (text ++ [0]))

def argsGet : Import Host := fun args resultCount guest =>
  if resultCount ≠ 1 then (.error, guest)
  else if ¬argsInRange context guest.memory args then (.trapped, guest)
  else (.errno 0, storeArgs context (args.word 0) (args.word 1) (argsSize context).1 0 0 guest)

def vectorsInRange (memory : LinearMemory) (args : Values) : Prop :=
  memoryRange memory (args.word 1) (args.word 2 * 8) ∧ memoryRange memory (args.word 3) 4

instance (memory : LinearMemory) (args : Values) : Decidable (vectorsInRange memory args) :=
  inferInstanceAs (Decidable (_ ∧ _))

def Guest.readVector (guest : Guest Host) (vector : Nat) : Guest Host :=
  (guest.touch vector 4).touch (vector + 4) 4

/-- Hand the buffers to the host, one after the other. -/
def writeVectors (write : Int32 → Bytes → Host → UInt32 × Host) (fd : Int32) (written : Nat) :
    Nat → Nat → Nat → Guest Host → ImportStatus × Guest Host
  | 0, _, total, guest => (.errno 0, guest.put written (putLE 4 total))
  | remaining + 1, vector, total, guest =>
    let address := wordAt guest.memory vector
    let length := wordAt guest.memory (vector + 4)
    let read := guest.readVector vector
    if ¬memoryRange guest.memory address length then (.trapped, read)
    else
      let answer := write fd (guest.memory.bytes.readBytes address length) guest.host
      let next := { read.touch address length with host := answer.2 }
      if answer.1 ≠ 0 then (.errno answer.1, next)
      else if uint32Max - length < total then (.trapped, next)
      else writeVectors write fd written remaining (vector + 8) (total + length) next

def fdWrite : Import Host := fun args resultCount guest =>
  if resultCount ≠ 1 then (.error, guest)
  else
    match context.write with
    | none => (.error, guest)
    | some write =>
      if ¬vectorsInRange guest.memory args then (.trapped, guest)
      else writeVectors write (args.signed 0) (args.word 3) (args.word 2) (args.word 1) 0 guest

/-- Only the first buffer of the table is filled. -/
def fdRead : Import Host := fun args resultCount guest =>
  if resultCount ≠ 1 then (.error, guest)
  else if args.signed 0 < 3 then (.errno errBadf, guest)
  else if ¬vectorsInRange guest.memory args then (.trapped, guest)
  else
    match context.readFd with
    | none => (.errno errNosys, guest)
    | some readFd =>
      let address := wordAt guest.memory (args.word 1)
      let length := wordAt guest.memory (args.word 1 + 4)
      let read := guest.readVector (args.word 1)
      if ¬memoryRange guest.memory address length then (.trapped, read)
      else
        let answer := readFd (args.signed 0) length guest.host
        -- The hook gets the buffer and puts bytes only there.
        let next :=
          { (read.touch address length).put address (answer.1.bytes.take length) with
            host := answer.2 }
        if answer.1.error ≠ 0 then (.errno answer.1.error, next)
        else (.errno 0, next.put (args.word 3) (putLE 4 answer.1.done.toNat))

/-- Fetch a path that ends in a zero byte right behind its length. -/
def fetchRoutedPath (address : Nat) (length : UInt32)
    (guest : Guest Host) : Option Bytes × Guest Host :=
  if length.toInt32 < 0 ∨ routedPathMax ≤ length.toNat then (none, guest)
  else if ¬memoryRange guest.memory address (length.toNat + 1) then (none, guest)
  else if guest.memory.bytes (address + length.toNat) ≠ 0 then
    (none, guest.touch (address + length.toNat) 1)
  else
    (some (guest.memory.bytes.readBytes address length.toNat),
      (guest.touch (address + length.toNat) 1).touch address length.toNat)

def pathOpen : Import Host := fun args resultCount guest =>
  if resultCount ≠ 1 then (.error, guest)
  else if ¬memoryRange guest.memory (args.word 8) 4 then (.trapped, guest)
  else
    match fetchRoutedPath (args.word 2) (args 3).toUInt32 guest with
    | (none, guest) => (.errno errInval, guest)
    | (some path, guest) =>
      match context.pathOpen with
      | none => (.errno errNosys, guest)
      | some pathOpen =>
        let answer := pathOpen (args.signed 0) path (args.signed 4) guest.host
        let next := { guest with host := answer.2 }
        if answer.1.1 ≠ 0 then (.errno answer.1.1, next)
        else (.errno 0, next.put (args.word 8) (putLE 4 answer.1.2.toNat))

def pathCreateDirectory : Import Host := fun args resultCount guest =>
  if resultCount ≠ 1 then (.error, guest)
  else
    match fetchRoutedPath (args.word 1) (args 2).toUInt32 guest with
    | (none, guest) => (.errno errInval, guest)
    | (some path, guest) =>
      match context.mkdir with
      | none => (.errno errNosys, guest)
      | some mkdir =>
        let answer := mkdir (args.signed 0) path guest.host
        (.errno answer.1, { guest with host := answer.2 })

def procExit : Import Host := fun args resultCount guest =>
  if resultCount ≠ 0 then (.error, guest)
  else
    match context.exit with
    | none => (.error, guest)
    | some exit =>
      (.exited (args 0).toUInt32, { guest with host := exit (args.signed 0) guest.host })

def schedYield : Import Host := fun _ resultCount guest =>
  if 1 < resultCount then (.error, guest)
  else
    match context.yield with
    | none => (.error, guest)
    | some yield =>
      (.completed (List.replicate resultCount 0), { guest with host := yield guest.host })

def clockTimeGet : Import Host := fun args resultCount guest =>
  if resultCount ≠ 1 then (.error, guest)
  else
    match context.nowNs with
    | none => (.error, guest)
    | some nowNs =>
      if 3 < args.word 0 then (.errno errInval, guest)
      else if ¬memoryRange guest.memory (args.word 2) 8 then (.trapped, guest)
      else
        let answer := nowNs guest.host
        (.errno 0, { guest with host := answer.2 }.put (args.word 2) (putLE 8 answer.1.toNat))

def storeRandom (random : Host → UInt32 × Host) (address : Nat) :
    Nat → Nat → Guest Host → Guest Host
  | 0, _, guest => guest
  | remaining + 1, index, guest =>
    let answer := random guest.host
    let byte := (answer.1 >>> UInt32.ofNat (index % 4 * 8)).toUInt8
    storeRandom random address remaining (index + 1)
      ({ guest with host := answer.2 }.put (address + index) [byte])

def randomGet : Import Host := fun args resultCount guest =>
  if resultCount ≠ 1 then (.error, guest)
  else
    match context.random with
    | none => (.error, guest)
    | some random =>
      if ¬memoryRange guest.memory (args.word 0) (args.word 1) then (.trapped, guest)
      else (.errno 0, storeRandom random (args.word 0) (args.word 1) 0 guest)

def environSizesGet : Import Host := fun args resultCount guest =>
  if resultCount ≠ 1 then (.error, guest)
  else if ¬memoryRange guest.memory (args.word 0) 4 ∨ ¬memoryRange guest.memory (args.word 1) 4 then
    (.trapped, guest)
  else (.errno 0, (guest.put (args.word 0) (putLE 4 0)).put (args.word 1) (putLE 4 0))

def succeed : Import Host := fun _ resultCount guest =>
  if resultCount ≠ 1 then (.error, guest) else (.errno 0, guest)

def environGet : Import Host := succeed

def fdFdstatSetFlags : Import Host := succeed

def pollOneoff : Import Host := fun args resultCount guest =>
  if resultCount ≠ 1 then (.error, guest)
  else if ¬memoryRange guest.memory (args.word 3) 4 then (.trapped, guest)
  else (.errno 0, guest.put (args.word 3) (putLE 4 0))

def fdClose : Import Host := fun args resultCount guest =>
  if resultCount ≠ 1 then (.error, guest)
  else
    match context.closeFd with
    | none => (.errno 0, guest)
    | some closeFd =>
      if args.signed 0 < 3 then (.errno 0, guest)
      else
        let answer := closeFd (args.signed 0) guest.host
        (.errno answer.1, { guest with host := answer.2 })

def fdFdstatGet : Import Host := fun args resultCount guest =>
  if resultCount ≠ 1 then (.error, guest)
  else if ¬memoryRange guest.memory (args.word 1) 24 then (.trapped, guest)
  else
    let fd := (args 0).toUInt32
    let zeroed := guest.put (args.word 1) (List.replicate 24 0)
    let typed :=
      if fd = 1 ∨ fd = 2 then zeroed.put (args.word 1) [2]
      else if fd = preopenFd then zeroed.put (args.word 1) [3]
      else zeroed
    (.errno 0, (typed.put (args.word 1 + 8) (putLE 8 uint64Max)).put
      (args.word 1 + 16) (putLE 8 uint64Max))

def fdPrestatGet : Import Host := fun args resultCount guest =>
  if resultCount ≠ 1 then (.error, guest)
  else if (args 0).toUInt32 ≠ preopenFd then (.errno errBadf, guest)
  else if ¬memoryRange guest.memory (args.word 1) 8 then (.trapped, guest)
  else
    (.errno 0, ((guest.put (args.word 1) (List.replicate 8 0)).put
      (args.word 1) [0]).put (args.word 1 + 4) [1])

def fdPrestatDirName : Import Host := fun args resultCount guest =>
  if resultCount ≠ 1 then (.error, guest)
  else if (args 0).toUInt32 ≠ preopenFd then (.errno errBadf, guest)
  else if args.signed 2 < 1 then (.errno errInval, guest)
  else if ¬memoryRange guest.memory (args.word 1) 1 then (.trapped, guest)
  else (.errno 0, guest.put (args.word 1) (ascii "/"))

end Imports

/-- The imports of the preview1 namespace. -/
inductive WasiImport where
  | schedYield
  | procExit
  | argsGet
  | argsSizesGet
  | clockTimeGet
  | environGet
  | environSizesGet
  | fdWrite
  | randomGet
  | pollOneoff
  | fdClose
  | fdFdstatGet
  | fdFdstatSetFlags
  | fdPrestatGet
  | fdPrestatDirName
  | fdRead
  | pathOpen
  | pathCreateDirectory
  /-- Any other name of the namespace. -/
  | other
  deriving DecidableEq, Repr

/-- The function that the bridge binds to an import. -/
def WasiImport.invoke {Host : Type} (context : OwnedWasiContext Host) : WasiImport → Import Host
  | .schedYield => Wasi.schedYield context
  | .procExit => Wasi.procExit context
  | .argsGet => Wasi.argsGet context
  | .argsSizesGet => Wasi.argsSizesGet context
  | .clockTimeGet => Wasi.clockTimeGet context
  | .environGet => Wasi.environGet
  | .environSizesGet => Wasi.environSizesGet
  | .fdWrite => Wasi.fdWrite context
  | .randomGet => Wasi.randomGet context
  | .pollOneoff => Wasi.pollOneoff
  | .fdClose => Wasi.fdClose context
  | .fdFdstatGet => Wasi.fdFdstatGet
  | .fdFdstatSetFlags => Wasi.fdFdstatSetFlags
  | .fdPrestatGet => Wasi.fdPrestatGet
  | .fdPrestatDirName => Wasi.fdPrestatDirName
  | .fdRead => Wasi.fdRead context
  | .pathOpen => Wasi.pathOpen context
  | .pathCreateDirectory => Wasi.pathCreateDirectory context
  | .other => genericStub

end KernelLane.Wasi
