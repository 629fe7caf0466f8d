import KernelLane.Effects
import KernelLane.WasmNumeric
import KernelLane.Words

namespace KernelLane.Wasm

/-!
# Modules and stacks

The tables of a decoded module and the lowered form of its functions, and the
operations of the interpreter that only work on its stacks: one of operands,
one of frames and one of labels.  A function keeps its locals on the operand
stack below its operands.

Some accesses to the arrays of the runtime are not checked by the code.  The
model records them when they miss: `faults` lists every unchecked access
outside an array and every operand taken from below the base of its frame.
-/

/-! ## Decoded modules -/

structure FuncType where
  params : List ValueType
  results : List ValueType
  deriving DecidableEq, Repr

/-- The instructions that open a block. -/
inductive BlockKind where
  | block
  | loop
  | conditional
  deriving DecidableEq, Repr

/-- The instructions that only work on the stacks of the interpreter. -/
inductive StackOp where
  | nop
  | block (kind : BlockKind) (blockType : Option ValueType) (elsePc : Option Nat) (endPc : Nat)
  | elseOp
  | br (depth : Nat)
  | brIf (depth : Nat)
  /-- The first target within the body's part of the array, and how many. -/
  | brTable (first count : Nat)
  | drop
  | select
  | const (type : ValueType) (immediate : UInt64)
  | localGet (index : Nat)
  | localSet (index : Nat)
  | localTee (index : Nat)
  deriving DecidableEq, Repr

inductive Instruction where
  | stack (op : StackOp)
  | unreachable
  | endOp
  | returnOp
  | unary (op : Unary)
  | binary (op : Binary)
  | globalGet (index : Nat)
  | globalSet (index : Nat)
  | call (function : Nat)
  | callIndirect (type table : Nat)
  | memorySize
  | memoryGrow
  | load (type : ValueType) (width : Nat) (signed : Bool) (align offset : Nat)
  | store (type : ValueType) (width : Nat) (align offset : Nat)
  | memoryCopy
  | memoryFill
  deriving DecidableEq, Repr

structure FunctionBody where
  localTypes : List ValueType
  instructions : List Instruction
  /-- The most operands that the validator saw at once. -/
  maxStack : Nat
  branchBase : Nat
  deriving DecidableEq, Repr

structure Import where
  moduleName : Bytes
  fieldName : Bytes
  typeIndex : Nat
  deriving DecidableEq, Repr

inductive ExportKind where
  | function
  | memory
  deriving DecidableEq, Repr

structure Export where
  name : Bytes
  kind : ExportKind
  index : Nat
  deriving DecidableEq, Repr

/-- The bounds of a table or of a memory; a maximum is at least the minimum. -/
structure Limits where
  minimum : Nat
  maximum : Option Nat
  ordered : ∀ bound, maximum = some bound → minimum ≤ bound
  deriving DecidableEq, Repr

structure GlobalDesc where
  valueType : ValueType
  mutableValue : Bool
  initialValue : UInt64
  deriving DecidableEq, Repr

structure ElementSegment where
  offset : Int
  functions : List Nat
  deriving DecidableEq, Repr

structure DataSegment where
  offset : Nat
  bytes : Bytes
  deriving DecidableEq, Repr

structure ModuleData where
  types : List FuncType
  imports : List Import
  functionTypes : List Nat
  table : Option Limits
  memory : Option Limits
  globals : List GlobalDesc
  elements : List ElementSegment
  exports : List Export
  start : Option Nat
  data : List DataSegment
  branchTargets : List Nat
  bodies : List FunctionBody
  deriving DecidableEq, Repr

namespace ModuleData

def functionCount (data : ModuleData) : Nat := data.imports.length + data.functionTypes.length

def functionType (data : ModuleData) (index : Nat) : Option FuncType :=
  match data.imports[index]? with
  | some imported => data.types[imported.typeIndex]?
  | none =>
    let defined := index - data.imports.length
    if data.functionTypes.length ≤ defined ∨ data.bodies.length ≤ defined then none
    else (data.functionTypes[defined]?).bind fun type => data.types[type]?

def bodyFor (data : ModuleData) (index : Nat) : Option FunctionBody :=
  if index < data.imports.length then none
  else data.bodies[index - data.imports.length]?

def findFunction (data : ModuleData) (name : Bytes) : Option Nat :=
  (data.exports.find? fun entry => entry.kind == .function && entry.name == name).map Export.index

def maxPages (data : ModuleData) : Option Nat := data.memory.bind Limits.maximum

end ModuleData

/-! ## The stacks of the interpreter -/

inductive RunStatus where
  | completed
  | yield
  | exited
  | trapped
  | error
  deriving DecidableEq, Repr

/-- An access that the code does not check, and that missed. -/
inductive Fault where
  | operand
  | localIndex
  | value
  | type
  deriving DecidableEq, Repr

/-- The bounds of an instance; zeros stand for defaults. -/
structure Config where
  maxValues : Nat
  maxFrames : Nat
  maxLabels : Nat
  maxTableEntries : Nat
  maxMemoryBytes : Nat
  deriving DecidableEq, Repr

def Config.withDefaults (config : Config) : Config where
  maxValues := if config.maxValues = 0 then 4096 else config.maxValues
  maxFrames := if config.maxFrames = 0 then 64 else config.maxFrames
  maxLabels := if config.maxLabels = 0 then 4096 else config.maxLabels
  maxTableEntries :=
    if config.maxTableEntries = 0 then 1 <<< 20 else config.maxTableEntries
  maxMemoryBytes :=
    if config.maxMemoryBytes = 0 then 16 * 1024 * 1024
    else config.maxMemoryBytes

structure Frame where
  functionIndex : Nat
  pc : Nat
  localsBase : Nat
  valuesBase : Nat
  labelsBase : Nat
  deriving DecidableEq, Repr

structure Label where
  kind : BlockKind
  startPc : Nat
  endPc : Nat
  valueHeight : Nat
  resultCount : Nat
  deriving DecidableEq, Repr

/-- The three stacks; frames and labels top first. -/
structure Stacks where
  values : Nat → UInt64
  valueCount : Nat
  frames : List Frame
  labels : List Label
  faults : List Fault

/-- A computation on the stacks; it ends early with a status. -/
abbrev OnStacks := Effect Stacks RunStatus

namespace Stacks

def base (stack : Stacks) : Nat :=
  match stack.frames with
  | [] => 0
  | frame :: _ => frame.valuesBase

def expect (stack : Stacks) (fault : Fault) (holds : Prop) [Decidable holds] : Stacks :=
  if holds then stack
  else { stack with faults := stack.faults ++ [fault] }

def setValue (stack : Stacks) (index : Nat) (value : UInt64) : Stacks :=
  { stack with values := Function.update stack.values index value }

def copyValues (stack : Stacks) (target source : Nat) : Nat → Stacks
  | 0 => stack
  | count + 1 =>
    (stack.setValue target (stack.values source)).copyValues (target + 1) (source + 1) count

def valuesAt (stack : Stacks) (start : Nat) : Nat → List UInt64
  | 0 => []
  | count + 1 => stack.values start :: stack.valuesAt (start + 1) count

def putValues (stack : Stacks) (start : Nat) : List UInt64 → Stacks
  | [] => stack
  | value :: rest => (stack.setValue start value).putValues (start + 1) rest

end Stacks

def popValue : OnStacks UInt64 := fun stack =>
  if stack.valueCount = 0 then (.error .error, stack)
  else
    (.ok (stack.values (stack.valueCount - 1)),
      { stack.expect .operand (stack.base < stack.valueCount) with
        valueCount := stack.valueCount - 1 })

def setPc (pc : Nat) : OnStacks Unit :=
  Effect.change fun stack =>
    match stack.frames with
    | [] => stack
    | frame :: callers => { stack with frames := { frame with pc := pc } :: callers }

section Bounded

variable (config : Config)

def pushValue (value : UInt64) : OnStacks Unit := fun stack =>
  if config.maxValues ≤ stack.valueCount then (.error .error, stack)
  else
    (.ok (), { stack.setValue stack.valueCount value with valueCount := stack.valueCount + 1 })

/-- Open the label of a block. -/
def pushLabel (kind : BlockKind) (blockType : Option ValueType)
    (startPc endPc : Nat) : OnStacks Unit := fun stack =>
  if config.maxLabels ≤ stack.labels.length then (.error .error, stack)
  else
    (.ok (), { stack with
        labels :=
          { kind := kind
            startPc := startPc
            endPc := endPc
            valueHeight := stack.valueCount
            resultCount := if blockType.isSome then 1 else 0 } ::
            stack.labels })

def callFrame (functionIndex : Nat) (type : FuncType) (body : FunctionBody)
    (stack : Stacks) : Frame where
  functionIndex := functionIndex
  pc := 0
  localsBase := stack.valueCount - type.params.length
  valuesBase :=
    stack.valueCount - type.params.length + (type.params.length + body.localTypes.length)
  labelsBase := stack.labels.length

/--
The checks and the pushed frame of a call.  The locals are cleared before the
last two checks.
-/
def pushFrame (functionIndex : Nat) (type : FuncType) (body : FunctionBody)
    (stack : Stacks) : Status × Stacks :=
  let frame := callFrame functionIndex type body stack
  if stack.valueCount < type.params.length then (.typeMismatch, stack)
  else if config.maxValues - frame.localsBase < type.params.length + body.localTypes.length then
    (.trapStackOverflow, stack)
  else if config.maxValues - frame.valuesBase < body.maxStack then (.trapStackOverflow, stack)
  else
    let cleared :=
      stack.putValues (frame.localsBase + type.params.length)
        (List.replicate body.localTypes.length 0)
    if config.maxFrames ≤ stack.frames.length then (.trapStackOverflow, cleared)
    else if config.maxLabels < stack.labels.length then (.trapStackOverflow, cleared)
    else
      (.ok, { cleared with frames := frame :: stack.frames, valueCount := frame.valuesBase })

end Bounded

section Functions

variable (data : ModuleData)

def Label.keep (label : Label) : Nat :=
  if label.kind = .loop then 0 else label.resultCount

def Label.continuation (label : Label) : Nat :=
  if label.kind = .loop then label.startPc else label.endPc + 1

/--
Branch to a label of the running function, or to its end.  A loop keeps its
label, every other block loses it.
-/
def branchTo (depth : Nat) : OnStacks Unit := fun stack =>
  match stack.frames with
  | [] => (.error .error, stack)
  | frame :: callers =>
    if depth = stack.labels.length - frame.labelsBase then
      match data.bodyFor frame.functionIndex with
      | none => (.error .error, stack)
      | some body =>
        (.ok (), { stack with
            frames := { frame with pc := body.instructions.length } :: callers
            labels := stack.labels.drop depth })
    else if stack.labels.length - frame.labelsBase < depth then (.error .error, stack)
    else
      match stack.labels[depth]? with
      | none => (.error .error, stack)
      | some target =>
        if stack.valueCount < target.valueHeight + target.keep then (.error .error, stack)
        else
          (.ok (), { (stack.expect .operand (frame.valuesBase ≤ target.valueHeight)).copyValues
                target.valueHeight (stack.valueCount - target.keep)
                target.keep with
              valueCount := target.valueHeight + target.keep
              frames := { frame with pc := target.continuation } :: callers
              labels := stack.labels.drop (if target.kind = .loop then depth else depth + 1) })

/--
Drop the running frame and move its results down to its locals; what comes
back is where they are and how many.  The frame is gone even on an error.
-/
def leaveFrame : OnStacks (Nat × Nat) := fun stack =>
  match stack.frames with
  | [] => (.error .error, stack)
  | frame :: callers =>
    match data.functionType frame.functionIndex with
    | none => (.error .error, { stack with frames := callers })
    | some type =>
      let source := stack.valueCount - type.results.length
      if stack.valueCount < type.results.length then
        (.error .error, { stack with frames := callers })
      else if source < frame.localsBase then (.error .error, { stack with frames := callers })
      else
        (.ok (frame.localsBase, type.results.length),
          { (stack.expect .operand (frame.valuesBase ≤ source)).copyValues
              frame.localsBase source type.results.length with
            valueCount := frame.localsBase + type.results.length
            frames := callers
            labels := stack.labels.drop (stack.labels.length - frame.labelsBase) })

def executeBrTable (branchBase first count : Nat) : OnStacks Unit := do
  let left ← popValue
  if count = 0 ∨ data.branchTargets = [] ∨ data.branchTargets.length < branchBase ∨
      data.branchTargets.length - branchBase < first ∨
      data.branchTargets.length - branchBase - first < count then
    Effect.fail .error
  else
    let selector := Width.w32.low left
    let chosen := if selector < count - 1 then selector else count - 1
    branchTo data (data.branchTargets.getD (branchBase + first + chosen) 0)

/-! ## Locals -/

def executeLocalGet (config : Config) (frame : Frame) (body : FunctionBody)
    (index : Nat) : OnStacks Unit := fun stack =>
  match data.functionType frame.functionIndex with
  | none => (.error .error, stack.expect .type False)
  | some type =>
    if body.localTypes.length + type.params.length ≤ index then (.error .error, stack)
    else pushValue config (stack.values (frame.localsBase + index)) stack

end Functions

def setLocal (frame : Frame) (index : Nat) (value : UInt64) : OnStacks Unit :=
  Effect.change fun stack =>
    (stack.expect .localIndex (frame.localsBase + index < frame.valuesBase)).setValue
      (frame.localsBase + index) value

def executeLocalTee (frame : Frame) (index : Nat) : OnStacks Unit :=
  fun stack =>
    if stack.valueCount = 0 then (.error .error, stack)
    else
      setLocal frame index (stack.values (stack.valueCount - 1))
        (stack.expect .operand (stack.base < stack.valueCount))

def ValueType.keep (type : ValueType) (value : UInt64) : UInt64 :=
  match type with
  | .i32 | .f32 => UInt64.ofNat (Width.w32.low value)
  | .i64 | .f64 => value

/--
One instruction that only works on the stacks.  The counter of the frame is
past the instruction.
-/
def StackOp.execute (data : ModuleData) (config : Config) (frame : Frame)
    (body : FunctionBody) : StackOp → OnStacks Unit
  | nop => pure ()
  | block kind blockType elsePc endPc =>
    if kind = .conditional then do
      let left ← popValue
      pushLabel config kind blockType frame.pc endPc
      if Width.w32.low left = 0 then setPc (elsePc.elim endPc (· + 1))
      else pure ()
    else pushLabel config kind blockType frame.pc endPc
  | elseOp => do
    let stack ← Effect.look
    match stack.labels with
    | [] => Effect.fail .error
    | label :: _ =>
      if stack.labels.length ≤ frame.labelsBase then Effect.fail .error
      else setPc label.endPc
  | br depth => branchTo data depth
  | brIf depth => do
    let stack ← Effect.look
    if stack.valueCount = 0 then pure ()
    else
      let left ← popValue
      if Width.w32.low left = 0 then pure ()
      else branchTo data depth
  | brTable first count => executeBrTable data body.branchBase first count
  | drop => do
    let _ ← popValue
    pure ()
  | select => do
    let left ← popValue
    let falseValue ← popValue
    let trueValue ← popValue
    pushValue config (if Width.w32.low left ≠ 0 then trueValue else falseValue)
  | const type immediate => pushValue config (type.keep immediate)
  | localGet index => executeLocalGet data config frame body index
  | localSet index => do
    let left ← popValue
    setLocal frame index left
  | localTee index => executeLocalTee frame index

end KernelLane.Wasm
