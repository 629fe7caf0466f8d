import KernelLane.WasmGrowth
import KernelLane.WasmStacks

namespace KernelLane.Wasm

open Effect

/-!
# The interpreter

The interpreter loop takes one instruction at a time until the run ends, or
until it finds the flag of a preemption request set, which it clears.  What
is outside the engine, its imports, the allocator and the lowering of bodies,
is a world with a host that acts on it.
-/

/-- The state of an instance. -/
structure Runtime (World : Type) where
  stack : Stacks
  globals : List UInt64
  /-- The entries of the table; an empty entry is `none`. -/
  table : List (Option Nat)
  memory : LinearMemory
  /-- The functions whose bodies have been lowered. -/
  lowered : Nat → Bool
  running : Bool
  preemptPending : Bool
  exitRequested : Bool
  exitCode : Nat
  error : Status
  /-- The buffer of the caller. -/
  results : List UInt64
  /-- Everything outside the engine. -/
  world : World
  /-- How many instructions were taken. -/
  executed : Nat

/-- What an import may do to its instance while it runs. -/
inductive HostAct where
  | write (address : Nat) (bytes : Bytes)
  | ensure (minBytes : Nat)
  | raise (status : Status)
  | preempt
  deriving DecidableEq, Repr

/-- What an import reports, and what it did before. -/
structure ImportReply where
  status : RunStatus
  results : List UInt64
  acts : List HostAct
  exitCode : Option Nat

/-- The imports, the allocator and the lowering of bodies. -/
structure Host (World : Type) where
  /-- An import is bound. -/
  bound : Nat → Bool
  invoke : World → Nat → List UInt64 → LinearMemory → ImportReply × World
  allocate : World → Nat → Bool × World
  /-- The status of the lowering of a body on its first call. -/
  lower : World → Nat → Status × World

/-- An instance's module, bounds and surroundings, which do not change. -/
structure Engine (World : Type) where
  data : ModuleData
  config : Config
  host : Host World
  floats : Floats

/-- A computation of the interpreter; it ends early with a status. -/
abbrev Exec (World : Type) := Effect (Runtime World) RunStatus

variable {World : Type}

def onStacks {Result : Type} (effect : OnStacks Result) : Exec World Result :=
  effect.focus Runtime.stack fun runtime stack => { runtime with stack := stack }

def trap {Result : Type} (status : Status) : Exec World Result := do
  change fun runtime => { runtime with error := status, running := false }
  fail .trapped

def stop {Result : Type} (status : Status) : Exec World Result := do
  change fun runtime => { runtime with error := status, running := false }
  fail .error

section Interpreter

variable (engine : Engine World)

def pushResult : Except Status UInt64 → Exec World Unit
  | .ok value => onStacks (pushValue engine.config value)
  | .error status => trap status

/-! ## Calls -/

/-- Lower a body on the first call of its function. -/
def ensureLowered (functionIndex : Nat) (runtime : Runtime World) : Status × Runtime World :=
  if runtime.lowered functionIndex then (.ok, runtime)
  else if (engine.host.lower runtime.world functionIndex).1 = .ok then
    (.ok, { runtime with
        world := (engine.host.lower runtime.world functionIndex).2
        lowered := Function.update runtime.lowered functionIndex true })
  else
    ((engine.host.lower runtime.world functionIndex).1,
      { runtime with world := (engine.host.lower runtime.world functionIndex).2 })

def enterFrame (functionIndex : Nat) (runtime : Runtime World) : Status × Runtime World :=
  match engine.data.functionType functionIndex, engine.data.bodyFor functionIndex with
  | some type, some body =>
    let lowered := ensureLowered engine functionIndex runtime
    if lowered.1 = .ok then
      let pushed := pushFrame engine.config functionIndex type body lowered.2.stack
      (pushed.1, { lowered.2 with stack := pushed.2 })
    else lowered
  | _, _ => (.typeMismatch, runtime)

def enterNested (functionIndex : Nat) : Exec World Unit := fun runtime =>
  if (enterFrame engine functionIndex runtime).1 = .ok then
    (.ok (), (enterFrame engine functionIndex runtime).2)
  else (.error .error, (enterFrame engine functionIndex runtime).2)

def requestPreempt (runtime : Runtime World) : Runtime World :=
  if runtime.running then { runtime with preemptPending := true }
  else runtime

/-- Apply what an import did to its instance. -/
def HostAct.apply (runtime : Runtime World) : HostAct → Runtime World
  | .write address bytes =>
    { runtime with
      memory := { runtime.memory with bytes := runtime.memory.bytes.splice address bytes } }
  | .ensure minBytes =>
    let grown :=
      runtime.memory.ensureMemoryBytes engine.host.allocate
        engine.data.maxPages minBytes runtime.world
    { runtime with memory := grown.2.1, world := grown.2.2 }
  | .raise status => { runtime with error := status }
  | .preempt => requestPreempt runtime

/-- The call of the host: its results land above the operands. -/
def callHost (functionIndex resultCount : Nat) (arguments : List UInt64)
    (runtime : Runtime World) : RunStatus × Runtime World :=
  let answer := engine.host.invoke runtime.world functionIndex arguments runtime.memory
  let acted := answer.1.acts.foldl (HostAct.apply engine) { runtime with world := answer.2 }
  (answer.1.status, { acted with
      stack :=
        (acted.stack.expect .value (acted.stack.valueCount + resultCount ≤
            engine.config.maxValues)).putValues
          acted.stack.valueCount (answer.1.results.take resultCount)
      exitCode := answer.1.exitCode.getD acted.exitCode })

/-- What the status of an import means to the run. -/
def finishImport (base resultCount : Nat) : RunStatus → Exec World Unit
  | .completed =>
    if engine.config.maxValues - resultCount < base then stop .internal
    else
      change fun runtime =>
        { runtime with stack := { runtime.stack with valueCount := base + resultCount } }
  | .exited => do
    change fun runtime => { runtime with exitRequested := true, running := false }
    fail .exited
  | .trapped => do
    change fun runtime => { runtime with running := false }
    fail .trapped
  | .error => do
    change fun runtime => { runtime with running := false }
    fail .error
  | .yield => fail .yield

/-- Call an import of a known type. -/
def executeTyped (functionIndex : Nat) (type : FuncType) : Exec World Unit := do
  let runtime ← look
  if runtime.stack.valueCount < type.params.length then stop .typeMismatch
  else
    let base := runtime.stack.valueCount - type.params.length
    let arguments := runtime.stack.valuesAt base type.params.length
    onStacks (change fun stack =>
      { stack.expect .operand (stack.base ≤ base) with valueCount := base })
    let called ← look
    let answer := callHost engine functionIndex type.results.length arguments called
    change fun _ => answer.2
    finishImport engine base type.results.length answer.1

def executeImport (functionIndex : Nat) : Exec World Unit :=
  match engine.data.imports[functionIndex]? with
  | none => stop .typeMismatch
  | some imported =>
    if engine.host.bound functionIndex then
      match engine.data.types[imported.typeIndex]? with
      | none => onStacks fun stack => (.error .error, stack.expect .type False)
      | some type => executeTyped engine functionIndex type
    else stop .missingImport

def callFunction (functionIndex : Nat) : Exec World Unit :=
  if functionIndex < engine.data.imports.length then executeImport engine functionIndex
  else enterNested engine functionIndex

def executeCallIndirect (type table : Nat) : Exec World Unit := do
  let left ← onStacks popValue
  let runtime ← look
  if table ≠ 0 then trap .trapIndirectCall
  else
    match (runtime.table[Width.w32.low left]?).join with
    | none => trap .trapIndirectCall
    | some target =>
      match engine.data.types[type]? with
      | none => onStacks fun stack => (.error .error, stack.expect .type False)
      | some expected =>
        if engine.data.functionType target = some expected then callFunction engine target
        else trap .trapIndirectCall

/-! ## Returns -/

/--
Return from a function.  The run goes on in the caller; without one it ends,
and its results go to the buffer.
-/
def finishFunction (capacity : Nat) : Exec World Unit := do
  let left ← onStacks (leaveFrame engine.data)
  let runtime ← look
  if runtime.stack.frames ≠ [] then pure ()
  else if capacity < left.2 then fail .error
  else
    change fun runtime =>
      { runtime with results := runtime.stack.valuesAt left.1 left.2, running := false }
    fail (if runtime.exitRequested then .exited else .completed)

/-! ## Memory instructions -/

def commitMemory : Option LinearMemory → Exec World Unit
  | some memory => change fun runtime => { runtime with memory := memory }
  | none => trap .trapOutOfBounds

def loadedValue (type : ValueType) (width : Nat) (signed : Bool) (bytes : Bytes) : UInt64 :=
  let value := Words.getLE bytes
  type.keep (UInt64.ofNat (if signed ∧ width < 8 ∧ value.testBit (width * 8 - 1) then
      value ||| ((2 ^ 64 - 1) <<< (width * 8)) % 2 ^ 64
    else value))

def executeLoad (type : ValueType) (width : Nat) (signed : Bool)
    (offset : Nat) : Exec World Unit := do
  let left ← onStacks popValue
  let runtime ← look
  match runtime.memory.load (Width.w32.low left) offset width with
  | none => trap .trapOutOfBounds
  | some loaded =>
    change fun runtime => { runtime with memory := loaded.2 }
    onStacks (pushValue engine.config (loadedValue type width signed loaded.1))

def executeStore (width offset : Nat) : Exec World Unit := do
  let right ← onStacks popValue
  let left ← onStacks popValue
  let runtime ← look
  commitMemory (runtime.memory.store (Width.w32.low left) offset width right.toNat)

def executeMemoryCopy : Exec World Unit := do
  let length ← onStacks popValue
  let source ← onStacks popValue
  let destination ← onStacks popValue
  let runtime ← look
  commitMemory (runtime.memory.copy (Width.w32.low destination) (Width.w32.low source)
    (Width.w32.low length))

def executeMemoryFill : Exec World Unit := do
  let length ← onStacks popValue
  let byte ← onStacks popValue
  let destination ← onStacks popValue
  let runtime ← look
  commitMemory (runtime.memory.fill (Width.w32.low destination) (Width.w32.low length)
    (UInt8.ofNat byte.toNat))

def executeMemoryGrow : Exec World Unit := do
  let left ← onStacks popValue
  let runtime ← look
  let oldPages := runtime.memory.size / pageSize % 2 ^ 32
  let grown :=
    runtime.memory.growMemory engine.host.allocate engine.data.maxPages
      (Width.w32.low left) runtime.world
  change fun runtime => { runtime with memory := grown.2.1, world := grown.2.2 }
  onStacks (pushValue engine.config (UInt64.ofNat (if grown.1 then oldPages else 2 ^ 32 - 1)))

/-! ## Globals -/

def executeGlobalGet (index : Nat) : Exec World Unit := do
  let runtime ← look
  match runtime.globals[index]? with
  | none => fail .error
  | some value => onStacks (pushValue engine.config value)

def executeGlobalSet (index : Nat) : Exec World Unit := do
  let runtime ← look
  match engine.data.globals[index]? with
  | none => fail .error
  | some desc =>
    if index < runtime.globals.length ∧ desc.mutableValue then
      let left ← onStacks popValue
      change fun runtime =>
        { runtime with globals := runtime.globals.set index (desc.valueType.keep left) }
    else fail .error

/-! ## The loop -/

/-- One instruction of the running function, whose counter is past it. -/
def execute (capacity : Nat) (frame : Frame) (body : FunctionBody) : Instruction → Exec World Unit
  | .stack op => onStacks (op.execute engine.data engine.config frame body)
  | .unreachable => trap .trapUnreachable
  | .endOp => do
    let runtime ← look
    if frame.labelsBase < runtime.stack.labels.length then
      onStacks (change fun stack => { stack with labels := stack.labels.drop 1 })
    else finishFunction engine capacity
  | .returnOp => finishFunction engine capacity
  | .unary op => do
    let left ← onStacks popValue
    pushResult engine (op.eval engine.floats left)
  | .binary op => do
    let right ← onStacks popValue
    let left ← onStacks popValue
    pushResult engine (op.eval engine.floats left right)
  | .globalGet index => executeGlobalGet engine index
  | .globalSet index => executeGlobalSet engine index
  | .call functionIndex => callFunction engine functionIndex
  | .callIndirect type table => executeCallIndirect engine type table
  | .memorySize => do
    let runtime ← look
    onStacks (pushValue engine.config (UInt64.ofNat (runtime.memory.size / pageSize)))
  | .memoryGrow => executeMemoryGrow engine
  | .load type width signed _ offset => executeLoad engine type width signed offset
  | .store _ width _ offset => executeStore width offset
  | .memoryCopy => executeMemoryCopy
  | .memoryFill => executeMemoryFill

def instructionAt (frame : Frame) : Option (FunctionBody × Instruction) :=
  (engine.data.bodyFor frame.functionIndex).bind fun body =>
    (body.instructions[frame.pc]?).map fun instruction => (body, instruction)

def advance (frame : Frame) (callers : List Frame) (runtime : Runtime World) : Runtime World :=
  { runtime with
    stack := { runtime.stack with frames := { frame with pc := frame.pc + 1 } :: callers }
    executed := runtime.executed + 1 }

/-- One round of the loop. -/
def iterate (capacity : Nat) : Exec World Unit := do
  let runtime ← look
  if runtime.preemptPending then
    change fun runtime => { runtime with preemptPending := false }
    fail .yield
  else
    match runtime.stack.frames with
    | [] => finishFunction engine capacity
    | frame :: callers =>
      match instructionAt engine frame with
      | none => finishFunction engine capacity
      | some (body, instruction) =>
        change (advance frame callers)
        execute engine capacity { frame with pc := frame.pc + 1 } body instruction

section Rounds

variable {engine} {capacity : Nat} {runtime : Runtime World}

theorem iterate_preempted (pending : runtime.preemptPending = true) :
    iterate engine capacity runtime =
      (.error .yield, { runtime with preemptPending := false }) := by
  unfold iterate
  rw [look_bind, if_pos pending]
  rfl

theorem iterate_execute (quiet : runtime.preemptPending = false) {frame : Frame}
    {callers : List Frame} (frames : runtime.stack.frames = frame :: callers) {body : FunctionBody}
    {instruction : Instruction} (fetched : instructionAt engine frame = some (body, instruction)) :
    iterate engine capacity runtime = execute engine capacity { frame with pc := frame.pc + 1 } body
      instruction (advance frame callers runtime) := by
  unfold iterate
  rw [look_bind, if_neg (by simp [quiet]), frames]
  dsimp only
  rw [fetched]
  rfl

theorem iterate_cases (engine : Engine World) (capacity : Nat) (runtime : Runtime World) :
    iterate engine capacity runtime = (.error .yield, { runtime with preemptPending := false }) ∨
      iterate engine capacity runtime = finishFunction engine capacity runtime ∨
        ∃ frame callers body instruction, iterate engine capacity runtime =
          execute engine capacity { frame with pc := frame.pc + 1 } body
            instruction (advance frame callers runtime) := by
  cases pending : runtime.preemptPending with
  | true => exact .inl (iterate_preempted pending)
  | false =>
    refine .inr ?_
    cases frames : runtime.stack.frames with
    | nil =>
      left
      rw [iterate, look_bind, if_neg (by simp [pending]), frames]
    | cons frame callers =>
      cases fetched : instructionAt engine frame with
      | none =>
        left
        rw [iterate, look_bind, if_neg (by simp [pending]), frames]
        simp only [fetched]
      | some found =>
        exact .inr ⟨frame, callers, found.1, found.2, iterate_execute pending frames fetched⟩

end Rounds

def step (capacity : Nat) : Nat → Runtime World → Option (RunStatus × Runtime World)
  | 0, _ => none
  | fuel + 1, runtime =>
    if runtime.running then
      match iterate engine capacity runtime with
      | (.ok (), next) => step capacity fuel next
      | (.error status, next) => some (status, next)
    else some (.completed, runtime)

def started (arguments : List UInt64) (runtime : Runtime World) : Runtime World :=
  { runtime with
    stack :=
      { (runtime.stack.expect .value (arguments.length ≤ engine.config.maxValues)).putValues 0
          arguments with
        valueCount := arguments.length
        frames := []
        labels := [] }
    error := .ok
    running := true
    exitRequested := false }

/-- The part of `invoke` before the loop; a status ends the call there. -/
def prepare (name : Bytes) (arguments : List UInt64) (capacity : Nat)
    (runtime : Runtime World) : Option RunStatus × Runtime World :=
  match engine.data.findFunction name with
  | none => (some .error, runtime)
  | some functionIndex =>
    match engine.data.functionType functionIndex with
    | none => (some .error, runtime)
    | some type =>
      if arguments.length = type.params.length ∧ type.results.length ≤ capacity then
        let entered := enterFrame engine functionIndex (started engine arguments runtime)
        if entered.1 = .ok then (none, entered.2)
        else
          (some (if entered.1 = .trapStackOverflow then .trapped
            else .error),
            { entered.2 with error := entered.1, running := false })
      else (some .error, runtime)

def invoke (name : Bytes) (arguments : List UInt64) (capacity fuel : Nat)
    (runtime : Runtime World) : Option (RunStatus × Runtime World) :=
  match prepare engine name arguments capacity runtime with
  | (some status, ended) => some (status, ended)
  | (none, entered) => step engine capacity fuel entered

def resume (capacity fuel : Nat) (runtime : Runtime World) : Option (RunStatus × Runtime World) :=
  if runtime.running then step engine capacity fuel runtime
  else some (.error, { runtime with error := .internal })

end Interpreter

/-! ## Instantiation -/

def initTable (functionCount : Nat) :
    List (Option Nat) → Nat → List Nat → Except Status (List (Option Nat))
  | table, _, [] => .ok table
  | table, offset, target :: rest =>
    if functionCount ≤ target then .error .typeMismatch
    else initTable functionCount (table.set offset (some target)) (offset + 1) rest

/-- The table after all segments. -/
def initElements (functionCount : Nat) : List (Option Nat) → List ElementSegment →
    Except Status (List (Option Nat))
  | table, [] => .ok table
  | table, segment :: rest =>
    if segment.offset < 0 ∨ table.length < segment.functions.length ∨
        table.length - segment.functions.length < segment.offset.toNat then
      .error .malformed
    else do
      let filled ← initTable functionCount table segment.offset.toNat segment.functions
      initElements functionCount filled rest

def initData : LinearMemory → List DataSegment → Bool × LinearMemory
  | memory, [] => (true, memory)
  | memory, segment :: rest =>
    match memory.initSegment segment.offset segment.bytes with
    | none => (false, memory)
    | some later => initData later rest

/-- The memory of a new instance before its segments. -/
def freshMemory (engine : Engine World) (world : World) : Except Status (LinearMemory × World) :=
  match engine.data.memory with
  | none => .ok (.absent engine.config.maxMemoryBytes, world)
  | some limits =>
    let minimum := limits.minimum * pageSize
    if engine.config.maxMemoryBytes < minimum then .error .outOfMemory
    else
      let fresh := LinearMemory.fresh minimum engine.config.maxMemoryBytes
      match engine.host.allocate world fresh.capacity with
      | (false, _) => .error .outOfMemory
      | (true, later) => .ok (fresh, later)

def freshTable (engine : Engine World) : Except Status (List (Option Nat)) :=
  match engine.data.table with
  | none => .ok []
  | some limits =>
    if engine.config.maxTableEntries < limits.minimum then .error .outOfMemory
    else
      initElements engine.data.functionCount
        (List.replicate limits.minimum none) engine.data.elements

/-- An instance with nothing on its stacks. -/
def freshRuntime (engine : Engine World) (table : List (Option Nat))
    (memory : LinearMemory) (world : World) : Runtime World where
  stack :=
    { values := fun _ => 0
      valueCount := 0
      frames := []
      labels := []
      faults := [] }
  globals := engine.data.globals.map fun global => global.valueType.keep global.initialValue
  table := table
  memory := memory
  lowered := fun _ => false
  running := false
  preemptPending := false
  exitRequested := false
  exitCode := 0
  error := .ok
  results := []
  world := world
  executed := 0

def filledMemory (engine : Engine World) (memory : LinearMemory) : Bool × LinearMemory :=
  if engine.data.memory.isSome then initData memory engine.data.data
  else (true, memory)

def instantiate (engine : Engine World) (world : World) : Except Status (Runtime World) := do
  let table ← freshTable engine
  let made ← freshMemory engine world
  if (filledMemory engine made.1).1 then
    .ok (freshRuntime engine table (filledMemory engine made.1).2 made.2)
  else .error .malformed

end KernelLane.Wasm
