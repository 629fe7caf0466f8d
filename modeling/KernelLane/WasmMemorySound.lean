import KernelLane.Runs
import KernelLane.WasmRuntime

namespace KernelLane.Wasm

/-!
# Soundness of the linear memory

In every state that an instance reaches, its memory is a whole number of
pages inside its buffer and inside the declared bound, and every access was
inside the size of its time.  Growth keeps the old bytes and clears the new
ones.  An access outside the size traps and leaves the memory as it was.
-/

open Effect Option LinearMemory

variable {World : Type}

/-! ## What leaves the memory alone -/

section Untouched

variable (engine : Engine World) {holds : LinearMemory → Prop}

variable {Result : Type}

theorem preserves_of_memory {effect : Exec World Result}
    (unchanged : ∀ runtime, (effect runtime).2.memory = runtime.memory) :
    Preserves (fun runtime => holds runtime.memory) effect := by
  intro runtime start
  rw [unchanged runtime]
  exact start

theorem preserves_onStacks (effect : OnStacks Result) :
    Preserves (fun runtime : Runtime World => holds runtime.memory) (onStacks effect) := by
  intro runtime start
  exact start

theorem preserves_trap (status : Status) :
    Preserves (fun runtime => holds runtime.memory) (trap status : Exec World Result) :=
  preserves_of_memory fun _ => rfl

theorem preserves_pushResult (result : Except Status UInt64) :
    Preserves (fun runtime => holds runtime.memory) (pushResult engine result) := by
  cases result with
  | ok value => exact preserves_onStacks _
  | error status => exact preserves_trap status

@[simp] theorem memory_ensureLowered (functionIndex : Nat) (runtime : Runtime World) :
    (ensureLowered engine functionIndex runtime).2.memory = runtime.memory := by
  unfold ensureLowered
  split
  · rfl
  · split <;> rfl

@[simp] theorem memory_enterFrame (functionIndex : Nat) (runtime : Runtime World) :
    (enterFrame engine functionIndex runtime).2.memory = runtime.memory := by
  unfold enterFrame
  split
  · dsimp only
    split <;> exact memory_ensureLowered engine functionIndex runtime
  · rfl

theorem preserves_enterNested (functionIndex : Nat) :
    Preserves (fun runtime => holds runtime.memory) (enterNested engine functionIndex) := by
  refine preserves_of_memory fun runtime => ?_
  unfold enterNested
  split <;> exact memory_enterFrame engine functionIndex runtime

theorem preserves_finishFunction (capacity : Nat) : Preserves (fun runtime => holds runtime.memory)
    (finishFunction engine capacity) := by
  refine (preserves_onStacks _).bind fun left => .look_bind ?_
  intro seen start
  split
  · exact start
  split
  · exact start
  · exact start

theorem preserves_executeGlobalGet (index : Nat) : Preserves (fun runtime => holds runtime.memory)
    (executeGlobalGet engine index) := by
  refine .look_bind fun seen start => ?_
  cases seen.globals[index]? with
  | none | some => exact start

theorem preserves_executeGlobalSet (index : Nat) : Preserves (fun runtime => holds runtime.memory)
    (executeGlobalSet engine index) := by
  refine .look_bind fun seen start => ?_
  cases engine.data.globals[index]? with
  | none => exact start
  | some desc =>
    dsimp only
    split
    · exact (preserves_onStacks popValue).bind
        (fun left => preserves_of_memory fun _ => rfl) seen start
    · exact start

end Untouched

/-! ## What uses the memory -/

/-- A memory is sound and all of its accesses were inside. -/
structure MemoryHolds (data : ModuleData) (memory : LinearMemory) : Prop where
  sound : memory.Sound data.maxPages
  confined : memory.Confined

namespace MemoryHolds

variable {data : ModuleData} {memory : LinearMemory}

variable {length offset : Nat} {after : LinearMemory}

section

variable (holds : MemoryHolds data memory)
include holds

theorem touch {start : Nat} (inside : memory.checkMemory start length) :
    MemoryHolds data (memory.touch start length) := by
  have bounded : start + length ≤ memory.size := by
    have both := inside
    unfold checkMemory at both
    omega
  refine ⟨⟨holds.sound.pages, holds.sound.fits, holds.sound.declared⟩, ?_⟩
  exact (memory.confined_touch start length).mpr ⟨holds.confined, .inr bounded⟩

theorem put {start : Nat} {bytes : Bytes} (inside : memory.checkMemory start bytes.length) :
    MemoryHolds data (memory.put start bytes) :=
  let used := holds.touch inside
  ⟨⟨used.sound.pages, used.sound.fits, used.sound.declared⟩, used.confined⟩

theorem load {address width : Nat}
    {loaded : Bytes × LinearMemory} (read : memory.load address offset width = some loaded) :
    MemoryHolds data loaded.2 := by
  obtain ⟨reaches, ⟨⟩⟩ := ite_none_right_eq_some.mp read
  exact holds.touch reaches.2.2

theorem store {address width value : Nat}
    (written : memory.store address offset width value = some after) : MemoryHolds data after := by
  obtain ⟨reaches, ⟨⟩⟩ := ite_none_right_eq_some.mp written
  refine holds.put ?_
  rw [Words.length_putLE]
  exact reaches.2.2

theorem copy {destination source : Nat}
    (copied : memory.copy destination source length = some after) : MemoryHolds data after := by
  obtain ⟨inside, ⟨⟩⟩ := ite_none_right_eq_some.mp copied
  refine (holds.touch inside.2.2.2).put ?_
  rw [Image.length_readBytes]
  exact inside.2.2.1

theorem fill {destination : Nat} {byte : UInt8}
    (filled : memory.fill destination length byte = some after) : MemoryHolds data after := by
  obtain ⟨inside, ⟨⟩⟩ := ite_none_right_eq_some.mp filled
  refine holds.put ?_
  rw [List.length_replicate]
  exact inside.2

theorem initSegment {bytes : Bytes} (initialised : memory.initSegment offset bytes = some after) :
    MemoryHolds data after := by
  obtain ⟨inside, ⟨⟩⟩ := ite_none_right_eq_some.mp initialised
  exact holds.put inside

theorem initData (segments : List DataSegment) : MemoryHolds data (initData memory segments).2 := by
  induction segments generalizing memory with
  | nil => exact holds
  | cons segment rest hypothesis =>
    unfold Wasm.initData
    cases outcome : memory.initSegment segment.offset segment.bytes with
    | none => exact holds
    | some later => exact hypothesis (holds.initSegment outcome)

end

end MemoryHolds

/-! ## Every step keeps the memory sound -/

section Steps

variable (engine : Engine World)

/-- The memory of an instance is sound. -/
def Kept (runtime : Runtime World) : Prop := MemoryHolds engine.data runtime.memory

variable {runtime : Runtime World}

theorem preserves_commitMemory {after : Option LinearMemory} (holds : Kept engine runtime)
    (next : ∀ memory, after = some memory → MemoryHolds engine.data memory) :
    Kept engine (commitMemory after runtime).2 := by
  cases after with
  | none => exact holds
  | some memory => exact next memory rfl

theorem preserves_executeLoad (type : ValueType) (width : Nat) (signed : Bool) (offset : Nat) :
    Preserves (Kept engine) (executeLoad engine type width signed offset) := by
  refine (preserves_onStacks _).bind fun left => .look_bind ?_
  intro seen start
  cases read : seen.memory.load (Width.w32.low left) offset width with
  | none => exact start
  | some loaded => exact start.load read

theorem preserves_executeStore (width offset : Nat) :
    Preserves (Kept engine) (executeStore width offset) := by
  refine (preserves_onStacks _).bind fun right => ?_
  refine (preserves_onStacks _).bind fun left => .look_bind ?_
  intro seen start
  exact preserves_commitMemory engine start fun _ written => start.store written

theorem preserves_executeMemoryCopy : Preserves (Kept engine) executeMemoryCopy := by
  refine (preserves_onStacks _).bind fun length => ?_
  refine (preserves_onStacks _).bind fun source => ?_
  refine (preserves_onStacks _).bind fun destination => .look_bind ?_
  intro seen start
  exact preserves_commitMemory engine start fun _ copied => start.copy copied

theorem preserves_executeMemoryFill : Preserves (Kept engine) executeMemoryFill := by
  refine (preserves_onStacks _).bind fun length => ?_
  refine (preserves_onStacks _).bind fun byte => ?_
  refine (preserves_onStacks _).bind fun destination => .look_bind ?_
  intro seen start
  exact preserves_commitMemory engine start fun _ filled => start.fill filled

theorem MemoryHolds.growMemory {memory : LinearMemory} (holds : MemoryHolds engine.data memory)
    (pages : Nat) (world : World) :
    MemoryHolds engine.data (memory.growMemory engine.host.allocate engine.data.maxPages pages
      world).2.1 := by
  refine ⟨holds.sound.growMemory pages world, ?_⟩
  unfold LinearMemory.Confined
  rw [accesses_growMemory]
  exact holds.confined

theorem MemoryHolds.ensureMemoryBytes {memory : LinearMemory}
    (holds : MemoryHolds engine.data memory) (minBytes : Nat) (world : World) :
    MemoryHolds engine.data (memory.ensureMemoryBytes engine.host.allocate engine.data.maxPages
      minBytes world).2.1 := by
  refine ⟨holds.sound.ensureMemoryBytes minBytes world, ?_⟩
  unfold LinearMemory.Confined
  rw [accesses_ensureMemoryBytes]
  exact holds.confined

theorem preserves_executeMemoryGrow : Preserves (Kept engine) (executeMemoryGrow engine) := by
  refine (preserves_onStacks _).bind fun left => .look_bind ?_
  intro seen start
  exact start.growMemory engine _ seen.world

theorem HostAct.kept (act : HostAct) (start : Kept engine runtime) :
    Kept engine (act.apply engine runtime) := by
  cases act with
  | write address bytes =>
    exact ⟨⟨start.sound.pages, start.sound.fits, start.sound.declared⟩, start.confined⟩
  | ensure minBytes => exact start.ensureMemoryBytes engine minBytes _
  | raise status => exact start
  | preempt =>
    unfold HostAct.apply requestPreempt
    dsimp only
    split <;> exact start

theorem kept_foldl (acts : List HostAct) (start : Kept engine runtime) :
    Kept engine (acts.foldl (HostAct.apply engine) runtime) := by
  induction acts generalizing runtime with
  | nil => exact start
  | cons act rest hypothesis => exact hypothesis (act.kept engine start)

theorem preserves_finishImport (base resultCount : Nat) (status : RunStatus) :
    Preserves (Kept engine) (finishImport engine base resultCount status) := by
  intro runtime start
  cases status with
  | completed =>
    unfold finishImport
    split <;> exact start
  | yield | exited | trapped | error => exact start

theorem preserves_executeTyped (functionIndex : Nat) (type : FuncType) :
    Preserves (Kept engine) (executeTyped engine functionIndex type) := by
  refine .look_bind fun seen start => ?_
  split
  · exact start
  refine (preserves_onStacks _).bind (fun _ => .look_bind ?_) seen start
  intro called kept
  refine preserves_finishImport engine _ _ _ _ ?_
  exact kept_foldl engine _ (show Kept engine _ from kept)

theorem preserves_executeImport (functionIndex : Nat) :
    Preserves (Kept engine) (executeImport engine functionIndex) := by
  unfold executeImport
  cases engine.data.imports[functionIndex]? with
  | none => exact preserves_of_memory fun _ => rfl
  | some imported =>
    dsimp only
    split
    · cases engine.data.types[imported.typeIndex]? with
      | none => exact preserves_onStacks _
      | some type => exact preserves_executeTyped engine functionIndex type
    · exact preserves_of_memory fun _ => rfl

theorem preserves_callFunction (functionIndex : Nat) :
    Preserves (Kept engine) (callFunction engine functionIndex) := by
  unfold callFunction
  split
  · exact preserves_executeImport engine functionIndex
  · exact preserves_enterNested engine functionIndex

theorem preserves_executeCallIndirect (type table : Nat) :
    Preserves (Kept engine) (executeCallIndirect engine type table) := by
  refine (preserves_onStacks _).bind fun left => .look_bind ?_
  intro seen start
  split
  · exact start
  cases (seen.table[Width.w32.low left]?).join with
  | none => exact start
  | some target =>
    cases engine.data.types[type]? with
    | none => exact start
    | some expected =>
      dsimp only
      split
      · exact preserves_callFunction engine target seen start
      · exact start

theorem preserves_execute (capacity : Nat) (frame : Frame) (body : FunctionBody)
    (instruction : Instruction) :
    Preserves (Kept engine) (execute engine capacity frame body instruction) := by
  cases instruction with
  | stack op => exact preserves_onStacks _
  | unreachable => exact preserves_trap _
  | endOp =>
    refine .look_bind fun seen start => ?_
    split
    · exact start
    · exact preserves_finishFunction engine capacity seen start
  | returnOp => exact preserves_finishFunction engine capacity
  | unary op => exact (preserves_onStacks _).bind fun left => preserves_pushResult engine _
  | binary op =>
    exact (preserves_onStacks _).bind fun right =>
      (preserves_onStacks _).bind fun left => preserves_pushResult engine _
  | globalGet index => exact preserves_executeGlobalGet engine index
  | globalSet index => exact preserves_executeGlobalSet engine index
  | call functionIndex => exact preserves_callFunction engine functionIndex
  | callIndirect type table => exact preserves_executeCallIndirect engine type table
  | memorySize => exact .look_bind fun seen start => start
  | memoryGrow => exact preserves_executeMemoryGrow engine
  | load type width signed align offset =>
    exact preserves_executeLoad engine type width signed offset
  | store type width align offset => exact preserves_executeStore engine width offset
  | memoryCopy => exact preserves_executeMemoryCopy engine
  | memoryFill => exact preserves_executeMemoryFill engine

theorem preserves_iterate (capacity : Nat) : Preserves (Kept engine) (iterate engine capacity) := by
  intro runtime start
  rcases iterate_cases engine capacity runtime with
    yielded | finished | ⟨frame, callers, body, instruction, executed⟩
  · rw [yielded]
    exact start
  · rw [finished]
    exact preserves_finishFunction engine capacity runtime start
  · rw [executed]
    exact preserves_execute engine capacity _ body instruction (advance frame callers runtime) start

end Steps

/-! ## Every state that an instance reaches -/

/-- What can happen to an instance. -/
inductive RuntimeOp where
  | invoke (name : Bytes) (arguments : List UInt64) (capacity : Nat)
  /-- One round of the loop of `invoke` or `resume`. -/
  | round (capacity : Nat)
  | preempt
  /-- The kernel grows or writes the memory between two calls. -/
  | host (act : HostAct)

def RuntimeOp.apply (engine : Engine World) (runtime : Runtime World) : RuntimeOp → Runtime World
  | invoke name arguments capacity => (prepare engine name arguments capacity runtime).2
  | round capacity => (iterate engine capacity runtime).2
  | preempt => requestPreempt runtime
  | host act => act.apply engine runtime

/-- An instance reaches a state from the one it was created in. -/
def Reaches (engine : Engine World) (world : World) (ops : List RuntimeOp)
    (runtime : Runtime World) : Prop :=
  ∃ initial, instantiate engine world = .ok initial ∧
    Run (fun before op after => RuntimeOp.apply engine before op = after) initial ops runtime

theorem memory_prepare (engine : Engine World) (name : Bytes) (arguments : List UInt64)
    (capacity : Nat) (runtime : Runtime World) :
    (prepare engine name arguments capacity runtime).2.memory = runtime.memory := by
  unfold prepare
  split
  · rfl
  split
  · rfl
  split
  · dsimp only
    split <;> exact memory_enterFrame engine _ _
  · rfl

theorem RuntimeOp.kept (engine : Engine World) (op : RuntimeOp) {runtime : Runtime World}
    (start : Kept engine runtime) : Kept engine (op.apply engine runtime) := by
  cases op with
  | invoke name arguments capacity =>
    unfold Kept RuntimeOp.apply
    rw [memory_prepare]
    exact start
  | round capacity => exact preserves_iterate engine capacity runtime start
  | preempt => exact HostAct.preempt.kept engine start
  | host act => exact act.kept engine start

theorem le_initialCapacity (minimum limit : Nat) : minimum ≤ initialCapacity minimum limit := by
  unfold initialCapacity
  dsimp only
  split_ifs <;> omega

variable {world : World}

theorem freshMemory_holds {engine : Engine World} {made : LinearMemory × World}
    (fresh : freshMemory engine world = .ok made) : MemoryHolds engine.data made.1 := by
  unfold freshMemory at fresh
  cases memory : engine.data.memory with
  | none =>
    rw [memory] at fresh
    cases fresh
    refine ⟨⟨rfl, le_refl _, fun _ _ => Nat.zero_le _⟩, ?_⟩
    intro access member
    exact absurd member List.not_mem_nil
  | some limits =>
    rw [memory] at fresh
    dsimp only at fresh
    split at fresh
    · cases fresh
    split at fresh
    · cases fresh
    cases fresh
    refine ⟨⟨Nat.mul_mod_left _ _, le_initialCapacity _ _, ?_⟩, ?_⟩
    · intro pages declared
      have bound : limits.maximum = some pages := by
        simpa [ModuleData.maxPages, memory] using declared
      exact Nat.mul_le_mul_right pageSize (limits.ordered pages bound)
    · intro access member
      exact absurd member List.not_mem_nil

theorem instantiate_kept {engine : Engine World} {initial : Runtime World}
    (created : instantiate engine world = .ok initial) : Kept engine initial := by
  obtain ⟨table, _, rest⟩ := exceptBind_eq_ok_iff.mp created
  obtain ⟨made, fresh, filled⟩ := exceptBind_eq_ok_iff.mp rest
  have holds : MemoryHolds engine.data (filledMemory engine made.1).2 := by
    unfold filledMemory
    split
    · exact (freshMemory_holds fresh).initData engine.data.data
    · exact freshMemory_holds fresh
  split at filled
  · cases filled
    exact holds
  · cases filled

theorem Reaches.kept {engine : Engine World} {ops : List RuntimeOp} {runtime : Runtime World}
    (reached : Reaches engine world ops runtime) : Kept engine runtime := by
  obtain ⟨initial, created, run⟩ := reached
  refine run.invariant ?_ (instantiate_kept created)
  intro before op after holds applied
  rw [← applied]
  exact op.kept engine holds

/-! ## Accesses outside the memory -/

def Stacks.operand (stack : Stacks) (depth : Nat) : UInt64 :=
  stack.values (stack.valueCount - 1 - depth)

def Stacks.address (stack : Stacks) (depth : Nat) : Nat := Width.w32.low (stack.operand depth)

/--
The ranges that a memory access is about to use: where each starts and how
long it is.  `none` for other instructions and for missing operands.
-/
def Instruction.ranges (stack : Stacks) : Instruction → Option (List (Nat × Nat))
  | .load _ width _ _ offset =>
    if 1 ≤ stack.valueCount then some [(stack.address 0 + offset, width)]
    else none
  | .store _ width _ offset =>
    if 2 ≤ stack.valueCount then some [(stack.address 1 + offset, width)]
    else none
  | .memoryCopy =>
    if 3 ≤ stack.valueCount then
      some [(stack.address 2, stack.address 0), (stack.address 1, stack.address 0)]
    else none
  | .memoryFill =>
    if 3 ≤ stack.valueCount then some [(stack.address 2, stack.address 0)]
    else none
  | _ => none

/-- The next round executes an instruction. -/
def Next (engine : Engine World) (runtime : Runtime World) (instruction : Instruction) : Prop :=
  runtime.preemptPending = false ∧ ∃ frame callers body, runtime.stack.frames = frame :: callers ∧
    instructionAt engine frame = some (body, instruction)

theorem onStacks_popValue_bind {Result : Type} {rest : UInt64 → Exec World Result}
    {runtime : Runtime World} (present : runtime.stack.valueCount ≠ 0) :
    (onStacks popValue >>= rest) runtime = rest (runtime.stack.operand 0)
      { runtime with stack := (popValue runtime.stack).2 } := by
  refine bind_of_ok ?_
  unfold onStacks
  rw [focus_apply]
  unfold popValue Stacks.operand
  rw [if_neg present]
  rfl

@[simp] theorem popValue_valueCount (stack : Stacks) :
    (popValue stack).2.valueCount = stack.valueCount - 1 := by
  unfold popValue
  split
  · rename_i none
    rw [none]
  · rfl

theorem popValue_operand (stack : Stacks) (depth : Nat) :
    (popValue stack).2.operand depth = stack.operand (depth + 1) := by
  unfold Stacks.operand
  rw [popValue_valueCount]
  have values : (popValue stack).2.values = stack.values := by
    unfold popValue
    split
    · rfl
    · unfold Stacks.expect
      split <;> rfl
  rw [values]
  congr 1
  omega

theorem checkMemory_iff (memory : LinearMemory) (start length : Nat) :
    memory.checkMemory start length ↔ start + length ≤ memory.size := by
  unfold checkMemory
  omega

section Outside

variable {runtime : Runtime World}

/-- How a run that traps outside the memory ends. -/
def EndsOutside (runtime : Runtime World)
    (outcome : Except RunStatus Unit × Runtime World) : Prop :=
  outcome.1 = .error .trapped ∧ outcome.2.error = .trapOutOfBounds ∧
    outcome.2.memory = runtime.memory

theorem executeLoad_outside (engine : Engine World) (type : ValueType) (signed : Bool)
    {width offset : Nat} (present : 1 ≤ runtime.stack.valueCount)
    (outside : ¬ runtime.memory.checkMemory (runtime.stack.address 0 + offset) width) :
    EndsOutside runtime (executeLoad engine type width signed offset runtime) := by
  have missed : runtime.memory.load (Width.w32.low (runtime.stack.operand 0)) offset width = none :=
    if_neg fun reaches => outside reaches.2.2
  unfold executeLoad
  rw [onStacks_popValue_bind (by omega), look_bind]
  rw [missed]
  exact ⟨rfl, rfl, rfl⟩

theorem executeStore_outside {width offset : Nat} (present : 2 ≤ runtime.stack.valueCount)
    (outside : ¬ runtime.memory.checkMemory (runtime.stack.address 1 + offset) width) :
    EndsOutside runtime (executeStore width offset runtime) := by
  have missed : runtime.memory.store (Width.w32.low (runtime.stack.operand 1)) offset
      width (runtime.stack.operand 0).toNat = none :=
    if_neg fun reaches => outside reaches.2.2
  unfold executeStore
  rw [onStacks_popValue_bind (by omega),
    onStacks_popValue_bind (by rw [popValue_valueCount]; omega), look_bind, popValue_operand]
  rw [missed]
  exact ⟨rfl, rfl, rfl⟩

theorem executeMemoryCopy_outside (present : 3 ≤ runtime.stack.valueCount) (outside :
      ¬ (runtime.memory.checkMemory (runtime.stack.address 2) (runtime.stack.address 0) ∧
        runtime.memory.checkMemory (runtime.stack.address 1) (runtime.stack.address 0))) :
    EndsOutside runtime (executeMemoryCopy runtime) := by
  have missed : runtime.memory.copy (Width.w32.low (runtime.stack.operand 2))
      (Width.w32.low (runtime.stack.operand 1))
      (Width.w32.low (runtime.stack.operand 0)) = none :=
    if_neg fun inside => outside inside.2.2
  unfold executeMemoryCopy
  rw [onStacks_popValue_bind (by omega),
    onStacks_popValue_bind (by rw [popValue_valueCount]; omega),
    onStacks_popValue_bind (by
      rw [popValue_valueCount, popValue_valueCount]; omega),
    look_bind, popValue_operand, popValue_operand, popValue_operand]
  rw [missed]
  exact ⟨rfl, rfl, rfl⟩

theorem executeMemoryFill_outside (present : 3 ≤ runtime.stack.valueCount) (outside :
      ¬ runtime.memory.checkMemory (runtime.stack.address 2) (runtime.stack.address 0)) :
    EndsOutside runtime (executeMemoryFill runtime) := by
  have missed : runtime.memory.fill (Width.w32.low (runtime.stack.operand 2))
      (Width.w32.low (runtime.stack.operand 0))
      (UInt8.ofNat (runtime.stack.operand 1).toNat) = none :=
    if_neg fun inside => outside inside.2
  unfold executeMemoryFill
  rw [onStacks_popValue_bind (by omega),
    onStacks_popValue_bind (by rw [popValue_valueCount]; omega),
    onStacks_popValue_bind (by
      rw [popValue_valueCount, popValue_valueCount]; omega),
    look_bind, popValue_operand, popValue_operand, popValue_operand]
  rw [missed]
  exact ⟨rfl, rfl, rfl⟩

theorem execute_outside (engine : Engine World) (capacity : Nat) (frame : Frame)
    (body : FunctionBody) {instruction : Instruction} {ranges : List (Nat × Nat)}
    (accesses : instruction.ranges runtime.stack = some ranges) {range : Nat × Nat}
    (member : range ∈ ranges) (outside : runtime.memory.size < range.1 + range.2) :
    EndsOutside runtime (execute engine capacity frame body instruction runtime) := by
  have failed : ¬ runtime.memory.checkMemory range.1 range.2 := by
    rw [checkMemory_iff]
    omega
  cases instruction with
  | load type width signed align offset =>
    obtain ⟨present, ⟨⟩⟩ := ite_none_right_eq_some.mp accesses
    obtain rfl := List.mem_singleton.mp member
    exact executeLoad_outside engine type signed present failed
  | store type width align offset =>
    obtain ⟨present, ⟨⟩⟩ := ite_none_right_eq_some.mp accesses
    obtain rfl := List.mem_singleton.mp member
    exact executeStore_outside present failed
  | memoryCopy =>
    obtain ⟨present, ⟨⟩⟩ := ite_none_right_eq_some.mp accesses
    refine executeMemoryCopy_outside present fun inside => failed ?_
    rcases List.mem_pair.mp member with rfl | rfl
    · exact inside.1
    · exact inside.2
  | memoryFill =>
    obtain ⟨present, ⟨⟩⟩ := ite_none_right_eq_some.mp accesses
    obtain rfl := List.mem_singleton.mp member
    exact executeMemoryFill_outside present failed
  | _ => exact absurd accesses (by simp [Instruction.ranges])

end Outside

/-! ## The whole of it -/

theorem grown_executeMemoryGrow (engine : Engine World) (runtime : Runtime World) :
    runtime.memory.Grown (executeMemoryGrow engine runtime).2.memory := by
  by_cases missing : runtime.stack.valueCount = 0
  · have failed : (onStacks popValue : Exec World UInt64) runtime = (.error .error, runtime) := by
      unfold onStacks
      rw [focus_apply]
      unfold popValue
      rw [if_pos missing]
    unfold executeMemoryGrow
    rw [bind_of_error failed]
    exact .of_same rfl rfl
  · unfold executeMemoryGrow
    rw [onStacks_popValue_bind missing]
    exact grown_growMemory runtime.memory _ runtime.world

/-- What holds of the memory of an instance in one state. -/
structure SoundInstance (engine : Engine World) (runtime : Runtime World) : Prop where
  pages : runtime.memory.size % pageSize = 0
  fits : runtime.memory.size ≤ runtime.memory.capacity
  declared : ∀ pages, engine.data.maxPages = some pages → runtime.memory.size ≤ pages * pageSize
  /-- All accesses so far were inside the memory. -/
  confined : ∀ access ∈ runtime.memory.accesses, access.Inside
  /-- Growth by an instruction. -/
  grows : ∀ capacity, Next engine runtime .memoryGrow →
    runtime.memory.Grown (iterate engine capacity runtime).2.memory
  /-- Growth by a request of the host. -/
  ensures : ∀ minBytes, runtime.memory.Grown ((HostAct.ensure minBytes).apply engine runtime).memory
  /-- An access outside the memory traps and leaves the memory alone. -/
  guarded : ∀ capacity instruction ranges range, Next engine runtime instruction →
    instruction.ranges runtime.stack = some ranges →
    range ∈ ranges →
    runtime.memory.size < range.1 + range.2 →
    EndsOutside runtime (iterate engine capacity runtime)

/--
Every state that an instance reaches has a sound memory, and a segment that
does not fit ends the instantiation with the memory as it was.
-/
theorem memory_sound {engine : Engine World} {ops : List RuntimeOp} {runtime : Runtime World}
    (reached : Reaches engine world ops runtime) :
    SoundInstance engine runtime ∧ ∀ (memory : LinearMemory) (segment : DataSegment)
      (rest : List DataSegment), memory.size < segment.offset + segment.bytes.length →
      initData memory (segment :: rest) = (false, memory) := by
  have holds := reached.kept
  refine ⟨⟨holds.sound.pages, holds.sound.fits, holds.sound.declared,
    holds.confined, ?_, ?_, ?_⟩, ?_⟩
  · rintro capacity ⟨quiet, frame, callers, body, frames, fetched⟩
    rw [iterate_execute quiet frames fetched]
    exact grown_executeMemoryGrow engine (advance frame callers runtime)
  · intro minBytes
    exact grown_ensureMemoryBytes runtime.memory minBytes runtime.world
  · rintro capacity instruction ranges range
      ⟨quiet, frame, callers, body, frames, fetched⟩ accesses member outside
    rw [iterate_execute quiet frames fetched]
    -- Taking the instruction moves a counter; operands and memory stay.
    have sameOperands : instruction.ranges (advance frame callers runtime).stack =
      some ranges := accesses
    exact execute_outside engine capacity _ body sameOperands member outside
  · intro memory segment rest outside
    have failed : memory.initSegment segment.offset segment.bytes = none := by
      refine if_neg fun inside => ?_
      rw [checkMemory_iff] at inside
      omega
    unfold initData
    rw [failed]

/-- A module with one page of memory that may grow to two. -/
def pageEngine : Engine Unit where
  data :=
    { types := []
      imports := []
      functionTypes := []
      table := none
      memory :=
        some
          { minimum := 1
            maximum := some 2
            ordered := fun _ declared => some.inj declared ▸ Nat.le_succ 1 }
      globals := []
      elements := []
      exports := []
      start := none
      data := [⟨65534, [1, 2]⟩]
      branchTargets := []
      bodies := [] }
  config := ⟨16, 4, 4, 4, 65536⟩
  host :=
    { bound := fun _ => false
      invoke := fun _ _ _ _ => (⟨.error, [], [], none⟩, ())
      allocate := fun _ _ => (true, ())
      lower := fun _ _ => (.ok, ()) }
  floats :=
    { compare := fun _ _ _ _ => false
      builtin := fun _ _ value => value
      arithmetic := fun _ _ left _ => left
      toInt := fun _ _ value => value
      ofInt := fun _ _ _ value => value
      demote := fun value => value
      promote := fun value => value }

theorem memory_sound_two_pages : ∃ runtime, Reaches pageEngine () [.host (.ensure 70000)] runtime ∧
    runtime.memory.size = 131072 ∧ SoundInstance pageEngine runtime := by
  have reached : ∃ runtime, Reaches pageEngine () [.host (.ensure 70000)] runtime ∧
      runtime.memory.size = 131072 :=
    ⟨_, ⟨_, rfl, .cons rfl (.nil _)⟩, by decide⟩
  obtain ⟨runtime, run, size⟩ := reached
  exact ⟨runtime, run, size, (memory_sound run).1⟩

end KernelLane.Wasm
