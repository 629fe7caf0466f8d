import KernelLane.KernDirect

namespace KernelLane.Kern

open GuestFrame Function

/-!
# Guest sessions and their imports

What guest sessions do to the kernel: the imports for ports, for the input
focus and for routed files, and the life of a session.  A routed file call
frames a request, registers the reply it waits for and queues the request on
the port of the file service; the session then looks for its reply until it
has come or the call gives up.  The tables of routed descriptors, of call
counters and of ports are indexed by session slots and outlive the sessions.

A guest operation is run by a live session only, and a session inside a routed
call does nothing else.  The audit texts and the guest memory are left out.
-/

def wellKnownNames : List Bytes :=
  [ascii "registry", ascii "devman", ascii "power", ascii "console",
    ascii "login", ascii "fs", ascii "net", ascii "init", ascii "shell"]

def isWellKnownName (name : Bytes) : Bool := wellKnownNames.contains name

def schedMaxFds : Nat := 64

def preopenFd : Nat := 3

def fsreqMax : Nat := 16384

/-- An open routed file: its path and the cursor. -/
structure Rfd where
  off : UInt64
  path : Bytes
  deriving DecidableEq, Repr

/-- The routed-file state of a session slot. -/
structure Wasi where
  /-- The descriptors that are not empty. -/
  fds : Nat → Bool
  fsSeqCtr : UInt16
  fsRtSeq : UInt16
  /-- The session is inside a routed call. -/
  waiting : Bool

/-- The kernel with the tables of the guest imports. -/
structure Machine extends Kernel where
  focus : Option UInt32
  wasi : Nat → Wasi
  fdtab : Nat → Nat → Option Rfd

def Sched.nameOf (sched : Sched) (sid : UInt32) : Bytes :=
  if sched.occupied sid then (sched.sessions sid.toNat).name else ascii "?"

def Ports.ownerOfHandle (state : Ports) (sid : UInt32) (h : Int) : Option UInt32 :=
  (state.portOf sid h).map fun index => (state.ports index).creator

def rnameField (name : Bytes) : Bytes :=
  let kept := (cstr name).take 15
  kept ++ List.replicate (16 - kept.length) 0

def requestFrame (op seq : UInt16) (uid : UInt32) (name path payload : Bytes) : Bytes :=
  if fsreqMax < path.length + payload.length + 26 then []
  else
    put16 op ++ put16 seq ++ put32 uid ++ rnameField name ++
      put16 (UInt16.ofNat path.length) ++ path ++ payload

/-- What guest sessions and the scheduler do. -/
inductive GuestOp where
  | create (sid : UInt32) (name : Bytes)
  | bind (sid : UInt32) (name : Bytes)
  | send (env : SvcEnv) (sid : UInt32) (h : Int) (data : Bytes)
  | recv (sid : UInt32) (h : Int)
  | focusSet (allocOk : Bool) (sid : UInt32) (h : Int)
  /-- A descriptor is reserved for a file that is being opened. -/
  | fdAlloc (sid : UInt32)
  /-- The file behind a reserved descriptor was found. -/
  | fdOpen (sid : UInt32) (fd : Nat) (path : Bytes)
  | fdMove (sid : UInt32) (fd count : Nat)
  | fdRelease (sid : UInt32) (fd : Nat)
  | request (allocOk : Bool) (sid : UInt32) (op : UInt16) (path payload : Bytes)
  | collect (sid : UInt32)
  | giveUp (sid : UInt32)
  | exit (sid : UInt32)
  | reap
  | preload (name : Bytes)
  /-- The kernel starts a session of its own. -/
  | spawn (env : Sched.SpawnEnv) (name : Bytes) (uid : UInt32)
    (capmask : UInt64) (argv : List Bytes)

/-- The session that runs an operation. -/
def GuestOp.caller : GuestOp → Option UInt32
  | .create sid _ => some sid
  | .bind sid _ => some sid
  | .send _ sid _ _ => some sid
  | .recv sid _ => some sid
  | .focusSet _ sid _ => some sid
  | .fdAlloc sid => some sid
  | .fdOpen sid _ _ => some sid
  | .fdMove sid _ _ => some sid
  | .fdRelease sid _ => some sid
  | .request _ sid _ _ _ => some sid
  | .collect sid => some sid
  | .giveUp sid => some sid
  | .exit sid => some sid
  | .reap => none
  | .preload _ => none
  | .spawn _ _ _ _ _ => none

namespace Machine

def spawned (before after : Sched) (slot : Nat) : Bool :=
  (before.sessions slot).status = .free && (after.sessions slot).status = .runnable

def withKernel (machine : Machine) (kernel : Kernel) : Machine :=
  { machine with
    toKernel := kernel
    wasi := fun slot =>
      if spawned machine.sched kernel.sched slot then
        { machine.wasi slot with fds := fun _ => false, waiting := false }
      else machine.wasi slot }

def setPorts (machine : Machine) (ports : Ports) : Machine := { machine with ports := ports }

def setWasi (machine : Machine) (sid : UInt32) (wasi : Wasi) : Machine :=
  { machine with wasi := update machine.wasi sid.toNat wasi }

def setRfd (machine : Machine) (sid : UInt32) (fd : Nat) (file : Option Rfd) : Machine :=
  { machine with
    fdtab := update machine.fdtab sid.toNat (update (machine.fdtab sid.toNat) fd file) }

def klog (machine : Machine) (allocOk : Bool) (text : Bytes) : Machine :=
  machine.setPorts (machine.ports.enqueueByName allocOk (ascii "console") text).2

def focusText (name : Bytes) : Bytes := (ascii "[input] focus -> '" ++ name ++ ascii "'").take 63

/-- Move the focus to the owner of a handle, which must be the caller. -/
def inputFocusSet (machine : Machine) (allocOk : Bool) (sid : UInt32) (h : Int) : Machine :=
  match machine.ports.ownerOfHandle sid h with
  | none => machine
  | some owner =>
    if owner = 0 then machine
    else if owner ≠ sid then
      machine.klog allocOk (ascii "[input] set: owner != caller (focus-steal blocked)")
    else { machine with focus := some owner }.klog allocOk (focusText (machine.sched.nameOf owner))

def mayBind (machine : Machine) (sid : UInt32) (name : Bytes) : Bool :=
  !isWellKnownName name || machine.sched.capmaskOf sid &&& capPortbind ≠ 0

def freeFd (machine : Machine) (sid : UInt32) : Option Nat :=
  (List.range' (preopenFd + 1) (schedMaxFds - preopenFd - 1)).find? fun fd =>
    !(machine.wasi sid.toNat).fds fd

def allocFd (machine : Machine) (sid : UInt32) : Machine :=
  let wasi := machine.wasi sid.toNat
  let rooted := update wasi.fds preopenFd true
  match machine.freeFd sid with
  | none => machine.setWasi sid { wasi with fds := rooted }
  | some fd => machine.setWasi sid { wasi with fds := update rooted fd true }

def fdInRange (fd : Nat) : Bool := preopenFd ≤ fd && fd < schedMaxFds

def openFile (machine : Machine) (sid : UInt32) (fd : Nat) : Option Rfd :=
  if fdInRange fd && (machine.wasi sid.toNat).fds fd then machine.fdtab sid.toNat fd
  else none

def releaseFd (machine : Machine) (sid : UInt32) (fd : Nat) : Machine :=
  if fdInRange fd then
    (machine.setRfd sid fd none).setWasi sid
      { machine.wasi sid.toNat with fds := update (machine.wasi sid.toNat).fds fd false }
  else machine

def nextRequest (machine : Machine) (sid : UInt32) (op : UInt16) (path payload : Bytes) : Bytes :=
  requestFrame op ((machine.wasi sid.toNat).fsRtSeq + 1)
    (machine.sched.uidOf sid) (machine.sched.nameOf sid) path payload

/-- Start a routed call: register its reply and queue its request. -/
def startRequest (machine : Machine) (allocOk : Bool) (sid : UInt32) (op : UInt16)
    (path payload : Bytes) : Machine :=
  let wasi := machine.wasi sid.toNat
  let seq := wasi.fsRtSeq + 1
  let counted : Wasi := { wasi with fsSeqCtr := wasi.fsSeqCtr + 1, fsRtSeq := seq }
  match machine.ports.fsrouteExpect seq (machine.sched.nameOf sid) with
  | (status, expecting) =>
    if status ≠ 0 then machine.setWasi sid counted
    else
      match expecting.enqueueByName allocOk (ascii "fs") (machine.nextRequest sid op path payload)
      with
      | (outcome, ports) =>
        (machine.setPorts ports).setWasi sid { counted with waiting := outcome.status = 0 }

def collect (machine : Machine) (sid : UInt32) : Option Bytes × Machine :=
  let wasi := machine.wasi sid.toNat
  if wasi.waiting then
    match machine.ports.fsroutePoll wasi.fsRtSeq with
    | (none, _) => (none, machine)
    | (some resp, ports) =>
      (some resp, (machine.setPorts ports).setWasi sid { wasi with waiting := false })
  else (none, machine)

def giveUp (machine : Machine) (sid : UInt32) : Machine :=
  let wasi := machine.wasi sid.toNat
  if wasi.waiting then
    (machine.setPorts (machine.ports.fsrouteReclaim wasi.fsRtSeq)).setWasi sid
      { wasi with waiting := false }
  else machine

def spawn (machine : Machine) (env : Sched.SpawnEnv) (name : Bytes) (uid : UInt32)
    (capmask : UInt64)
    (argv : List Bytes) : Machine :=
  machine.withKernel
    { machine.toKernel with sched := (machine.sched.spawnImpl env name uid capmask argv).2 }

end Machine

/-- What an operation does when its caller runs. -/
def GuestOp.effect (machine : Machine) : GuestOp → Machine
  | .create sid name => machine.withKernel ((KernOp.create sid name).run machine.toKernel)
  | .bind sid name =>
    if machine.mayBind sid name then
      machine.withKernel ((KernOp.bind sid name).run machine.toKernel)
    else machine
  | .send env sid h data => machine.withKernel ((KernOp.send env sid h data).run machine.toKernel)
  | .recv sid h => machine.withKernel ((KernOp.recv sid h).run machine.toKernel)
  | .focusSet allocOk sid h =>
    if machine.sched.capmaskOf sid &&& capFocus ≠ 0 then machine.inputFocusSet allocOk sid h
    else machine
  | .fdAlloc sid => machine.allocFd sid
  | .fdOpen sid fd path =>
    if Machine.fdInRange fd && (machine.wasi sid.toNat).fds fd then
      machine.setRfd sid fd (some ⟨0, path⟩)
    else machine
  | .fdMove sid fd count =>
    match machine.openFile sid fd with
    | none => machine
    | some file => machine.setRfd sid fd (some { file with off := file.off + UInt64.ofNat count })
  | .fdRelease sid fd => machine.releaseFd sid fd
  | .request allocOk sid op path payload => machine.startRequest allocOk sid op path payload
  | .collect sid => (machine.collect sid).2
  | .giveUp sid => machine.giveUp sid
  | .exit sid => machine.withKernel ((KernOp.exit sid).run machine.toKernel)
  | .reap => machine.withKernel (KernOp.reap.run machine.toKernel)
  | .preload name => machine.withKernel ((KernOp.preload name).run machine.toKernel)
  | .spawn env name uid capmask argv => machine.spawn env name uid capmask argv

def GuestOp.awaitsReply : GuestOp → Bool
  | .collect _ => true
  | .giveUp _ => true
  | _ => false

def Machine.waiting (machine : Machine) (sid : UInt32) : Bool := (machine.wasi sid.toNat).waiting

/--
The operation runs: the machine does, the caller is alive, and a caller inside
a routed call does nothing but wait for its reply.
-/
def GuestOp.Runs (machine : Machine) (op : GuestOp) : Prop :=
  machine.halted = false ∧ op.caller.all machine.sched.alive ∧
    (op.awaitsReply = true ∨ op.caller.any machine.waiting = false)

instance (machine : Machine) (op : GuestOp) : Decidable (op.Runs machine) :=
  inferInstanceAs (Decidable (_ ∧ _))

def GuestOp.run (machine : Machine) (op : GuestOp) : Machine :=
  if op.Runs machine then op.effect machine else machine

/-- One step of the machine. -/
def GuestOp.Step (before : Machine) (op : GuestOp) (after : Machine) : Prop := op.run before = after

def Machine.boot : Machine where
  sched := schedInit
  ports := portsInit
  halted := false
  focus := none
  wasi := fun _ => ⟨fun _ => false, 0, 0, false⟩
  fdtab := fun _ _ => none

/-! ## Effects on the kernel's tables -/

def GuestOp.kern : GuestOp → Option KernOp
  | .create sid name => some (.create sid name)
  | .bind sid name => some (.bind sid name)
  | .send env sid h data => some (.send env sid h data)
  | .recv sid h => some (.recv sid h)
  | .exit sid => some (.exit sid)
  | .reap => some .reap
  | .preload name => some (.preload name)
  | _ => none

def Machine.focusLog (machine : Machine) (sid : UInt32) (h : Int) : Option Bytes :=
  match machine.ports.ownerOfHandle sid h with
  | none => none
  | some owner =>
    if owner = 0 then none
    else if owner ≠ sid then some (ascii "[input] set: owner != caller (focus-steal blocked)")
    else some (Machine.focusText (machine.sched.nameOf owner))

/-- What an operation that runs does to the ports. -/
def GuestOp.portOps (machine : Machine) : GuestOp → List PortOp
  | .focusSet allocOk sid h =>
    if machine.sched.capmaskOf sid &&& capFocus ≠ 0 then
      match machine.focusLog sid h with
      | none => []
      | some text => [.enqueueByName allocOk (ascii "console") text]
    else []
  | .request allocOk sid op path payload =>
    let seq := (machine.wasi sid.toNat).fsRtSeq + 1
    let name := machine.sched.nameOf sid
    if (machine.ports.fsrouteExpect seq name).1 ≠ 0 then []
    else
      [.expect seq name, .enqueueByName allocOk (ascii "fs")
        (machine.nextRequest sid op path payload)]
  | .collect sid =>
    let wasi := machine.wasi sid.toNat
    if wasi.waiting then [.poll wasi.fsRtSeq] else []
  | .giveUp sid =>
    let wasi := machine.wasi sid.toNat
    if wasi.waiting then [.reclaim wasi.fsRtSeq] else []
  | .create sid name => (KernOp.create sid name).portOps machine.toKernel
  | .bind sid name =>
    if machine.mayBind sid name then (KernOp.bind sid name).portOps machine.toKernel
    else []
  | .send env sid h data => (KernOp.send env sid h data).portOps machine.toKernel
  | .recv sid h => (KernOp.recv sid h).portOps machine.toKernel
  | .fdAlloc _ => []
  | .fdOpen _ _ _ => []
  | .fdMove _ _ _ => []
  | .fdRelease _ _ => []
  | .exit _ => []
  | .reap => []
  | .preload _ => []
  | .spawn _ _ _ _ _ => []

namespace Machine

variable {machine : Machine}

theorem inputFocusSet_ports (allocOk : Bool) (sid : UInt32) (h : Int) :
    (machine.inputFocusSet allocOk sid h).ports = stateAfter machine.ports
      (match machine.focusLog sid h with
        | none => []
        | some text => [.enqueueByName allocOk (ascii "console") text]) := by
  unfold inputFocusSet focusLog
  cases machine.ports.ownerOfHandle sid h with
  | none => rfl
  | some owner =>
    dsimp only
    split
    · rfl
    · split <;> rfl

theorem fsroutePoll_of_none {state after : Ports} {seq : UInt16}
    (polled : state.fsroutePoll seq = (none, after)) : after = state := by
  unfold Ports.fsroutePoll at polled
  split at polled
  · cases polled
    rfl
  · cases polled

theorem collect_ports (sid : UInt32) : (machine.collect sid).2.ports =
    stateAfter machine.ports ((GuestOp.collect sid).portOps machine) := by
  unfold collect GuestOp.portOps
  dsimp only
  split
  · rw [stateAfter, stateAfter, PortOp.run]
    cases polled : machine.ports.fsroutePoll (machine.wasi sid.toNat).fsRtSeq with
    | mk found ports =>
      cases found with
      | none => exact (fsroutePoll_of_none polled).symm
      | some resp => rfl
  · rfl

end Machine

theorem GuestOp.effect_ports (machine : Machine) (op : GuestOp) : (op.effect machine).ports =
    stateAfter machine.ports (op.portOps machine) := by
  cases op with
  | create | send | recv => exact KernOp.run_ports machine.toKernel _
  | bind sid name =>
    dsimp only [effect, portOps]
    split
    · exact KernOp.run_ports machine.toKernel _
    · rfl
  | focusSet allocOk sid h =>
    dsimp only [effect, portOps]
    split
    · exact Machine.inputFocusSet_ports allocOk sid h
    · rfl
  | fdAlloc sid =>
    dsimp only [effect, Machine.allocFd]
    split <;> rfl
  | fdOpen | fdMove =>
    dsimp only [effect]
    split <;> rfl
  | fdRelease sid fd =>
    dsimp only [effect, Machine.releaseFd]
    split <;> rfl
  | request allocOk sid op path payload =>
    dsimp only [effect, portOps, Machine.startRequest]
    split <;> rfl
  | collect sid => exact Machine.collect_ports sid
  | giveUp sid =>
    dsimp only [effect, portOps, Machine.giveUp]
    split <;> rfl
  | exit sid =>
    dsimp only [effect, KernOp.run]
    split
    · rfl
    · split <;> rfl
  | reap | preload =>
    dsimp only [effect, KernOp.run]
    split <;> rfl
  | spawn env name uid capmask argv => rfl

variable {op : GuestOp}

theorem GuestOp.run_ports {machine : Machine} (runs : op.Runs machine) :
    (op.run machine).ports = stateAfter machine.ports (op.portOps machine) := by
  unfold GuestOp.run
  rw [if_pos runs, op.effect_ports machine]

def GuestOp.touchesSessions : GuestOp → Bool
  | .send _ _ _ _ => true
  | .exit _ => true
  | .reap => true
  | .preload _ => true
  | .spawn _ _ _ _ _ => true
  | _ => false

/--
Only some operations touch the scheduler, and only a session that asks for the
keyboard, owns the endpoint and has the capability becomes the focus.
-/
theorem GuestOp.effect_spec (machine : Machine) (op : GuestOp) :
    (op.touchesSessions = false → (op.effect machine).sched = machine.sched) ∧
    ((op.effect machine).focus = machine.focus ∨ ∃ allocOk sid h, op = .focusSet allocOk sid h ∧
      machine.sched.capmaskOf sid &&& capFocus ≠ 0 ∧ machine.ports.ownerOfHandle sid h = some sid ∧
      (op.effect machine).focus = some sid) := by
  cases op with
  | focusSet allocOk sid h =>
    dsimp only [effect]
    split
    next may =>
      unfold Machine.inputFocusSet
      split
      · exact ⟨fun _ => rfl, .inl rfl⟩
      next owner found =>
        split
        · exact ⟨fun _ => rfl, .inl rfl⟩
        split
        · exact ⟨fun _ => rfl, .inl rfl⟩
        next same =>
          have isCaller : owner = sid := not_not.mp same
          subst isCaller
          exact ⟨fun _ => rfl, .inr ⟨allocOk, owner, h, rfl, may, found, rfl⟩⟩
    · exact ⟨fun _ => rfl, .inl rfl⟩
  | create | recv =>
    refine ⟨fun _ => ?_, .inl rfl⟩
    dsimp only [effect, KernOp.run, Machine.withKernel]
    split <;> rfl
  | bind sid name =>
    dsimp only [effect, KernOp.run]
    split
    · refine ⟨fun _ => ?_, .inl rfl⟩
      split <;> rfl
    · exact ⟨fun _ => rfl, .inl rfl⟩
  | fdAlloc sid =>
    dsimp only [effect, Machine.allocFd]
    split <;> exact ⟨fun _ => rfl, .inl rfl⟩
  | fdOpen | fdMove =>
    dsimp only [effect]
    split <;> exact ⟨fun _ => rfl, .inl rfl⟩
  | fdRelease sid fd =>
    dsimp only [effect, Machine.releaseFd]
    split <;> exact ⟨fun _ => rfl, .inl rfl⟩
  | request allocOk sid op path payload =>
    dsimp only [effect, Machine.startRequest]
    split <;> exact ⟨fun _ => rfl, .inl rfl⟩
  | collect sid =>
    dsimp only [effect, Machine.collect]
    split
    · split <;> exact ⟨fun _ => rfl, .inl rfl⟩
    · exact ⟨fun _ => rfl, .inl rfl⟩
  | giveUp sid =>
    dsimp only [effect, Machine.giveUp]
    split <;> exact ⟨fun _ => rfl, .inl rfl⟩
  | send | exit | reap | preload | spawn => exact ⟨fun quiet => (by cases quiet), .inl rfl⟩

theorem GuestOp.run_sched_of_quiet (machine : Machine) (quiet : op.touchesSessions = false) :
    (op.run machine).sched = machine.sched := by
  unfold GuestOp.run
  split
  · exact (op.effect_spec machine).1 quiet
  · rfl

end KernelLane.Kern
