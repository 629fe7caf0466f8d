import KernelLane.KernPorts

namespace KernelLane.Kern

open GuestFrame UInt32

/-!
# Kernel service endpoints

Requests to the endpoints "registry", "devman" and "power" are dispatched
while they are sent.  A request is a canonical frame: operation, sequence
number, sender, reply name and payload.  The answer goes to the port of the
reply name or, if that is empty, behind the handle the request was sent on.

What the memory pool, the engine, the log, the counters and the device layer
answer is an argument.  The console traces are left out, and so are the
effects outside the session and port tables: the timer settings, the growth of
a new session's memory and the network windows.
-/

/-- The tables that the kernel services work on. -/
structure Kernel where
  sched : Sched
  ports : Ports
  /-- The power endpoint has stopped the machine. -/
  halted : Bool

/-- What the rest of the kernel answers while one request is served. -/
structure SvcEnv where
  /-- The heap has room for the reply. -/
  allocOk : Bool
  /-- The pool has room for the arguments of a new session. -/
  argvAlloc : Bool
  spawn : Sched.SpawnEnv
  /-- The bytes that an answer takes from memory nobody has set. -/
  garbage : Bytes
  /-- What stands behind the terminator in the name buffer of a slot. -/
  nameTail : Nat → Bytes
  assignPci : UInt32
  sysstat : Bytes
  logdump : UInt64 → Bytes
  perfstat : Bytes
  devices : Bytes

/-- Where the answer to a request goes. -/
structure ReplyRoute where
  rname : Bytes
  fromSid : UInt32
  replyH : Int
  deriving DecidableEq, Repr

/-- The answer to a request. -/
inductive Reply where
  /-- A canonical answer. -/
  | answer (rop : UInt16) (body : Bytes)
  /-- A refusal with status -1. -/
  | knack
  /-- A refusal of an unknown or unprivileged operation. -/
  | nack
  /-- No answer at all. -/
  | silent
  deriving DecidableEq, Repr

def kbegin (rop seq : UInt16) : Bytes := put16 rop ++ put16 seq ++ put32 0 ++ List.replicate 16 0

def Reply.frame (env : SvcEnv) (op seq : UInt16) : Reply → Option Bytes
  | .answer rop body => some (kbegin rop seq ++ body)
  | .knack => some (kbegin op seq ++ put32 0xFFFFFFFF)
  | .nack => some (put16 op ++ put16 seq ++ put32 0 ++ env.garbage.take 16 ++ put32 0xFFFFFFFF)
  | .silent => none

namespace Kernel

def kernsvcReply (kernel : Kernel) (env : SvcEnv) (route : ReplyRoute) (data : Bytes) : Kernel :=
  if route.rname ≠ [] then
    { kernel with ports := (kernel.ports.enqueueByName env.allocOk route.rname data).2 }
  else if 0 ≤ route.replyH then
    { kernel with
      ports := (kernel.ports.kernelEnqueue env.allocOk route.fromSid route.replyH data).2 }
  else kernel

def isLogin (kernel : Kernel) (sid : UInt32) : Bool := kernel.ports.nameOwnedBy sid (ascii "login")

/--
Kill a session on behalf of another: its slot becomes a zombie, its datagrams
are dropped and its handles are invalidated.
-/
def schedKill (kernel : Kernel) (sid fromSid : UInt32) : Int × Kernel :=
  if kernel.sched.alive sid = false then (-1, kernel)
  else if kernel.sched.capmaskOf fromSid &&& capKill = 0 then (-1, kernel)
  else
    (0, { kernel with
        sched := kernel.sched.exitSession sid.toNat
        ports := (kernel.ports.drainSession sid).clearSessionHandles sid })

/-! ## Registry operations -/

def registryList (kernel : Kernel) (env : SvcEnv) : Reply :=
  let slots := kernel.sched.list
  .answer 1 (put32 (ofNat slots.length) ++ slots.flatMap fun slot =>
    let session := kernel.sched.sessions slot
    put32 (ofNat slot) ++ put32 session.uid ++ [session.status.code] ++
      (session.name ++ [0] ++ env.nameTail slot).take 15 ++ [0] ++
      [kernel.sched.capSource (ofNat slot)])

/-- CAPS: one record for each bit of a session's mask. -/
def registryCaps (kernel : Kernel) (payload : Bytes) : Reply :=
  let sid := if 4 ≤ payload.length then get32 payload 0 else 0xFFFFFFFF
  let mask := if sid ≠ 0xFFFFFFFF then kernel.sched.capmaskOf sid else 0
  let bits := (List.range 13).filter fun bit => mask &&& ((1 : UInt64) <<< UInt64.ofNat bit) ≠ 0
  .answer 2 (put32 (ofNat bits.length) ++ bits.flatMap fun bit =>
    put32 (ofNat bit) ++ put64 ((1 : UInt64) <<< UInt64.ofNat bit))

def statusBody (status : Int) : Bytes := put32 (ofInt status)

def registryKill (kernel : Kernel) (fromSid : UInt32) (payload : Bytes) : Reply × Kernel :=
  if payload.length < 4 then (.knack, kernel)
  else
    let (status, killed) := kernel.schedKill (get32 payload 0) fromSid
    (.answer 3 (statusBody status), killed)

def nextArg (bytes : Bytes) : Bytes × Bytes :=
  let arg := cstr bytes
  (arg, bytes.drop (arg.length + 1))

def argBytes : Nat → Bytes → Nat
  | 0, _ => 0
  | count + 1, bytes =>
    let (arg, rest) := nextArg bytes
    arg.length + 1 + argBytes count rest

def copyArgs (size : Nat) : Nat → Nat → Bytes → List Bytes
  | 0, _, _ => []
  | count + 1, used, bytes =>
    let (arg, rest) := nextArg bytes
    if size < used + 1 + arg.length + 1 then []
    else arg :: copyArgs size count (used + arg.length + 1) rest

def spawnArgs (modname payload : Bytes) : List Bytes :=
  if 88 ≤ payload.length then
    let count := (get16 payload 86).toNat
    let strings := payload.drop 88
    let size := modname.length + 1 + argBytes (min count 6) strings
    copyArgs size (min count 6) modname.length strings
  else []

/-- SPAWN: start a session with a mask within the caller's. -/
def registrySpawn (kernel : Kernel) (env : SvcEnv) (fromSid : UInt32)
    (payload : Bytes) : Reply × Kernel :=
  let caller := kernel.sched.capmaskOf fromSid
  if caller &&& capSpawn = 0 then (.nack, kernel)
  else if payload.length < 84 then (.knack, kernel)
  else
    let want := (get32 payload 80).toUInt64
    if want &&& ~~~caller ≠ 0 then (.knack, kernel)
    else if env.argvAlloc = false then (.knack, kernel)
    else
      let modname := cstr (payload.take 16)
      let program := modname.take 15
      let (spawned, sched) :=
        kernel.sched.spawnImage env.spawn modname (kernel.sched.uidOf fromSid) want modname
          (program :: spawnArgs program payload)
      (.answer 4 (statusBody (match spawned with
          | none => -1
          | some slot => slot)),
        { kernel with sched := sched })

/--
LOGIN: give the session of a name an owner and a mask.  Only the owner of the
login port gets this far, so the last clause of the minting check never
refuses anything.
-/
def registryLogin (kernel : Kernel) (fromSid : UInt32) (payload : Bytes) : Reply × Kernel :=
  if kernel.isLogin fromSid = false then (.knack, kernel)
  else if payload.length < 24 then (.knack, kernel)
  else
    let tname := cstr (payload.take 16)
    let nuid := get32 payload 16
    let nmask := (get32 payload 20).toUInt64
    let caller := kernel.sched.capmaskOf fromSid
    if nmask &&& ~~~caller ≠ 0 ∧ kernel.sched.isInit fromSid = false ∧
        kernel.isLogin fromSid = false then
      (.knack, kernel)
    else
      match kernel.sched.sessionByName tname with
      | none => (.knack, kernel)
      | some slot =>
        let target := ofNat slot
        let identified := kernel.sched.setIdentity target nuid nmask
        let sched :=
          if identified.isInit fromSid then (identified.setCapmask target 0 nmask capSrcInit).2
          else identified
        (.answer 5 (put32 0), { kernel with sched := sched })

/-- SETCONF: the keys that reach the knob table. -/
def registrySetconf (kernel : Kernel) (fromSid : UInt32) (payload : Bytes) : Reply × Kernel :=
  if kernel.sched.capmaskOf fromSid &&& capConf = 0 then (.knack, kernel)
  else if payload.length < 24 then (.knack, kernel)
  else
    let key := cstr (payload.take 16)
    let value := get64 payload 16
    let sched :=
      if key = ascii "log_level" then (kernel.sched.knobSet (UInt8.ofNat knobLogLevel) value).2
      else if key = ascii "audit_mask" then
        (kernel.sched.knobSet (UInt8.ofNat knobAuditMask) value).2
      else kernel.sched
    (.answer 6 (put32 0), { kernel with sched := sched })

def registryAssignPci (kernel : Kernel) (env : SvcEnv) (fromSid : UInt32)
    (payload : Bytes) : Reply :=
  if kernel.sched.capmaskOf fromSid &&& capDevman = 0 then .knack
  else if payload.length < 7 then .knack
  else .answer 7 (put32 env.assignPci)

/-- CHCAPS: clear, then set bits of a session's mask. -/
def registryChcaps (kernel : Kernel) (fromSid : UInt32) (payload : Bytes) : Reply × Kernel :=
  if kernel.sched.capmaskOf fromSid &&& capPower = 0 then (.knack, kernel)
  else if payload.length < 12 then (.knack, kernel)
  else
    let (status, sched) :=
      kernel.sched.setCapmask (get32 payload 0)
        (get32 payload 4).toUInt64 (get32 payload 8).toUInt64 capSrcChcaps
    (.answer 10 (statusBody status), { kernel with sched := sched })

def knobName : UInt8 → Option Bytes
  | 0 => some (ascii "quantum_us")
  | 1 => some (ascii "log_level")
  | 2 => some (ascii "audit_mask")
  | _ => none

/--
KNOBS_GET: the value and the name of a knob.  Sixteen bytes are copied from
the name, whatever follows it in memory included.
-/
def registryKnobsGet (kernel : Kernel) (env : SvcEnv) (payload : Bytes) : Reply :=
  if payload.length < 1 then .knack
  else
    let index := payload.getD 0 0
    .answer 11 (put32 0 ++ put64 (kernel.sched.knobGet index) ++
      match knobName index with
      | some key => (key ++ [0] ++ env.garbage).take 16
      | none => List.replicate 16 0)

def registryKnobsSet (kernel : Kernel) (fromSid : UInt32) (payload : Bytes) : Reply × Kernel :=
  if kernel.sched.capmaskOf fromSid &&& capConf = 0 then (.knack, kernel)
  else if payload.length < 9 then (.knack, kernel)
  else
    let (status, sched) := kernel.sched.knobSet (payload.getD 0 0) (get64 payload 1)
    (.answer 12 (statusBody status), { kernel with sched := sched })

/-- Serve one request to the registry. -/
def registry (kernel : Kernel) (env : SvcEnv) (fromSid : UInt32) (op : UInt16)
    (payload : Bytes) : Reply × Kernel :=
  match op with
  | 1 => (kernel.registryList env, kernel)
  | 2 => (kernel.registryCaps payload, kernel)
  | 3 => kernel.registryKill fromSid payload
  | 4 => kernel.registrySpawn env fromSid payload
  | 5 => kernel.registryLogin fromSid payload
  | 6 => kernel.registrySetconf fromSid payload
  | 7 => (kernel.registryAssignPci env fromSid payload, kernel)
  | 8 => (.answer 8 (put32 0 ++ env.sysstat), kernel)
  | 9 =>
    (.answer 9 (put32 0 ++ env.logdump (if 8 ≤ payload.length then get64 payload 0 else 0)), kernel)
  | 10 => kernel.registryChcaps fromSid payload
  | 11 => (kernel.registryKnobsGet env payload, kernel)
  | 12 => kernel.registryKnobsSet fromSid payload
  | 13 => (.answer 13 (put32 0 ++ env.perfstat), kernel)
  | _ => (.nack, kernel)

def devman (kernel : Kernel) (env : SvcEnv) (fromSid : UInt32) (op : UInt16) : Reply :=
  if kernel.sched.capmaskOf fromSid &&& capDevman = 0 then .nack
  else if op = 1 then .answer 1 env.devices
  else .nack

def power (kernel : Kernel) (fromSid : UInt32) (op : UInt16) : Reply × Kernel :=
  if kernel.sched.capmaskOf fromSid &&& capPower = 0 then (.nack, kernel)
  else if op = 1 ∨ op = 2 then (.answer op (put32 0), { kernel with halted := true })
  else (.nack, kernel)

def serve (kernel : Kernel) (env : SvcEnv) (endpoint : Bytes) (fromSid : UInt32) (op : UInt16)
    (payload : Bytes) : Reply × Kernel :=
  if endpoint = ascii "registry" then kernel.registry env fromSid op payload
  else if endpoint = ascii "devman" then (kernel.devman env fromSid op, kernel)
  else if endpoint = ascii "power" then kernel.power fromSid op
  else (.silent, kernel)

/-- Take a request apart, serve it and answer it. -/
def kernsvcDispatch (kernel : Kernel) (env : SvcEnv) (endpoint : Bytes) (fromSid : UInt32)
    (replyH : Int)
    (data : Bytes) : Kernel :=
  if data.length < 24 then kernel
  else
    let op := get16 data 0
    let seq := get16 data 2
    let route : ReplyRoute := ⟨cstr ((data.drop 8).take 16), fromSid, replyH⟩
    let (reply, served) := kernel.serve env endpoint fromSid op (data.drop 24)
    match reply.frame env op seq with
    | none => served
    | some answer => served.kernsvcReply env route answer

end Kernel

/-! ## The kernel's operations -/

/-- One operation of a session or of the scheduler on the kernel's tables. -/
inductive KernOp where
  | create (sid : UInt32) (name : Bytes)
  | bind (sid : UInt32) (name : Bytes)
  | send (env : SvcEnv) (sid : UInt32) (h : Int) (data : Bytes)
  | recv (sid : UInt32) (h : Int)
  | expect (seq : UInt16) (name : Bytes)
  | poll (seq : UInt16)
  | reclaim (seq : UInt16)
  /-- A session in the table ends its run. -/
  | exit (sid : UInt32)
  | reap
  | preload (name : Bytes)

def Kernel.send (kernel : Kernel) (env : SvcEnv) (sid : UInt32) (h : Int) (data : Bytes) : Kernel :=
  match kernel.ports.portSend (kernel.sched.uidOf sid) env.allocOk sid h data with
  | (.dispatched endpoint frame, _) => kernel.kernsvcDispatch env endpoint sid h frame
  | (_, ports) => { kernel with ports := ports }

/-- The kernel after one operation; a halted kernel does nothing. -/
def KernOp.run (kernel : Kernel) (op : KernOp) : Kernel :=
  if kernel.halted then kernel
  else
    match op with
    | .create sid name =>
      { kernel with ports := (kernel.ports.portCreate (kernel.sched.alive sid) sid name).2 }
    | .bind sid name =>
      { kernel with ports := (kernel.ports.portBind (kernel.sched.alive sid) sid name).2 }
    | .send env sid h data => kernel.send env sid h data
    | .recv sid h => { kernel with ports := (kernel.ports.portRecv sid h).2 }
    | .expect seq name => { kernel with ports := (kernel.ports.fsrouteExpect seq name).2 }
    | .poll seq => { kernel with ports := (kernel.ports.fsroutePoll seq).2 }
    | .reclaim seq => { kernel with ports := kernel.ports.fsrouteReclaim seq }
    | .exit sid =>
      if kernel.sched.occupied sid then { kernel with sched := kernel.sched.exitSession sid.toNat }
      else kernel
    | .reap => { kernel with sched := kernel.sched.reapZombies }
    | .preload name => { kernel with sched := kernel.sched.preloadImage name }

/-! ## What a request can do -/

namespace Sched

variable {sched : Sched}

def nextSlot (sched : Sched) : Option Nat :=
  slots.find? fun slot => (sched.sessions slot).status = .free

/--
What a spawn comes to: nothing, a label on a slot that stays free, or a
session that runs in the next slot.
-/
inductive Spawned (sched : Sched) (name : Bytes) (capmask : UInt64) (argv : List Bytes) :
    Option Nat × Sched → Prop where
  | kept : Spawned sched name capmask argv (none, sched)
  | idle {slot : Nat} {session : Session} (free : (sched.sessions slot).status = .free)
    (still : session.status = .free) (mask : session.capmask = capmask)
    (source : session.capSource = (sched.sessions slot).capSource) :
    Spawned sched name capmask argv (none, sched.setSession slot session)
  | started {slot : Nat} {session : Session} (found : sched.nextSlot = some slot)
    (free : (sched.sessions slot).status = .free) (runs : session.status = .runnable)
    (named : session.name = name.take 15) (mask : session.capmask = capmask)
    (given : session.argv = argv.take 14)
    (source : session.capSource = (sched.sessions slot).capSource) :
    Spawned sched name capmask argv (some slot, sched.setSession slot session)

theorem spawnImpl_spawned (env : SpawnEnv) (name : Bytes) (uid : UInt32) (capmask : UInt64)
    (argv : List Bytes) :
    sched.Spawned name capmask argv (sched.spawnImpl env name uid capmask argv) := by
  unfold spawnImpl
  split
  · exact .kept
  next slot found =>
    have free : (sched.sessions slot).status = .free := by simpa using List.find?_some found
    split
    · exact .idle free free rfl rfl
    split
    · exact .idle free free rfl rfl
    · exact .started found free rfl rfl rfl rfl rfl

theorem spawnImage_spawned (env : SpawnEnv) (name : Bytes) (uid : UInt32) (capmask : UInt64)
    (modname : Bytes) (argv : List Bytes) :
    sched.Spawned name capmask argv (sched.spawnImage env name uid capmask modname argv) := by
  unfold spawnImage
  split
  · exact spawnImpl_spawned env name uid capmask argv
  · exact .kept

theorem knobSet_sessions (index : UInt8) (value : UInt64) :
    (sched.knobSet index value).2.sessions = sched.sessions := by
  unfold knobSet
  split <;> rfl

end Sched

namespace Kernel

variable {kernel : Kernel}

/-- A SPAWN request does nothing, or starts an image with what it read. -/
theorem registrySpawn_cases (kernel : Kernel) (env : SvcEnv) (sid : UInt32) (payload : Bytes) :
    (kernel.registrySpawn env sid payload).2 = kernel ∨ ∃ name uid want modname,
      want &&& ~~~kernel.sched.capmaskOf sid = 0 ∧ (kernel.registrySpawn env sid payload).2 =
        { kernel with
          sched :=
            (kernel.sched.spawnImage env.spawn name uid want modname
              ((cstr (payload.take 16)).take 15 ::
                spawnArgs ((cstr (payload.take 16)).take 15) payload)).2 } := by
  unfold registrySpawn
  dsimp only
  split
  · exact .inl rfl
  split
  · exact .inl rfl
  split
  · exact .inl rfl
  next within =>
  split
  · exact .inl rfl
  · exact .inr ⟨_, _, _, _, not_not.mp within, rfl⟩

/-- What a registry request can make of the kernel. -/
inductive Registered (kernel : Kernel) (env : SvcEnv) (sid : UInt32) (op : UInt16)
    (payload : Bytes) : Kernel → Prop where
  | kept (quiet : ¬(op = 3 ∧ 4 ≤ payload.length)) : Registered kernel env sid op payload kernel
  | killed (kills : op = 3) (long : 4 ≤ payload.length) :
    Registered kernel env sid op payload (kernel.schedKill (get32 payload 0) sid).2
  | spawned {name modname : Bytes} {uid : UInt32} {want : UInt64} {argv : List Bytes}
    (spawns : op = 4) (within : want &&& ~~~kernel.sched.capmaskOf sid = 0) :
    Registered kernel env sid op payload
      { kernel with sched := (kernel.sched.spawnImage env.spawn name uid want modname argv).2 }
  | labelled {slot : Nat} (logs : op = 5) :
    Registered kernel env sid op payload
      { kernel with
        sched :=
          kernel.sched.setIdentity (ofNat slot) (get32 payload 16) (get32 payload 20).toUInt64 }
  | minted {slot : Nat} (logs : op = 5) :
    Registered kernel env sid op payload
      { kernel with
        sched :=
          ((kernel.sched.setIdentity (ofNat slot) (get32 payload 16)
            (get32 payload 20).toUInt64).setCapmask (ofNat slot) 0
            (get32 payload 20).toUInt64 capSrcInit).2 }
  | tuned {index : UInt8} {value : UInt64} (tunes : op = 6 ∨ op = 12) :
    Registered kernel env sid op payload
      { kernel with sched := (kernel.sched.knobSet index value).2 }
  | recapped (changes : op = 10) (powerful : kernel.sched.capmaskOf sid &&& capPower ≠ 0) :
    Registered kernel env sid op payload
      { kernel with
        sched :=
          (kernel.sched.setCapmask (get32 payload 0) (get32 payload 4).toUInt64
            (get32 payload 8).toUInt64 capSrcChcaps).2 }

theorem registry_registered (env : SvcEnv) (sid : UInt32) (op : UInt16) (payload : Bytes) :
    kernel.Registered env sid op payload (kernel.registry env sid op payload).2 := by
  have kept (other : op ≠ 3) : kernel.Registered env sid op payload kernel :=
    .kept fun kills => other kills.1
  unfold registry
  split
  case h_3 =>
    unfold registryKill
    split
    next short => exact .kept fun kills => absurd kills.2 (Nat.not_le.mpr short)
    next long => exact .killed rfl (Nat.le_of_not_lt long)
  case h_4 =>
    rcases registrySpawn_cases kernel env sid payload with same | ⟨_, _, _, _, within, started⟩
    · rw [same]
      exact kept (by decide)
    · rw [started]
      exact .spawned rfl within
  case h_5 =>
    unfold registryLogin
    split
    · exact kept (by decide)
    split
    · exact kept (by decide)
    dsimp only
    split
    · exact kept (by decide)
    split
    · exact kept (by decide)
    split
    · exact .minted rfl
    · exact .labelled rfl
  case h_6 =>
    unfold registrySetconf
    split
    · exact kept (by decide)
    split
    · exact kept (by decide)
    dsimp only
    split
    · exact .tuned (.inl rfl)
    split
    · exact .tuned (.inl rfl)
    · exact kept (by decide)
  case h_10 =>
    unfold registryChcaps
    split
    · exact kept (by decide)
    next powerful =>
    split
    · exact kept (by decide)
    · exact .recapped rfl powerful
  case h_12 =>
    unfold registryKnobsSet
    split
    · exact kept (by decide)
    split
    · exact kept (by decide)
    · exact .tuned (.inr rfl)
  case h_14 => exact kept ‹_›
  all_goals exact kept (by decide)

end Kernel

end KernelLane.Kern
