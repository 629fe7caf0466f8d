import KernelLane.GuestFrame

namespace KernelLane.Kern

/-!
# The session table of the scheduler

Sessions are addressed by their slot number; slot 0 is the kernel and is
never spawned into.  A slot is free, runnable, running or a zombie, and a
zombie's slot is reclaimed by the scheduler loop.  Text messages to the
console, the native engine binding and the register save areas are left out.
-/

def maxSessions : Nat := 12

def maxImages : Nat := 8

/-! ## Capability bits -/

def capKill : UInt64 := (1 : UInt64) <<< 0
def capDevman : UInt64 := (1 : UInt64) <<< 1
def capPower : UInt64 := (1 : UInt64) <<< 2
def capFocus : UInt64 := (1 : UInt64) <<< 3
def capFsadm : UInt64 := (1 : UInt64) <<< 4
def capNetadm : UInt64 := (1 : UInt64) <<< 5
def capSpawn : UInt64 := (1 : UInt64) <<< 6
def capConf : UInt64 := (1 : UInt64) <<< 7
def capPci : UInt64 := (1 : UInt64) <<< 8
def capFb : UInt64 := (1 : UInt64) <<< 9
def capDoorbell : UInt64 := (1 : UInt64) <<< 10
def capVmware : UInt64 := (1 : UInt64) <<< 11
def capPortbind : UInt64 := (1 : UInt64) <<< 12

def capSrcLogin : UInt8 := 0
def capSrcChcaps : UInt8 := 1
def capSrcInit : UInt8 := 2

/-- The state of a session slot. -/
inductive Status where
  | free
  | runnable
  | running
  | zombie
  deriving DecidableEq, Repr

def Status.code : Status → UInt8
  | .free => 0
  | .runnable => 1
  | .running => 2
  | .zombie => 3

/-- One slot of the session table. -/
structure Session where
  uid : UInt32
  capmask : UInt64
  capSource : UInt8
  name : Bytes
  status : Status
  argv : List Bytes
  deriving DecidableEq, Repr

/-- The scheduler's tables. -/
structure Sched where
  sessions : Nat → Session
  /-- The names of the preloaded images, in the order they were loaded. -/
  images : List Bytes
  knobs : Nat → UInt64

def Session.unused : Session := ⟨0, 0, capSrcInit, [], .free, []⟩

def knobCount : Nat := 8
def knobQuantumUs : Nat := 0
def knobLogLevel : Nat := 1
def knobAuditMask : Nat := 2

def schedKnobsInit : Nat → UInt64
  | 0 => 5000
  | 1 => 1
  | 2 => 255
  | _ => 0

def schedInit : Sched where
  sessions := fun _ => Session.unused
  images := []
  knobs := schedKnobsInit

namespace Sched

def occupied (sched : Sched) (sid : UInt32) : Bool :=
  sid.toNat < maxSessions && (sched.sessions sid.toNat).status ≠ .free

def capmaskOf (sched : Sched) (sid : UInt32) : UInt64 :=
  if sched.occupied sid then (sched.sessions sid.toNat).capmask else 0

def uidOf (sched : Sched) (sid : UInt32) : UInt32 :=
  if sched.occupied sid then (sched.sessions sid.toNat).uid else 0

def alive (sched : Sched) (sid : UInt32) : Bool :=
  0 < sid && sched.occupied sid && (sched.sessions sid.toNat).status ≠ .zombie

def isInit (sched : Sched) (sid : UInt32) : Bool :=
  sched.occupied sid && (sched.sessions sid.toNat).name = ascii "init"

def capSource (sched : Sched) (sid : UInt32) : UInt8 :=
  if sched.occupied sid then (sched.sessions sid.toNat).capSource else 0

def live (sched : Sched) (slot : Nat) : Bool :=
  (sched.sessions slot).status = .runnable ||
    (sched.sessions slot).status = .running

def slots : List Nat := List.range' 1 (maxSessions - 1)

def sessionByName (sched : Sched) (name : Bytes) : Option Nat :=
  slots.find? fun slot => sched.live slot && (sched.sessions slot).name = name

def setSession (sched : Sched) (slot : Nat) (session : Session) : Sched :=
  { sched with sessions := Function.update sched.sessions slot session }

def setIdentity (sched : Sched) (sid uid : UInt32) (capmask : UInt64) : Sched :=
  if sched.occupied sid then
    sched.setSession sid.toNat
      { sched.sessions sid.toNat with uid := uid, capmask := capmask, capSource := capSrcLogin }
  else sched

def setCapmask (sched : Sched) (sid : UInt32) (clear set : UInt64) (source : UInt8) : Int × Sched :=
  if sched.occupied sid then
    (0, sched.setSession sid.toNat
      { sched.sessions sid.toNat with
        capmask := ((sched.sessions sid.toNat).capmask &&& ~~~clear) ||| set
        capSource := source })
  else (-1, sched)

/-- What the engine and the memory pool answer while a session starts. -/
structure SpawnEnv where
  engineInit : Bool
  stackAlloc : Bool
  setArgs : Bool
  deriving DecidableEq, Repr

/--
Start a session in the first free slot.  The owner, mask and name are written
before anything can fail; the slot becomes runnable last.
-/
def spawnImpl (sched : Sched) (env : SpawnEnv) (name : Bytes) (uid : UInt32) (capmask : UInt64)
    (argv : List Bytes) : Option Nat × Sched :=
  match slots.find? fun slot => (sched.sessions slot).status = .free with
  | none => (none, sched)
  | some slot =>
    let named : Session :=
      { sched.sessions slot with uid := uid, capmask := capmask, name := name.take 15 }
    if env.engineInit = false ∨ env.stackAlloc = false then (none, sched.setSession slot named)
    else
      let started : Session := { named with argv := argv.take 14 }
      if env.setArgs = false then (none, sched.setSession slot started)
      else (some slot, sched.setSession slot { started with status := .runnable })

def spawnImage (sched : Sched) (env : SpawnEnv) (name : Bytes) (uid : UInt32) (capmask : UInt64)
    (modname : Bytes)
    (argv : List Bytes) : Option Nat × Sched :=
  if modname ∈ sched.images then sched.spawnImpl env name uid capmask argv
  else (none, sched)

def preloadImage (sched : Sched) (name : Bytes) : Sched :=
  if name ∈ sched.images ∨ maxImages ≤ sched.images.length then sched
  else { sched with images := sched.images ++ [name.take 15] }

def exitSession (sched : Sched) (slot : Nat) : Sched :=
  sched.setSession slot { sched.sessions slot with status := .zombie }

def reapZombies (sched : Sched) : Sched :=
  { sched with
    sessions := fun slot =>
      if slot ∈ slots ∧ (sched.sessions slot).status = .zombie then
        { sched.sessions slot with status := .free }
      else sched.sessions slot }

def list (sched : Sched) : List Nat :=
  (List.range maxSessions).filter fun slot => (sched.sessions slot).status ≠ .free

def knobSet (sched : Sched) (index : UInt8) (value : UInt64) : Int × Sched :=
  if index.toNat < knobCount then
    (0, { sched with knobs := Function.update sched.knobs index.toNat value })
  else (-1, sched)

def knobGet (sched : Sched) (index : UInt8) : UInt64 :=
  if index.toNat < knobCount then sched.knobs index.toNat else 0

end Sched

end KernelLane.Kern
