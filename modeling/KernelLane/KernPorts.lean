import KernelLane.KernSched

namespace KernelLane.Kern

open GuestFrame List Function

/-!
# Message ports

Datagrams travel through named ports.  Each port owns a ring of message
pointers with a count, a head and a tail; sessions hold handles to ports.  A
send to a kernel endpoint is dispatched inline and never queued, and a
datagram that answers a waiting routed file call is handed to that call
instead of the queue.  The interrupt masks and spin locks around the ring
make each operation atomic and have no counterpart here; the answer of the
heap allocator is an argument.
-/

def maxPorts : Nat := 24
def maxQ : Nat := 32
def msgMax : Nat := 4096
def hPerSess : Nat := 16
def maxPending : Nat := 8
def respMax : Nat := 4096

/-- One queued datagram. -/
structure Msg where
  fromSid : UInt32
  data : Bytes
  deriving DecidableEq, Repr

/-- One port: its name, its creator and its ring. -/
structure Port where
  used : Bool
  kernelEndpoint : Bool
  creator : UInt32
  name : Bytes
  qn : UInt32
  qh : Nat
  qt : Nat
  ring : Nat → Option Msg

/-- A routed call that waits for its reply. -/
structure Pending where
  used : Bool
  seq : UInt16
  name : Bytes
  done : Bool
  resp : Bytes
  deriving DecidableEq, Repr

/-- The ports, the handle tables and the waiting routed calls. -/
structure Ports where
  ports : Nat → Port
  htab : Nat → Nat → Option Nat
  tab : Nat → Pending

def cstr (bytes : Bytes) : Bytes := bytes.takeWhile fun byte => byte ≠ 0

/-! ## Waiting routed calls -/

namespace Ports

def fsrouteExpect (state : Ports) (seq : UInt16) (name : Bytes) : Int × Ports :=
  match (range maxPending).find? fun slot => !(state.tab slot).used with
  | none => (-1, state)
  | some slot =>
    (0, { state with tab := update state.tab slot ⟨true, seq, (cstr name).take 15, false, []⟩ })

def awaitedBy (state : Ports) (name data : Bytes) : Option Nat :=
  (range maxPending).find? fun slot =>
    (state.tab slot).used && !(state.tab slot).done &&
      (state.tab slot).name = name && (state.tab slot).seq = get16 data 2

def fsrouteIntercept (state : Ports) (name data : Bytes) : Bool × Ports :=
  if data.length < 4 then (false, state)
  else
    match state.awaitedBy name data with
    | none => (false, state)
    | some slot =>
      (true, { state with
          tab :=
            update state.tab slot { state.tab slot with resp := data.take respMax, done := true } })

def fsroutePoll (state : Ports) (seq : UInt16) : Option Bytes × Ports :=
  match (range maxPending).find? fun slot =>
    (state.tab slot).used && (state.tab slot).done && (state.tab slot).seq = seq with
  | none => (none, state)
  | some slot =>
    (some (state.tab slot).resp,
      { state with tab := update state.tab slot { state.tab slot with used := false } })

def fsrouteReclaim (state : Ports) (seq : UInt16) : Ports :=
  match (range maxPending).find? fun slot =>
    (state.tab slot).used && (state.tab slot).seq = seq with
  | none => state
  | some slot =>
    { state with tab := update state.tab slot { state.tab slot with used := false, done := false } }

end Ports

/-! ## Ports and handles -/

def Port.unused : Port := ⟨false, false, 0, [], 0, 0, 0, fun _ => none⟩

def Port.endpoint (name : Bytes) : Port :=
  { Port.unused with used := true, kernelEndpoint := true, name := name }

def portsInit : Ports where
  ports := fun index =>
    match index with
    | 0 => .endpoint (ascii "registry")
    | 1 => .endpoint (ascii "devman")
    | 2 => .endpoint (ascii "power")
    | _ => .unused
  htab := fun _ _ => none
  tab := fun _ => ⟨false, 0, [], false, []⟩

namespace Ports

def portOf (state : Ports) (sid : UInt32) (h : Int) : Option Nat :=
  if sid.toNat < maxSessions ∧ 0 ≤ h ∧ h < hPerSess then
    match state.htab sid.toNat h.toNat with
    | none => none
    | some index =>
      if index < maxPorts ∧ (state.ports index).used then some index
      else none
  else none

def portByName (state : Ports) (name : Bytes) : Option Nat :=
  (range maxPorts).find? fun index => (state.ports index).used && (state.ports index).name = name

def setPort (state : Ports) (index : Nat) (port : Port) : Ports :=
  { state with ports := update state.ports index port }

def freeHandle (state : Ports) (sid : UInt32) : Option Nat :=
  (range hPerSess).find? fun h => (state.htab sid.toNat h).isNone

def setHandle (state : Ports) (sid : UInt32) (h index : Nat) : Ports :=
  { state with htab := update state.htab sid.toNat (update (state.htab sid.toNat) h (some index)) }

/-- Create a port of a new name and hand its creator a handle. -/
def portCreate (state : Ports) (alive : Bool) (sid : UInt32) (name : Bytes) : Int × Ports :=
  if name.length = 0 ∨ 15 < name.length ∨ sid = 0 ∨ alive = false then (-1, state)
  else if (state.portByName name).isSome then (-1, state)
  else
    match (range maxPorts).find? fun index => !(state.ports index).used with
    | none => (-1, state)
    | some index =>
      let created : Port :=
        { state.ports index with
          used := true
          kernelEndpoint := false
          creator := sid
          name := cstr name
          qn := 0
          qh := 0
          qt := 0 }
      match state.freeHandle sid with
      | some h => (h, (state.setPort index created).setHandle sid h index)
      | none => (-1, state.setPort index { created with used := false })

def portBind (state : Ports) (alive : Bool) (sid : UInt32) (name : Bytes) : Int × Ports :=
  if sid = 0 ∨ alive = false then (-1, state)
  else
    match state.portByName name with
    | none => (-1, state)
    | some index =>
      match state.freeHandle sid with
      | some h => (h, state.setHandle sid h index)
      | none => (-1, state)

def nameOwnedBy (state : Ports) (sid : UInt32) (name : Bytes) : Bool :=
  if maxSessions ≤ sid.toNat ∨ sid = 0 then false
  else
    (range hPerSess).any fun h =>
      match state.htab sid.toNat h with
      | none => false
      | some index =>
        index < maxPorts && (state.ports index).used && (state.ports index).creator = sid &&
          (state.ports index).name = name

def clearSessionHandles (state : Ports) (sid : UInt32) : Ports :=
  if maxSessions ≤ sid.toNat then state
  else
    { state with
      htab := update state.htab sid.toNat fun _ => none }

end Ports

/-! ## Queues -/

namespace Port

def enqueue (port : Port) (msg : Msg) : Port :=
  { port with
    ring := update port.ring port.qt (some msg)
    qt := (port.qt + 1) % maxQ
    qn := port.qn + 1 }

def dequeue (port : Port) : Port :=
  { port with ring := update port.ring port.qh none, qn := port.qn - 1, qh := (port.qh + 1) % maxQ }

def holdsFrom (port : Port) (sid : UInt32) (slot : Nat) : Bool :=
  match port.ring slot with
  | none => false
  | some msg => msg.fromSid = sid

/--
Drop every datagram of a session.  The slots are cleared where they are; head
and tail stay.
-/
def drain (port : Port) (sid : UInt32) : Port :=
  { port with
    ring := fun slot =>
      if slot < maxQ ∧ port.holdsFrom sid slot then none
      else port.ring slot
    qn := port.qn - UInt32.ofNat ((range maxQ).countP (port.holdsFrom sid)) }

end Port

def stampUid (uid : UInt32) (data : Bytes) : Bytes :=
  if 8 ≤ data.length then data.take 4 ++ put32 uid ++ data.drop 8 else data

/-- What became of a send. -/
inductive SendOutcome where
  | refused
  | wouldBlock
  | dispatched (endpoint : Bytes) (data : Bytes)
  | intercepted
  | queued (index : Nat) (msg : Msg)
  deriving DecidableEq, Repr

def SendOutcome.status : SendOutcome → Int
  | .refused => -1
  | .wouldBlock => -2
  | _ => 0

/-- What became of a receive: the datagram is copied up to a capacity. -/
inductive RecvOutcome where
  | refused
  | empty
  | received (index : Nat) (msg : Msg)
  deriving DecidableEq, Repr

def RecvOutcome.status (cap : Nat) : RecvOutcome → Int
  | .refused => -1
  | .empty => 0
  | .received _ msg => (msg.data.take cap).length

namespace Ports

def enqueueAt (state : Ports) (allocOk : Bool) (index : Nat) (msg : Msg) : SendOutcome × Ports :=
  if UInt32.ofNat maxQ ≤ (state.ports index).qn then (.wouldBlock, state)
  else if allocOk = false then (.refused, state)
  else (.queued index msg, state.setPort index ((state.ports index).enqueue msg))

/-- Send a datagram through a handle. -/
def portSend (state : Ports) (uid : UInt32) (allocOk : Bool) (sid : UInt32) (h : Int)
    (data : Bytes) : SendOutcome × Ports :=
  match state.portOf sid h with
  | none => (.refused, state)
  | some index =>
    if data.length = 0 ∨ msgMax < data.length then (.refused, state)
    else if (state.ports index).kernelEndpoint ∧ sid ≠ 0 then
      (.dispatched (state.ports index).name (stampUid uid data), state)
    else
      match state.fsrouteIntercept (state.ports index).name data with
      | (true, routed) => (.intercepted, routed)
      | (false, _) =>
        state.enqueueAt allocOk index ⟨sid, if sid ≠ 0 then stampUid uid data else data⟩

def enqueueByName (state : Ports) (allocOk : Bool) (name data : Bytes) : SendOutcome × Ports :=
  match state.fsrouteIntercept name data with
  | (true, routed) => (.intercepted, routed)
  | (false, _) =>
    match state.portByName name with
    | none => (.refused, state)
    | some index => state.enqueueAt allocOk index ⟨0, data.take msgMax⟩

def kernelEnqueue (state : Ports) (allocOk : Bool) (sid : UInt32) (h : Int)
    (data : Bytes) : SendOutcome × Ports :=
  match state.portOf sid h with
  | none => (.refused, state)
  | some index =>
    if data.length = 0 ∨ msgMax < data.length then (.refused, state)
    else state.enqueueAt allocOk index ⟨sid, data⟩

def portRecv (state : Ports) (sid : UInt32) (h : Int) : RecvOutcome × Ports :=
  match state.portOf sid h with
  | none => (.refused, state)
  | some index =>
    if (state.ports index).qn = 0 then (.empty, state)
    else
      match (state.ports index).ring (state.ports index).qh with
      | none => (.empty, state)
      | some msg => (.received index msg, state.setPort index (state.ports index).dequeue)

def drainSession (state : Ports) (sid : UInt32) : Ports :=
  { state with
    ports := fun index =>
      if index < maxPorts ∧ (state.ports index).used then (state.ports index).drain sid
      else state.ports index }

end Ports

end KernelLane.Kern
