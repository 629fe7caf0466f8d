import KernelLane.TcpSegment

namespace KernelLane.Tcp

/-!
# TCP connections

One connection endpoint with its send queue, its bytes in flight and its
receive stream, and the stack that finds the endpoint of an arriving segment
by its destination port.  What an endpoint hands to the link is kept as a
growing list of addressed segments.  The locks around an endpoint make each
call atomic and have no counterpart here.
-/

/-- An address of four bytes. -/
abbrev IP4 := UInt32

def tcpWindowCap : Nat := 1024

def tcpMaxSeg : Nat := 512

/-- The state of an endpoint. -/
inductive TcpState where
  | closed
  | listen
  | synSent
  | synRcvd
  | established
  | finWait
  | closeWait
  | lastAck
  deriving DecidableEq, Repr

/-- Why an endpoint has ended. -/
inductive ConnErr where
  | connReset
  | remoteClosed
  | closed
  deriving DecidableEq, Repr

/-- One connection endpoint. -/
structure TCPConn where
  localPort : UInt16
  remoteIP : IP4
  remotePort : UInt16
  state : TcpState
  sndUNA : UInt32
  sndNXT : UInt32
  rcvNXT : UInt32
  finSeq : UInt32
  finSent : Bool
  finPending : Bool
  sndBuf : Bytes
  rcvBuf : Bytes
  inFlight : Bytes
  finAckedTheirFin : Bool
  /-- For a listener: the connections in its accept queue. -/
  acceptQueue : Option Nat
  err : Option ConnErr
  /-- Everything handed to the link so far, in order. -/
  wire : List (IP4 × Bytes)
  deriving DecidableEq, Repr

def acceptRoom : Nat := 16

namespace TCPConn

def recv (c : TCPConn) (count : Nat) : Bytes × TCPConn :=
  (c.rcvBuf.take count, { c with rcvBuf := c.rcvBuf.drop count })

def errOf (c : TCPConn) : Option ConnErr :=
  if c.rcvBuf ≠ [] ∧ (c.err = some .remoteClosed ∨ c.err = some .closed) then none
  else c.err

def segment (c : TCPConn) (flags : UInt8) (payload : Bytes) : TCPSegment where
  srcPort := c.localPort
  dstPort := c.remotePort
  seq := c.sndNXT
  ack := c.rcvNXT
  flags :=
    if flags &&& tcpAck ≠ 0 ∨ c.state ≠ .synSent then flags ||| tcpAck
    else flags
  window := UInt16.ofNat (tcpWindowCap - c.inFlight.length)
  payload := payload

/-- Send a segment; SYN and FIN take a sequence number of their own. -/
def sendLocked (c : TCPConn) (flags : UInt8) (payload : Bytes) : TCPConn :=
  { c with
    sndNXT :=
      c.sndNXT + UInt32.ofNat payload.length +
        if flags &&& (tcpSyn ||| tcpFin) ≠ 0 then 1 else 0
    finSeq := if flags &&& tcpFin ≠ 0 then c.sndNXT else c.finSeq
    finSent := c.finSent || flags &&& tcpFin ≠ 0
    inFlight := c.inFlight ++ payload
    wire := c.wire ++ [(c.remoteIP, (c.segment flags payload).build)] }

def nextSize (c : TCPConn) : Nat :=
  min (min tcpMaxSeg c.sndBuf.length) (tcpWindowCap - c.inFlight.length)

def cutSegment (c : TCPConn) : TCPConn :=
  { c with sndBuf := c.sndBuf.drop c.nextSize }.sendLocked 0 (c.sndBuf.take c.nextSize)

/-- The stream is open, something is queued and the window has room. -/
def CanSend (c : TCPConn) : Prop :=
  c.state = .established ∧ 0 < c.sndBuf.length ∧ c.inFlight.length < tcpWindowCap

instance (c : TCPConn) : Decidable c.CanSend := inferInstanceAs (Decidable (_ ∧ _ ∧ _))

def flushTimes : Nat → TCPConn → TCPConn
  | 0, c => c
  | count + 1, c => if c.CanSend then flushTimes count c.cutSegment else c

/-- Cut segments from the queue while the window has room; each takes at
least one byte of the queue. -/
def flushLocked (c : TCPConn) : TCPConn := flushTimes c.sndBuf.length c

theorem flushLocked_invariant (holds : TCPConn → Prop)
    (keeps : ∀ {c}, c.CanSend → holds c → holds c.cutSegment) {c : TCPConn} (start : holds c) :
    holds c.flushLocked := by
  have times (count : Nat) : ∀ c, holds c → holds (flushTimes count c) := by
    induction count with
    | zero => exact fun _ current => current
    | succ count hypothesis =>
      intro c current
      rw [flushTimes]
      split
      next able => exact hypothesis _ (keeps able current)
      · exact current
  exact times _ c start

/-- What sending leaves alone. -/
structure SendFrame (before after : TCPConn) : Prop where
  localPort : after.localPort = before.localPort
  remotePort : after.remotePort = before.remotePort
  sndUNA : after.sndUNA = before.sndUNA
  rcvNXT : after.rcvNXT = before.rcvNXT
  rcvBuf : after.rcvBuf = before.rcvBuf
  finPending : after.finPending = before.finPending
  finAckedTheirFin : after.finAckedTheirFin = before.finAckedTheirFin

variable (c : TCPConn)

theorem SendFrame.refl : SendFrame c c := ⟨rfl, rfl, rfl, rfl, rfl, rfl, rfl⟩

theorem flushLocked_frame : SendFrame c c.flushLocked ∧ c.flushLocked.state = c.state := by
  refine flushLocked_invariant (fun after => SendFrame c after ∧ after.state = c.state) ?_
    ⟨.refl c, rfl⟩
  rintro after _ ⟨frame, state⟩
  exact ⟨⟨frame.localPort, frame.remotePort, frame.sndUNA, frame.rcvNXT,
    frame.rcvBuf, frame.finPending, frame.finAckedTheirFin⟩, state⟩

/-- Queue stream bytes and send what the window allows; fails when the stream
is not open or is being closed. -/
def write (c : TCPConn) (data : Bytes) : Option TCPConn :=
  if c.state ≠ .established ∨ c.finPending then none
  else some { c with sndBuf := c.sndBuf ++ data }.flushLocked

def trySendFinLocked (c : TCPConn) : TCPConn :=
  if c.finPending = false ∨ 0 < c.sndBuf.length ∨ 0 < c.inFlight.length then c
  else
    match c.state with
    | .established => { c with state := .finWait }.sendLocked tcpFin []
    | .closeWait => { c with state := .lastAck }.sendLocked tcpFin []
    | _ => c

theorem trySendFinLocked_frame : SendFrame c c.trySendFinLocked := by
  unfold trySendFinLocked
  split
  · exact .refl c
  split
  · exact ⟨rfl, rfl, rfl, rfl, rfl, rfl, rfl⟩
  · exact ⟨rfl, rfl, rfl, rfl, rfl, rfl, rfl⟩
  · exact .refl c

/-- Begin an orderly teardown; fails before the stream is open and after it
has been closed from this side. -/
def close (c : TCPConn) : Option TCPConn :=
  match c.state with
  | .established => some { c.flushLocked with finPending := true }.trySendFinLocked
  | .closeWait => some { c with finPending := true }.trySendFinLocked
  | .closed => some c
  | _ => none

/-! ## Arriving segments -/

def acknowledges (c : TCPConn) (seg : TCPSegment) : Bool :=
  seg.has tcpAck && seqGE seg.ack c.sndUNA && seqGT seg.ack c.sndUNA && seqGE c.sndNXT seg.ack

def openWindow (c : TCPConn) (ack : UInt32) : TCPConn :=
  { c with
    inFlight :=
      if c.inFlight.length ≤ (ack - c.sndUNA).toNat then []
      else c.inFlight.drop (ack - c.sndUNA).toNat
    sndUNA := ack }

def processAck (c : TCPConn) (seg : TCPSegment) : TCPConn :=
  if c.acknowledges seg then
    let opened := c.openWindow seg.ack
    let flushed :=
      if opened.state = .established then opened.flushLocked else opened
    flushed.trySendFinLocked
  else c

/-- The segment has payload that is next in order. -/
def PayloadInOrder (c : TCPConn) (seg : TCPSegment) : Prop :=
  0 < seg.payload.length ∧ seg.seq = c.rcvNXT

instance (c : TCPConn) (seg : TCPSegment) : Decidable (c.PayloadInOrder seg) :=
  inferInstanceAs (Decidable (_ ∧ _))

def acceptPayload (c : TCPConn) (seg : TCPSegment) : TCPConn :=
  if c.PayloadInOrder seg then
    { c with
      rcvBuf := c.rcvBuf ++ seg.payload
      rcvNXT := c.rcvNXT + UInt32.ofNat seg.payload.length }.sendLocked tcpAck []
  else c

def finInOrder (c : TCPConn) (seg : TCPSegment) : Bool :=
  seg.has tcpFin && seg.seq + UInt32.ofNat seg.payload.length = c.rcvNXT

def acceptFin (c : TCPConn) (seg : TCPSegment) : TCPConn :=
  if c.finInOrder seg then { c with rcvNXT := c.rcvNXT + 1 }.sendLocked tcpAck []
  else c

theorem acceptPayload_state (seg : TCPSegment) : (c.acceptPayload seg).state = c.state := by
  unfold acceptPayload
  split <;> rfl

theorem acceptFin_state (seg : TCPSegment) : (c.acceptFin seg).state = c.state := by
  unfold acceptFin
  split <;> rfl

def handleListen (c : TCPConn) (seg : TCPSegment) : TCPConn :=
  if seg.has tcpSyn ∧ ¬ seg.has tcpAck then
    { c with rcvNXT := seg.seq + 1, state := .synRcvd }.sendLocked (tcpSyn ||| tcpAck) []
  else c

def handleSynSent (c : TCPConn) (seg : TCPSegment) : TCPConn :=
  if seg.has tcpSyn ∧ seg.has tcpAck then
    ({ c with
      rcvNXT := seg.seq + 1
      sndUNA := seg.ack
      inFlight := []
      state := .established }.sendLocked tcpAck []).flushLocked
  else c

def handleSynRcvd (c : TCPConn) (seg : TCPSegment) : TCPConn :=
  if seg.has tcpAck then
    { c with
      state := .established
      acceptQueue :=
        c.acceptQueue.map fun waiting =>
          if waiting < acceptRoom then waiting + 1 else waiting }
  else c

def handleEstablished (c : TCPConn) (seg : TCPSegment) : TCPConn :=
  let taken := c.acceptPayload seg
  if taken.finInOrder seg then
    { taken.acceptFin seg with state := .closeWait, err := some .remoteClosed }
  else taken

def handleFinWait (c : TCPConn) (seg : TCPSegment) : TCPConn :=
  let taken := (c.acceptPayload seg).acceptFin seg
  let finAcked := !taken.finSent || seqGE taken.sndUNA (taken.finSeq + 1)
  let theirFinSeen := seg.has tcpFin || taken.finAckedTheirFin
  let noted := { taken with finAckedTheirFin := theirFinSeen }
  if finAcked && theirFinSeen then { noted with state := .closed, err := some .closed }
  else noted

def handleLastAck (c : TCPConn) (seg : TCPSegment) : TCPConn :=
  if seg.has tcpAck ∧ c.finSent ∧ seqGE c.sndUNA (c.finSeq + 1) then
    { c with state := .closed, err := some .closed }
  else c

def handleState (c : TCPConn) (seg : TCPSegment) : TCPConn :=
  match c.state with
  | .listen => c.handleListen seg
  | .synSent => c.handleSynSent seg
  | .synRcvd => c.handleSynRcvd seg
  | .established => c.handleEstablished seg
  | .finWait => c.handleFinWait seg
  | .lastAck => c.handleLastAck seg
  | .closeWait => c
  | .closed => c

def handle (c : TCPConn) (seg : TCPSegment) : TCPConn :=
  if seg.has tcpRst ∧ c.state ≠ .closed ∧ c.state ≠ .listen then
    { c with state := .closed, err := some .connReset }
  else
    let moved := (c.processAck seg).handleState seg
    -- The segment that completes the handshake may carry payload as well.
    if moved.state = .established then moved.acceptPayload seg else moved

def bindPeer (c : TCPConn) (src : IP4) (seg : TCPSegment) : TCPConn :=
  if c.state = .listen ∧ seg.has tcpSyn ∧ ¬ seg.has tcpAck then
    { c with remoteIP := src, remotePort := seg.srcPort }
  else c

def receive (c : TCPConn) (src : IP4) (seg : TCPSegment) : TCPConn :=
  (c.bindPeer src seg).handle seg

def listening (port : UInt16) : TCPConn where
  localPort := port
  remoteIP := 0
  remotePort := 0
  state := .listen
  sndUNA := 0
  sndNXT := 0
  rcvNXT := 0
  finSeq := 0
  finSent := false
  finPending := false
  sndBuf := []
  rcvBuf := []
  inFlight := []
  finAckedTheirFin := false
  acceptQueue := some 0
  err := none
  wire := []

def dialed (port : UInt16) (raddr : IP4) (rport : UInt16) : TCPConn :=
  { listening port with
    remoteIP := raddr
    remotePort := rport
    state := .synSent
    sndUNA := 1000
    sndNXT := 1000
    acceptQueue := none }.sendLocked tcpSyn []

end TCPConn

/-! ## The stack -/

/-- The endpoints of a host, by local port. -/
structure TCPStack where
  conns : UInt16 → Option TCPConn
  nextEphemeral : UInt16

namespace TCPStack

def setConn (t : TCPStack) (port : UInt16) (c : TCPConn) : TCPStack :=
  { t with conns := Function.update t.conns port (some c) }

def handle (t : TCPStack) (src : IP4) (payload : Bytes) : TCPStack :=
  match parseTCP payload with
  | none => t
  | some seg =>
    match t.conns seg.dstPort with
    | none => t
    | some c => t.setConn seg.dstPort (c.receive src seg)

def listen (t : TCPStack) (port : UInt16) : Option TCPStack :=
  match t.conns port with
  | some _ => none
  | none => some (t.setConn port (.listening port))

def ephemeral (t : TCPStack) : Nat → UInt16 → Option (UInt16 × UInt16)
  | 0, _ => none
  | tries + 1, port =>
    match t.conns port with
    | none => some (port, port + 1)
    | some _ => t.ephemeral tries (port + 1)

def dial (t : TCPStack) (raddr : IP4) (rport : UInt16) : Option (UInt16 × TCPStack) :=
  (t.ephemeral 65536 t.nextEphemeral).map fun (port, next) =>
    (port, { t with nextEphemeral := next }.setConn port (.dialed port raddr rport))

end TCPStack

end KernelLane.Tcp
