import KernelLane.KernPorts
import KernelLane.TcpConn

namespace KernelLane.Net

open GuestFrame Kern Tcp List UInt16

/-!
# Receiving from a socket of the net service

The service takes bytes out of a stream when it is asked for them and puts
them into one datagram.  A datagram that is too long is refused by the port,
and one that comes when the client has stopped polling is never looked at; in
both cases the bytes are in no buffer any more.
-/

def netOpRecv : UInt16 := 4
def netStatusOK : UInt32 := 0
def errNoSuchSock : UInt32 := UInt32.ofInt (-1)
def errBadOp : UInt32 := UInt32.ofInt (-2)

/-- A TCP socket; without a connection before one is made or accepted. -/
structure NetSocket where
  tcp : Option TCPConn

def reply (op seq : UInt16) (status : UInt32) (body : Bytes) : Bytes :=
  put16 op ++ put16 seq ++ replicate 20 0 ++ put32 status ++ body

def counted (data : Bytes) : Bytes := put16 (ofNat data.length) ++ data

/--
Serve a receive request with the socket that the table has for its number.  A
socket without a connection answers as one that has no bytes: the status of
the inner switch is overwritten.
-/
def dispatchRecv (seq : UInt16) (payload : Bytes) (sk : Option NetSocket) :
    Bytes × Option NetSocket :=
  if payload.length < 4 then (reply netOpRecv seq errBadOp [], sk)
  else
    match sk with
    | none => (reply netOpRecv seq errNoSuchSock [], none)
    | some socket =>
      match socket.tcp with
      | none => (reply netOpRecv seq netStatusOK (counted []), some socket)
      | some conn =>
        let (data, conn) := conn.recv (get16 payload 2).toNat
        (reply netOpRecv seq netStatusOK (counted data), some ⟨some conn⟩)

/-- What a client sees go wrong. -/
inductive NetError where
  | noReply
  | short
  | noSuchSock
  | badOp
  | state
  deriving DecidableEq, Repr

/-- One call of `Recv`. -/
structure RecvCall where
  sock : UInt16
  /-- The length of the buffer. -/
  length : Nat
  seq : UInt16
  /-- The service answers before the client stops polling. -/
  inTime : Bool

def RecvCall.cnt (call : RecvCall) : Nat := min call.length 0xFFFF

/-- Take a reply apart. -/
def RecvCall.decode (call : RecvCall) (rep : Bytes) : Except NetError Bytes :=
  if rep.length < 28 then .error .short
  else if get32 rep 24 = errNoSuchSock then .error .noSuchSock
  else if get32 rep 24 = errBadOp then .error .badOp
  else if get32 rep 24 ≠ netStatusOK then .error .state
  else if rep.length < 30 then .error .short
  else
    let got := min (get16 rep 28).toNat call.length
    if call.cnt = 0 ∧ got = 0 then .error .state
    else .ok ((rep.drop 30).take got)

def RecvCall.run (call : RecvCall) (sk : Option NetSocket) :
    Except NetError Bytes × Option NetSocket :=
  let (rep, after) := dispatchRecv call.seq (put16 call.sock ++ put16 (ofNat call.cnt)) sk
  if msgMax < rep.length ∨ call.inTime = false then (.error .noReply, after)
  else (call.decode rep, after)

/-! ## Whole histories -/

/-- What happens to a socket. -/
inductive SocketOp where
  /-- Bytes of the stream come in. -/
  | arrive (data : Bytes)
  | recv (call : RecvCall)

/-- A connected socket with what has come in and what the client has got. -/
structure Transfer where
  conn : TCPConn
  stream : Bytes
  returned : Bytes

namespace Transfer

def taken (transfer : Transfer) (call : RecvCall) : Bytes := transfer.conn.rcvBuf.take call.cnt

def bytesOf : Except NetError Bytes → Bytes
  | .ok data => data
  | .error _ => []

/-- One step of a connected socket. -/
def step (transfer : Transfer) : SocketOp → Transfer
  | .arrive data =>
    { transfer with
      conn := { transfer.conn with rcvBuf := transfer.conn.rcvBuf ++ data }
      stream := transfer.stream ++ data }
  | .recv call =>
    let outcome := call.run (some ⟨some transfer.conn⟩)
    { transfer with
      conn := (outcome.2.bind NetSocket.tcp).getD transfer.conn
      returned := transfer.returned ++ bytesOf outcome.1 }

/-- Every byte that came in has been returned or is still there, in order. -/
def Whole (transfer : Transfer) : Prop :=
  transfer.returned ++ transfer.conn.rcvBuf = transfer.stream

/-- The reply with what a call takes fits a datagram and comes in time. -/
def Arrives (transfer : Transfer) (call : RecvCall) : Prop :=
  (transfer.taken call).length + 30 ≤ msgMax ∧ call.inTime = true

/-- A call that takes bytes gets its reply. -/
def Delivers (transfer : Transfer) : SocketOp → Prop
  | .arrive _ => True
  | .recv call => transfer.taken call = [] ∨ transfer.Arrives call

/-- Bytes that came in are neither returned nor there. -/
def Lossy (transfer : Transfer) : Prop :=
  transfer.returned.length + transfer.conn.rcvBuf.length < transfer.stream.length

variable {transfer : Transfer} (call : RecvCall)

theorem length_reply (op seq : UInt16) (status : UInt32) (body : Bytes) :
    (reply op seq status body).length = body.length + 28 := by
  simp [reply]
  omega

theorem length_counted (data : Bytes) : (counted data).length = data.length + 2 := by
  simp [counted, Nat.add_comm]

theorem decode_reply {data : Bytes} (few : data.length ≤ call.cnt) :
    bytesOf (call.decode (reply netOpRecv call.seq netStatusOK (counted data))) = data := by
  have small : data.length < 2 ^ 16 := by
    rw [RecvCall.cnt] at few
    omega
  have parts : reply netOpRecv call.seq netStatusOK (counted data) =
      (put16 netOpRecv ++ put16 call.seq ++ replicate 20 0) ++
        (put32 netStatusOK ++ counted data) := by
    simp [reply]
  have status : get32 (reply netOpRecv call.seq netStatusOK (counted data)) 24 = netStatusOK := by
    rw [parts]
    exact get32_put32 _ _ _ _ (by simp)
  have got : (get16 (reply netOpRecv call.seq netStatusOK (counted data)) 28).toNat =
      data.length := by
    rw [reply, counted, get16_put16 _ _ _ _ (by simp), toNat_ofNat']
    exact Nat.mod_eq_of_lt small
  have length := length_reply netOpRecv call.seq netStatusOK (counted data)
  have body : (reply netOpRecv call.seq netStatusOK (counted data)).drop 30 = data := by
    rw [reply, counted, ← append_assoc]
    exact drop_left' (by simp)
  have within : min data.length call.length = data.length := by
    rw [RecvCall.cnt] at few
    omega
  have long := length_counted data
  unfold RecvCall.decode
  rw [if_neg (by omega), status, if_neg (by decide), if_neg (by decide), if_neg (by decide),
    if_neg (by omega), got, within, body]
  dsimp only
  split
  next nothing => exact (length_eq_zero_iff.mp nothing.2).symm
  · exact take_length

theorem run_connected (conn : TCPConn) : call.run (some ⟨some conn⟩) =
    (if msgMax < (conn.rcvBuf.take call.cnt).length + 30 ∨ call.inTime = false then .error .noReply
      else call.decode (reply netOpRecv call.seq netStatusOK (counted (conn.rcvBuf.take call.cnt))),
      some ⟨some { conn with rcvBuf := conn.rcvBuf.drop call.cnt }⟩) := by
  have asked : (get16 (put16 call.sock ++ put16 (ofNat call.cnt)) 2).toNat = call.cnt := by
    have read := get16_put16 (put16 call.sock) (ofNat call.cnt) [] 2 (by simp)
    rw [append_nil] at read
    rw [read, toNat_ofNat', RecvCall.cnt]
    omega
  have framed : ¬ (put16 call.sock ++ put16 (ofNat call.cnt)).length < 4 := by simp
  have served : dispatchRecv call.seq (put16 call.sock ++ put16 (ofNat call.cnt))
      (some ⟨some conn⟩) =
      (reply netOpRecv call.seq netStatusOK (counted (conn.rcvBuf.take call.cnt)),
        some ⟨some { conn with rcvBuf := conn.rcvBuf.drop call.cnt }⟩) := by
    unfold dispatchRecv
    rw [if_neg framed]
    simp only [asked, TCPConn.recv]
  unfold RecvCall.run
  rw [served]
  dsimp only
  rw [length_reply, length_counted]
  split <;> rfl

theorem step_of_arrives (arrives : transfer.Arrives call) : transfer.step (.recv call) =
    { transfer with
      conn := { transfer.conn with rcvBuf := transfer.conn.rcvBuf.drop call.cnt }
      returned := transfer.returned ++ transfer.taken call } := by
  have accepted : ¬ (msgMax < (transfer.conn.rcvBuf.take call.cnt).length + 30 ∨
      call.inTime = false) := by
    rw [not_or, Nat.not_lt, Bool.not_eq_false]
    exact arrives
  unfold step
  dsimp only
  rw [run_connected, if_neg accepted, decode_reply call (length_take_le ..)]
  rfl

theorem step_of_lost (lost : ¬ transfer.Arrives call) : transfer.step (.recv call) = { transfer with
      conn := { transfer.conn with rcvBuf := transfer.conn.rcvBuf.drop call.cnt } } := by
  have refused : msgMax < (transfer.conn.rcvBuf.take call.cnt).length + 30 ∨
      call.inTime = false := by
    rwa [Arrives, not_and_or, Nat.not_le, Bool.not_eq_true] at lost
  unfold step
  dsimp only
  rw [run_connected, if_pos refused, bytesOf, append_nil]
  rfl

variable {op : SocketOp}

theorem taken_append (transfer : Transfer) :
    transfer.taken call ++ transfer.conn.rcvBuf.drop call.cnt = transfer.conn.rcvBuf :=
  take_append_drop ..

theorem Whole.step (whole : transfer.Whole) (delivers : transfer.Delivers op) :
    (transfer.step op).Whole := by
  cases op with
  | arrive data =>
    change transfer.returned ++ (transfer.conn.rcvBuf ++ data) = transfer.stream ++ data
    rw [← append_assoc, whole]
  | recv call =>
    have parts := transfer.taken_append call
    by_cases arrives : transfer.Arrives call
    · rw [step_of_arrives call arrives, Whole, append_assoc, parts]
      exact whole
    · rw [step_of_lost call arrives, Whole]
      rw [delivers.resolve_right arrives, nil_append] at parts
      rw [parts]
      exact whole

theorem Lossy.step (lossy : transfer.Lossy) (op : SocketOp) : (transfer.step op).Lossy := by
  unfold Lossy at lossy
  cases op with
  | arrive data =>
    change transfer.returned.length + (transfer.conn.rcvBuf ++ data).length <
      (transfer.stream ++ data).length
    rw [length_append, length_append]
    omega
  | recv call =>
    have parts := congrArg List.length (transfer.taken_append call)
    rw [length_append] at parts
    by_cases arrives : transfer.Arrives call
    · rw [step_of_arrives call arrives, Lossy]
      dsimp only
      rw [length_append]
      omega
    · rw [step_of_lost call arrives, Lossy]
      dsimp only
      omega

theorem Lossy.foldl (lossy : transfer.Lossy) (ops : List SocketOp) :
    (ops.foldl Transfer.step transfer).Lossy := by
  induction ops generalizing transfer with
  | nil => exact lossy
  | cons op rest hypothesis => exact hypothesis (lossy.step op)

end Transfer

def Transfer.start (conn : TCPConn) : Transfer := ⟨conn, conn.rcvBuf, []⟩

/-- A listening socket: the endpoint of its port, and whether a request has taken it over. -/
structure ListenSocket where
  conn : TCPConn
  accepted : Bool

namespace ListenSocket

/-- A child in the accept queue becomes the connection of the socket. -/
def pull (sk : ListenSocket) : ListenSocket :=
  match sk.conn.acceptQueue with
  | some (waiting + 1) => ⟨{ sk.conn with acceptQueue := some waiting }, true⟩
  | _ => sk

def recv (sk : ListenSocket) (call : RecvCall) : Except NetError Bytes × ListenSocket :=
  let sk := sk.pull
  let (outcome, after) := call.run (some ⟨if sk.accepted then some sk.conn else none⟩)
  (outcome, { sk with conn := (after.bind NetSocket.tcp).getD sk.conn })

def deliver (sk : ListenSocket) (arrived : List (IP4 × TCPSegment)) : ListenSocket :=
  { sk with conn := arrived.foldl (fun conn (src, seg) => conn.receive src seg) sk.conn }

end ListenSocket

/-- One round of the polling: what has come for the port since the last one. -/
structure Poll where
  arrived : List (IP4 × TCPSegment)
  seq : UInt16
  inTime : Bool

namespace NetListener

variable (sock : UInt16)

/-- A round asks for no bytes. -/
def poll (round : Poll) (sk : ListenSocket) : Except NetError Bytes × ListenSocket :=
  (sk.deliver round.arrived).recv ⟨sock, 0, round.seq, round.inTime⟩

/-- `Accept`, with as many rounds as are given. -/
def accept : List Poll → ListenSocket → Except NetError Unit × ListenSocket
  | [], sk => (.error .noReply, sk)
  | round :: rest, sk =>
    match poll sock round sk with
    | (.ok _, after) => (.ok (), after)
    | (.error .state, after) => accept rest after
    | (.error failure, after) => (.error failure, after)

/-- In some round that is reached a finished handshake waits to be accepted. -/
def completes : List Poll → ListenSocket → Bool
  | [], _ => false
  | round :: rest, sk =>
    0 < (sk.deliver round.arrived).conn.acceptQueue.getD 0 || completes rest (poll sock round sk).2

theorem run_ne_ok (call : RecvCall) (empty : call.length = 0) (sk : Option NetSocket)
    (data : Bytes) : (call.run sk).1 ≠ .ok data := by
  unfold RecvCall.run
  dsimp only
  split
  · simp
  generalize (dispatchRecv _ _ _).1 = rep
  have nothing : call.cnt = 0 ∧ min (get16 rep 28).toNat call.length = 0 := by
    rw [RecvCall.cnt, empty]
    exact ⟨Nat.zero_min _, Nat.min_zero _⟩
  unfold RecvCall.decode
  simp only [if_pos nothing]
  split_ifs <;> simp

theorem accept_ne_ok (rounds : List Poll) (sk : ListenSocket) :
    (accept sock rounds sk).1 ≠ .ok () := by
  induction rounds generalizing sk with
  | nil => simp [accept]
  | cons round rest hypothesis =>
    rw [accept]
    split
    next data after polled =>
      have answer := congrArg Prod.fst polled
      unfold poll ListenSocket.recv at answer
      exact absurd answer (run_ne_ok _ rfl _ data)
    · exact hypothesis _
    · simp

/-- `Accept` finds the connection of a handshake that completes exactly if none does. -/
theorem accept_finds_iff (rounds : List Poll) (sk : ListenSocket) :
    (completes sock rounds sk = true → (accept sock rounds sk).1 = .ok ()) ↔
      completes sock rounds sk = false := by
  constructor
  · intro finds
    rw [← Bool.not_eq_true]
    exact fun completed => accept_ne_ok sock rounds sk (finds completed)
  · intro none completed
    exact absurd (completed.symm.trans none) (by decide)

/-- A handshake in the first two of a hundred rounds; the peer's byte comes with it. -/
theorem accepted_connection_not_returned :
    let quiet : List Poll := replicate 98 ⟨[], 3, true⟩
    let rounds : List Poll := ⟨[(9, ⟨5000, 80, 7, 0, tcpSyn, 1024, []⟩)], 1, true⟩ ::
      ⟨[(9, ⟨5000, 80, 8, 1, tcpAck, 1024, [42]⟩)], 2, true⟩ :: quiet
    completes 1 rounds ⟨.listening 80, false⟩ = true ∧
      (accept 1 rounds ⟨.listening 80, false⟩).1 = .error .noReply ∧
      (accept 1 rounds ⟨.listening 80, false⟩).2.conn.state = .established ∧
      (accept 1 rounds ⟨.listening 80, false⟩).2.conn.rcvBuf = [42] := by
  decide +kernel

end NetListener

end KernelLane.Net
