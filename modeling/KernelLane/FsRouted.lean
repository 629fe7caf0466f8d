import KernelLane.FsTransfer
import KernelLane.KernMachine

namespace KernelLane.Fs

open GuestFrame Kfs Kern

/-!
# Routed file descriptors

A guest reads and writes an open file through its descriptor.  The bridge
walks the buffers of the call in the guest's memory; the kernel frames each
buffer as a request to the file server at the descriptor's cursor and takes
the reply from the server's datagram.  The frame is built in a buffer of
16384 bytes, but the queue of the server keeps 4096 bytes of a datagram.

The slot for the reply, the place in the server's queue and the server's turn
to run are taken for granted: a call stalls only when its request or its
reply does not arrive.
-/

/-! ## Errors of the imports -/

def errSuccess : Nat := 0
def errAccess : Nat := 2
def errBadf : Nat := 8
def errExist : Nat := 20
def errInval : Nat := 28
def errIo : Nat := 29
def errIsDir : Nat := 31
def errNoEnt : Nat := 44
def errNoSpc : Nat := 51
def errNoSys : Nat := 52
def errNotDir : Nat := 54
def errNotEmpty : Nat := 55

/-- The error number of a status of the server. -/
def errnoForStatus (status : Int) : Nat :=
  if status = fsOK then errSuccess
  else if status = fsNoEntry then errNoEnt
  else if status = fsExists then errExist
  else if status = fsNotDir then errNotDir
  else if status = fsIsDir then errIsDir
  else if status = fsNoSpace then errNoSpc
  else if status = fsBadName ∨ status = fsRange then errInval
  else if status = fsNotEmpty then errNotEmpty
  else if status = fsAccess then errAccess
  else errIo

theorem errnoForStatus_ne_noSys (status : Int) : errnoForStatus status ≠ errNoSys := by
  unfold errnoForStatus
  repeat' split
  all_goals decide

/-! ## Sessions with open files -/

def preopenFd : Int := 3
def maxFds : Int := 64
def maxIo : Nat := 8192
def pathMax : Nat := 192

/-- A guest session, its open files and the server at the other end. -/
structure RoutedSession (State : Type) where
  uid : UInt32
  name : Bytes
  seq : UInt16
  files : Nat → Option Kern.Rfd
  server : Server State
  /-- The session was spawned with a name. -/
  named : cstr name ≠ []
  /-- A path was copied into a buffer with its terminator. -/
  short : ∀ fd file, files fd = some file → file.path.length < pathMax

section Imports

variable {State : Type}

def RoutedSession.rfdOf (session : RoutedSession State) (fd : Int) : Option Kern.Rfd :=
  if fd < preopenFd ∨ maxFds ≤ fd then none else session.files fd.toNat

theorem RoutedSession.rfdOf_short {session : RoutedSession State} {fd : Int} {file : Kern.Rfd}
    (isOpen : session.rfdOf fd = some file) : file.path.length < 192 := by
  unfold rfdOf at isOpen
  split at isOpen
  · cases isOpen
  · exact session.short _ _ isOpen

def RoutedSession.turned (session : RoutedSession State)
    (server : Server State) : RoutedSession State :=
  { session with seq := session.seq + 1, server := server }

/-- Move the cursor of a descriptor. -/
def RoutedSession.advance (session : RoutedSession State) (fd : Int)
    (count : Nat) : RoutedSession State :=
  { session with
    files := fun other =>
      if other = fd.toNat then
        (session.files other).map fun file => { file with off := file.off + UInt64.ofNat count }
      else session.files other
    short := by
      intro other file found
      split at found
      · obtain ⟨old, held, rfl⟩ := Option.map_eq_some_iff.mp found
        exact session.short other old held
      · exact session.short other file found }

variable (go : GoStrings) (store : Store State)

/--
One round trip.  The server's queue keeps the first 4096 bytes of the
request; the server cannot send a reply that is longer, and the reply is
handed over when it has the name and the sequence number of the call.
-/
def fsRoundtrip (op : UInt16) (path payload : Bytes) (session : RoutedSession State) :
    Option Bytes × RoutedSession State :=
  let seq := session.seq + 1
  let request := requestFrame op seq session.uid session.name path payload
  match dispatch go store (request.take msgMax) session.server with
  | (none, server) => (none, session.turned server)
  | (some (rep, port), server) =>
    if msgMax < rep.length ∨ port ≠ (cstr session.name).take 15 ∨ get16 rep 2 ≠ seq then
      (none, session.turned server)
    else (some (rep.take respMax), session.turned server)

/-- Read at the cursor: the bytes that reach the buffer. -/
def fsimportRead (fd : Int) (length : Nat) (session : RoutedSession State) :
    Except Nat Bytes × RoutedSession State :=
  match session.rfdOf fd with
  | none => (.error errBadf, session)
  | some file =>
    let len := min length maxIo
    let payload := put64 file.off ++ put16 (UInt16.ofNat len)
    match fsRoundtrip go store opFSRead file.path payload session with
    | (none, next) => (.error errNoSys, next)
    | (some rep, next) =>
      match splitReply rep with
      | none => (.error errNoSys, next)
      | some (status, body) =>
        if status ≠ fsOK then (.error (errnoForStatus status), next)
        else if body.length < 2 then (.error errIo, next)
        else
          let count := min (min (get16 body 0).toNat len) (body.length - 2)
          (.ok ((body.drop 2).take count), next.advance fd count)

/-- Write at the cursor: the bytes that are reported as written. -/
def fsimportWrite (fd : Int) (data : Bytes) (session : RoutedSession State) :
    Except Nat Nat × RoutedSession State :=
  match session.rfdOf fd with
  | none => (.error errBadf, session)
  | some file =>
    let len := min data.length maxIo
    let payload := put64 file.off ++ put16 (UInt16.ofNat len) ++ data.take len
    match fsRoundtrip go store opFSWrite file.path payload session with
    | (none, next) => (.error errNoSys, next)
    | (some rep, next) =>
      match splitReply rep with
      | none => (.error errNoSys, next)
      | some (status, body) =>
        if status ≠ fsOK then (.error (errnoForStatus status), next)
        else if 4 ≤ body.length then (.ok len, next.advance fd len)
        else (.ok len, next)

/-- The write hook of the engine: the console and the routed files. -/
def ownedWrite (write : Int → Bytes → RoutedSession State → Except Nat Nat × RoutedSession State)
    (fd : Int) (data : Bytes) (session : RoutedSession State) :
    Nat × RoutedSession State :=
  if preopenFd ≤ fd then
    match write fd data session with
    | (.error errno, next) => (errno, next)
    | (.ok _, next) => (errSuccess, next)
  else if fd ≠ 1 ∧ fd ≠ 2 then (errBadf, session)
  else (errSuccess, session)

end Imports

/-! ## The bridge to the guest -/

/-- The hooks that the engine hands to the bridge. -/
structure OwnedHost (Host : Type) where
  write : Int → Bytes → Host → Nat × Host
  readFd : Int → Nat → Host → Except Nat Bytes × Host

/-- How an import ends. -/
inductive RunStatus where
  | completed (errno : Nat)
  | trapped
  deriving DecidableEq, Repr

def memoryRange (memory : Bytes) (address size : Nat) : Prop :=
  address ≤ memory.length ∧ size ≤ memory.length - address

instance (memory : Bytes) (address size : Nat) : Decidable (memoryRange memory address size) :=
  inferInstanceAs (Decidable (_ ∧ _))

def poke (memory : Bytes) (address : Nat) (bytes : Bytes) : Bytes :=
  memory.take address ++ bytes ++ memory.drop (address + bytes.length)

def vectorAt (memory : Bytes) (vector : Nat) : Nat × Nat :=
  ((get32 memory vector).toNat, (get32 memory (vector + 4)).toNat)

def vectorBytes (memory : Bytes) (vector : Nat) : Bytes :=
  (memory.drop (vectorAt memory vector).1).take (vectorAt memory vector).2

def vectorRange (memory : Bytes) (vector : Nat) : Prop :=
  memoryRange memory (vectorAt memory vector).1 (vectorAt memory vector).2

instance (memory : Bytes) (vector : Nat) : Decidable (vectorRange memory vector) :=
  inferInstanceAs (Decidable (memoryRange _ _ _))

/-- How the walk over the buffers of a write ends. -/
inductive Walked where
  | wrote (total : Nat)
  | failed (errno : Nat)
  | trapped
  deriving DecidableEq, Repr

section Bridge

variable {Host : Type} (host : OwnedHost Host)

/-- Write the buffers one after the other. -/
def writeVectors (fd : Int) (memory : Bytes) : Nat → Nat → Nat → Host → Walked × Host
  | 0, _, total, state => (.wrote total, state)
  | remaining + 1, vector, total, state =>
    if ¬vectorRange memory vector then (.trapped, state)
    else
      match host.write fd (vectorBytes memory vector) state with
      | (error, next) =>
        if error ≠ 0 then (.failed error, next)
        else if 2 ^ 32 - 1 - (vectorAt memory vector).2 < total then (.trapped, next)
        else writeVectors fd memory remaining (vector + 8) (total + (vectorAt memory vector).2) next

/-- The arguments of both calls: buffers and where to report the count. -/
structure FdArgs where
  fd : Int
  iovs : UInt32
  count : UInt32
  reported : UInt32

def FdArgs.inRange (args : FdArgs) (memory : Bytes) : Prop :=
  memoryRange memory args.iovs.toNat (args.count.toNat * 8) ∧
    memoryRange memory args.reported.toNat 4

instance (args : FdArgs) (memory : Bytes) : Decidable (args.inRange memory) :=
  inferInstanceAs (Decidable (_ ∧ _))

def fdWrite (args : FdArgs) (memory : Bytes) (state : Host) : (RunStatus × Bytes) × Host :=
  if ¬args.inRange memory then ((.trapped, memory), state)
  else
    match writeVectors host args.fd memory args.count.toNat args.iovs.toNat 0 state
    with
    | (.trapped, next) => ((.trapped, memory), next)
    | (.failed errno, next) => ((.completed errno, memory), next)
    | (.wrote total, next) =>
      ((.completed errSuccess, poke memory args.reported.toNat (put32 (UInt32.ofNat total))), next)

/-- Only the first buffer is filled. -/
def fdRead (args : FdArgs) (memory : Bytes) (state : Host) : (RunStatus × Bytes) × Host :=
  if args.fd < preopenFd then ((.completed errBadf, memory), state)
  else if ¬args.inRange memory then ((.trapped, memory), state)
  else if ¬vectorRange memory args.iovs.toNat then ((.trapped, memory), state)
  else
    let (address, length) := vectorAt memory args.iovs.toNat
    match host.readFd args.fd length state with
    | (.error errno, next) => ((.completed errno, memory), next)
    | (.ok bytes, next) =>
      ((.completed errSuccess, poke (poke memory address bytes) args.reported.toNat
          (put32 (UInt32.ofNat bytes.length))),
        next)

/-- A call on a descriptor. -/
inductive FdCall where
  | read (args : FdArgs)
  | write (args : FdArgs)

def FdCall.run : FdCall → Bytes → Host → (RunStatus × Bytes) × Host
  | .read args => fdRead host args
  | .write args => fdWrite host args

end Bridge

section Hosts

variable {State : Type} (go : GoStrings) (store : Store State)

def routedHost : OwnedHost (RoutedSession State) where
  write := ownedWrite (fsimportWrite go store)
  readFd := fsimportRead go store

/-! ## Exact file I/O -/

/-- Read the file itself, on the path that the policy hands out. -/
def storeRead (uid : UInt32) (raw : Bytes) (off : UInt64) (count : Nat)
    (server : Server State) : Except Int Bytes × Server State :=
  match authorize go server.sessions uid raw false with
  | .error status => (.error status, server)
  | .ok path =>
    match store.readFile path off count server.state with
    | (.ok bytes, next) => (.ok bytes, { server with state := next })
    | (.error failure, next) => (.error (fsStatus failure), { server with state := next })

/-- Write the file itself and look at it, as the server does. -/
def storeWrite (uid : UInt32) (raw : Bytes) (off : UInt64) (data : Bytes)
    (server : Server State) : Except Int Unit × Server State :=
  match authorize go server.sessions uid raw true with
  | .error status => (.error status, server)
  | .ok path =>
    match (store.writeFile path off data >>= fun _ => store.stat path) server.state
    with
    | (.ok _, next) => (.ok (), { server with state := next })
    | (.error failure, next) => (.error (fsStatus failure), { server with state := next })

def readLimit (length : Nat) : Nat := min length (maxMsg - 16)

/--
An exact read: the bytes of the file at the cursor, and the cursor moves by
their number.
-/
def exactRead (fd : Int) (length : Nat) (session : RoutedSession State) :
    Except Nat Bytes × RoutedSession State :=
  match session.rfdOf fd with
  | none => (.error errBadf, session)
  | some file =>
    match storeRead go store session.uid file.path file.off (readLimit length) session.server
    with
    | (.error status, server) => (.error (errnoForStatus status), session.turned server)
    | (.ok bytes, server) => (.ok bytes, (session.turned server).advance fd bytes.length)

/--
An exact write: all bytes go to the file at the cursor, and the cursor moves
by their number.
-/
def exactWrite (fd : Int) (data : Bytes) (session : RoutedSession State) :
    Except Nat Nat × RoutedSession State :=
  match session.rfdOf fd with
  | none => (.error errBadf, session)
  | some file =>
    match storeWrite go store session.uid file.path file.off data session.server
    with
    | (.error status, server) => (.error (errnoForStatus status), session.turned server)
    | (.ok _, server) => (.ok data.length, (session.turned server).advance fd data.length)

def exactHost : OwnedHost (RoutedSession State) where
  write := ownedWrite (exactWrite go store)
  readFd := exactRead go store

/-! ## Calls that fit -/

/-- The reply to a read fits a datagram. -/
def ReplyFits (fd : Int) (length : Nat) (session : RoutedSession State) : Prop :=
  ∀ file bytes, session.rfdOf fd = some file →
    (storeRead go store session.uid file.path file.off (readLimit length)
      session.server).1 = .ok bytes →
    30 + bytes.length ≤ msgMax

/-- The request of a write fits a datagram, or the policy refuses it. -/
def FrameFits (fd : Int) (data : Bytes) (session : RoutedSession State) : Prop :=
  ∀ file target, session.rfdOf fd = some file →
    authorize go session.server.sessions session.uid file.path true = .ok target →
    36 + file.path.length + data.length ≤ msgMax

/-- Every buffer that the walk comes to fits its request. -/
def VectorsFit (fd : Int) (memory : Bytes) : Nat → Nat → Nat → RoutedSession State → Prop
  | 0, _, _, _ => True
  | remaining + 1, vector, total, session =>
    vectorRange memory vector →
    FrameFits go fd (vectorBytes memory vector) session ∧
      (((exactHost go store).write fd (vectorBytes memory vector) session).1 = 0 →
        total + (vectorAt memory vector).2 < 2 ^ 32 →
        VectorsFit fd memory remaining (vector + 8) (total + (vectorAt memory vector).2)
          ((exactHost go store).write fd (vectorBytes memory vector) session).2)

/-- The requests and the reply of a call fit their datagrams. -/
def FdCall.Fits (memory : Bytes) (session : RoutedSession State) : FdCall → Prop
  | .read args =>
    args.inRange memory →
    vectorRange memory args.iovs.toNat →
    ReplyFits go store args.fd (vectorAt memory args.iovs.toNat).2 session
  | .write args =>
    args.inRange memory →
    VectorsFit go store args.fd memory args.count.toNat args.iovs.toNat 0 session

/-! ## Sequences of calls -/

/--
A call in a sequence: what others did to the server before it, and the
guest's memory when it is made.
-/
structure FdTurn (State : Type) where
  elsewhere : Server State → Server State
  memory : Bytes
  call : FdCall

def FdTurn.start (turn : FdTurn State) (session : RoutedSession State) : RoutedSession State :=
  { session with server := turn.elsewhere session.server }

def runTurns (host : OwnedHost (RoutedSession State)) : List (FdTurn State) → RoutedSession State →
    List (RunStatus × Bytes) × RoutedSession State
  | [], session => ([], session)
  | turn :: rest, session =>
    let (result, next) := turn.call.run host turn.memory (turn.start session)
    let (results, last) := runTurns host rest next
    (result :: results, last)

/-- Every call of a sequence fits when it is made. -/
def TurnsFit : List (FdTurn State) → RoutedSession State → Prop
  | [], _ => True
  | turn :: rest, session =>
    turn.call.Fits go store turn.memory (turn.start session) ∧ TurnsFit rest
      (turn.call.run (exactHost go store) turn.memory (turn.start session)).2

end Hosts

end KernelLane.Fs
