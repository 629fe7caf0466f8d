import KernelLane.FsPolicy
import KernelLane.KfsStore

namespace KernelLane.Fs

open GuestFrame Kfs Effect Nat KFS

/-!
# The file server

The server receives framed requests, maps their paths through the multiuser
policy, runs them on its store and answers on the port that the request names.
A malformed request is ignored.  The store is anything with the seven
operations of the interface; the log-structured store is one.
-/

/-! ## The store -/

/-- The operations of a store; a read fills at most its buffer. -/
structure Store (State : Type) where
  create : Bytes → Effect State FsError Unit
  mkdir : Bytes → Effect State FsError Unit
  delete : Bytes → Effect State FsError Unit
  stat : Bytes → Effect State FsError StatInfo
  list : Bytes → Effect State FsError (List StatInfo)
  readFile : Bytes → UInt64 → Nat → Effect State FsError Bytes
  writeFile : Bytes → UInt64 → Bytes → Effect State FsError Unit
  readFile_le : ∀ {path off count state bytes after},
    readFile path off count state = (.ok bytes, after) →
    bytes.length ≤ count

variable {off : UInt64} {count : Nat} {bytes : Bytes}

theorem kfsReadInode_le {ino : UInt32} {volume after : KFS} (read : readInode ino off count volume = (.ok bytes, after)) :
    bytes.length ≤ count := by
  unfold readInode at read
  rw [look_bind] at read
  dsimp only at read
  split at read
  · rw [pure_apply] at read
    cases read
    exact zero_le count
  split at read
  · rw [pure_apply] at read
    cases read
    exact (List.length_take_le _ _).trans (min_le_right _ _)
  obtain ⟨replayed, middle, _, later⟩ := bind_eq_ok_iff.mp read
  obtain ⟨_, last, _, returned⟩ := bind_eq_ok_iff.mp later
  rw [pure_apply] at returned
  cases returned
  exact (List.length_take_le _ _).trans (min_le_right _ _)

theorem kfsReadFile_le {path : Bytes} {volume after : KFS} (read : readFile path off count volume = (.ok bytes, after)) :
    bytes.length ≤ count := by
  unfold readFile at read
  split at read
  · rw [pure_apply] at read
    cases read
    exact zero_le count
  rw [look_bind] at read
  obtain ⟨⟨parent, leaf⟩, middle, _, later⟩ := bind_eq_ok_iff.mp read
  cases found : volume.lookup parent leaf with
  | none =>
    simp only [found] at later
    cases later
  | some ino =>
    simp only [found] at later
    split at later
    · cases later
    · exact kfsReadInode_le later

def kfsStore : Store KFS where
  create := create
  mkdir := mkdir
  delete := delete
  stat := fun path volume => (volume.stat path, volume)
  list := fun path volume => (volume.list path, volume)
  readFile := readFile
  writeFile := writeFile
  readFile_le := kfsReadFile_le

/-! ## Requests -/

def maxMsg : Nat := 4096

def canonicalHeaderLen : Nat := 24

/-- The fixed fields of a datagram. -/
structure HeaderView where
  op : UInt16
  seq : UInt16
  uid : UInt32
  rnam : Bytes
  deriving DecidableEq, Repr

def cstr16 (field : Bytes) : Bytes := field.takeWhile fun byte => byte ≠ 0

def parseHeader (bytes : Bytes) : Option HeaderView :=
  if bytes.length < canonicalHeaderLen then none
  else some ⟨get16 bytes 0, get16 bytes 2, get32 bytes 4, cstr16 ((bytes.drop 8).take 16)⟩

variable {req : Bytes} {hdr : HeaderView}

theorem parseHeader_op_uid (parsed : parseHeader req = some hdr) :
    hdr.op = get16 req 0 ∧ hdr.uid = get32 req 4 := by
  unfold parseHeader at parsed
  split at parsed
  · cases parsed
  · cases parsed
    exact ⟨rfl, rfl⟩

def opFSStat : UInt16 := 1
def opFSList : UInt16 := 2
def opFSRead : UInt16 := 3
def opFSWrite : UInt16 := 4
def opFSCreate : UInt16 := 5
def opFSMkdir : UInt16 := 6
def opFSDelete : UInt16 := 7
def opFSRegister : UInt16 := 8

def fsStatus : FsError → Int
  | .noEntry => fsNoEntry
  | .exists => fsExists
  | .notDir => fsNotDir
  | .isDir => fsIsDir
  | .noSpace => fsNoSpace
  | .badName => fsBadName
  | .notEmpt => fsNotEmpty
  | .range => fsRange
  | .kfsBadSB => fsIO
  | .beyondDevice => fsIO
  | .device => fsIO

def statusWord (status : Int) : UInt32 := UInt32.ofNat (status % 2 ^ 32).toNat

/-- An answer: its status and what follows it. -/
structure Answer where
  status : Int
  body : Bytes
  deriving DecidableEq, Repr

def Answer.frame (answer : Answer) (op seq : UInt16) : Bytes :=
  put16 op ++ put16 seq ++ List.replicate 20 0 ++ put32 (statusWord answer.status) ++ answer.body

def refusal (status : Int) : Answer := ⟨status, []⟩

/-- The server: the users and the store. -/
structure Server (State : Type) where
  sessions : Sessions
  state : State

section Dispatch

variable {State : Type} (go : GoStrings) (store : Store State)

def onStore {Result : Type} (effect : Effect State FsError Result)
    (answer : Result → State → Answer × State)
    (state : State) : Answer × State :=
  match effect state with
  | (.ok result, next) => answer result next
  | (.error failure, next) => (refusal (fsStatus failure), next)

def authPath (sessions : Sessions) (uid : UInt32) (payload : Bytes)
    (write : Bool) : Except Int Bytes :=
  match lStr payload 0 with
  | none => .error fsBadName
  | some (path, _) => authorize go sessions uid path write

def serveStat (sessions : Sessions) (uid : UInt32) (payload : Bytes)
    (state : State) : Answer × State :=
  match authPath go sessions uid payload false with
  | .error status => (refusal status, state)
  | .ok path =>
    onStore (store.stat path) (fun info next =>
        (⟨fsOK, put32 info.size ++ [info.attr] ++ put32 info.cluster⟩, next))
      state

def entryRecord (info : StatInfo) : Bytes := appendLStr info.name ++ [info.attr] ++ put32 info.size

def appendEntries : Bytes → List StatInfo → Bytes
  | body, [] => body
  | body, info :: rest =>
    if maxMsg - 16 < body.length + 2 + info.name.length + 5 then body
    else appendEntries (body ++ entryRecord info) rest

def visibleEntries (sessions : Sessions) (uid : UInt32) (path : Bytes)
    (infos : List StatInfo) : List StatInfo :=
  if uid ≠ 0 ∧ path = slash :: homeName then
    match sessions uid with
    | some user => infos.filter fun info => go.equalFold info.name user.name
    | none => []
  else infos

def listBody (infos : List StatInfo) : Bytes :=
  appendEntries (put32 (UInt32.ofNat infos.length)) infos

def serveList (sessions : Sessions) (uid : UInt32) (payload : Bytes)
    (state : State) : Answer × State :=
  match authPath go sessions uid payload false with
  | .error status => (refusal status, state)
  | .ok path =>
    onStore (store.list path) (fun infos next =>
        (⟨fsOK, listBody (visibleEntries go sessions uid path infos)⟩, next))
      state

def readCount (count : UInt16) : Nat := min count.toNat (maxMsg - 16)

/-- Bytes of a file; nothing for a malformed request. -/
def serveRead (sessions : Sessions) (uid : UInt32) (payload : Bytes)
    (state : State) : Option (Answer × State) :=
  match lStr payload 0 with
  | none => none
  | some (raw, plen) =>
    if payload.length < plen + 10 then none
    else
      match authorize go sessions uid raw false with
      | .error status => some (refusal status, state)
      | .ok path =>
        some <|
          onStore (store.readFile path (get64 payload plen) (readCount (get16 payload (plen + 8))))
            (fun bytes next => (⟨fsOK, put16 (UInt16.ofNat bytes.length) ++ bytes⟩, next))
            state

/-- Write bytes of a file; nothing for a malformed request. -/
def serveWrite (sessions : Sessions) (uid : UInt32) (payload : Bytes)
    (state : State) : Option (Answer × State) :=
  match lStr payload 0 with
  | none => none
  | some (raw, plen) =>
    if payload.length < plen + 10 then none
    else
      match authorize go sessions uid raw true with
      | .error status => some (refusal status, state)
      | .ok path =>
        let count := (get16 payload (plen + 8)).toNat
        if payload.length < plen + 10 + count then none
        else
          some <|
            onStore (store.writeFile path (get64 payload plen)
                ((payload.drop (plen + 10)).take count))
              (fun _ next =>
                onStore (store.stat path) (fun info after => (⟨fsOK, put32 info.size⟩, after)) next)
              state

/-- The operations on a path alone; nothing for a malformed request. -/
def servePath (run : Bytes → Effect State FsError Unit) (sessions : Sessions)
    (uid : UInt32) (payload : Bytes) (state : State) :
    Option (Answer × State) :=
  match lStr payload 0 with
  | none => none
  | some (raw, _) =>
    match authorize go sessions uid raw true with
    | .error status => some (refusal status, state)
    | .ok path => some (onStore (run path) (fun _ next => (⟨fsOK, []⟩, next)) state)

/-- Enter a user into the table and provide its home. -/
def serveRegister (uid : UInt32) (payload : Bytes)
    (server : Server State) : Answer × Server State :=
  if uid ≠ 0 then (refusal fsAccess, server)
  else
    let (status, sessions) := registerSession go server.sessions payload
    if status = fsOK then
      match sessions (get32 payload 0) with
      | none => (refusal status, ⟨sessions, server.state⟩)
      | some user =>
        match store.stat (homePath user.name) server.state with
        | (.error .noEntry, next) =>
          (refusal status, ⟨sessions, (store.mkdir (homePath user.name) next).2⟩)
        | (_, next) => (refusal status, ⟨sessions, next⟩)
    else (refusal status, ⟨sessions, server.state⟩)

/-- The answer to an operation on the store; nothing when it is ignored. -/
def serve (op : UInt16) (uid : UInt32) (payload : Bytes)
    (server : Server State) : Option (Answer × Server State) :=
  if op = opFSRegister then some (serveRegister go store uid payload server)
  else
    let served : Option (Answer × State) :=
      if op = opFSStat then some (serveStat go store server.sessions uid payload server.state)
      else if op = opFSList then some (serveList go store server.sessions uid payload server.state)
      else if op = opFSRead then serveRead go store server.sessions uid payload server.state
      else if op = opFSWrite then serveWrite go store server.sessions uid payload server.state
      else if op = opFSCreate then
        servePath go store.create server.sessions uid payload server.state
      else if op = opFSMkdir then servePath go store.mkdir server.sessions uid payload server.state
      else if op = opFSDelete then
        servePath go store.delete server.sessions uid payload server.state
      else none
    served.map fun (answer, state) => (answer, { server with state := state })

/-- Parse one request, run it and render the reply with its port. -/
def dispatch (req : Bytes) (server : Server State) : Option (Bytes × Bytes) × Server State :=
  match parseHeader req with
  | none => (none, server)
  | some hdr =>
    if hdr.rnam = [] then (none, server)
    else
      match serve go store hdr.op hdr.uid (req.drop canonicalHeaderLen) server
      with
      | none => (none, server)
      | some (answer, next) => (some (answer.frame hdr.op hdr.seq, hdr.rnam), next)

end Dispatch

/-! ## Following a request -/

section Requests

variable {State : Type} {go : GoStrings} {store : Store State} {server : Server State}
  {uid : UInt32}
  {payload raw path : Bytes}
  {plen : Nat}

theorem dispatch_of_served {answer : Answer} {after : Server State}
    (parsed : parseHeader req = some hdr) (named : hdr.rnam ≠ [])
    (served : serve go store hdr.op hdr.uid (req.drop canonicalHeaderLen) server =
      some (answer, after)) :
    dispatch go store req server = (some (answer.frame hdr.op hdr.seq, hdr.rnam), after) := by
  simp only [dispatch, parsed, if_neg named, served]

theorem serve_opFSRead : serve go store opFSRead uid payload server =
    (serveRead go store server.sessions uid payload server.state).map
      fun (answer, state) => (answer, { server with state := state }) :=
  rfl

theorem serve_opFSWrite : serve go store opFSWrite uid payload server =
    (serveWrite go store server.sessions uid payload server.state).map
      fun (answer, state) => (answer, { server with state := state }) :=
  rfl

variable (parsed : lStr payload 0 = some (raw, plen))

include parsed

section

variable (complete : plen + 10 ≤ payload.length)
include complete

theorem serve_read (allowed : authorize go server.sessions uid raw false = .ok path) :
    serve go store opFSRead uid payload server = some ((onStore
        (store.readFile path (get64 payload plen) (readCount (get16 payload (plen + 8))))
        (fun bytes next => (⟨fsOK, put16 (UInt16.ofNat bytes.length) ++ bytes⟩, next))
        server.state).map id
      fun state => { server with state := state }) := by
  rw [serve_opFSRead, serveRead, parsed]
  simp only [if_neg (not_lt.mpr complete), allowed]
  rfl

theorem serve_read_denied {status : Int}
    (denied : authorize go server.sessions uid raw false = .error status) :
    serve go store opFSRead uid payload server = some (refusal status, server) := by
  rw [serve_opFSRead, serveRead, parsed]
  simp only [if_neg (not_lt.mpr complete), denied]
  rfl

theorem serve_write_denied {status : Int}
    (denied : authorize go server.sessions uid raw true = .error status) :
    serve go store opFSWrite uid payload server = some (refusal status, server) := by
  rw [serve_opFSWrite, serveWrite, parsed]
  simp only [if_neg (not_lt.mpr complete), denied]
  rfl

end

variable (allowed : authorize go server.sessions uid raw true = .ok path)
include allowed

theorem serve_write (complete : plen + 10 + (get16 payload (plen + 8)).toNat ≤ payload.length) :
    serve go store opFSWrite uid payload server = some ((onStore
        (store.writeFile path (get64 payload plen) ((payload.drop (plen + 10)).take
          (get16 payload (plen + 8)).toNat)) (fun _ next =>
          onStore (store.stat path) (fun info after => (⟨fsOK, put32 info.size⟩, after)) next)
        server.state).map id
      fun state => { server with state := state }) := by
  rw [serve_opFSWrite, serveWrite, parsed]
  simp only [if_neg (show ¬payload.length < plen + 10 by omega), allowed,
    if_neg (not_lt.mpr complete)]
  rfl

theorem serve_write_ignored (header : plen + 10 ≤ payload.length)
    (cut : payload.length < plen + 10 + (get16 payload (plen + 8)).toNat) :
    serve go store opFSWrite uid payload server = none := by
  rw [serve_opFSWrite, serveWrite, parsed]
  simp only [if_neg (not_lt.mpr header), allowed, if_pos cut]
  rfl

theorem serve_create : serve go store opFSCreate uid payload server = some
      ((onStore (store.create path) (fun _ next => (⟨fsOK, []⟩, next)) server.state).map id
        fun state => { server with state := state }) := by
  have run : serve go store opFSCreate uid payload server =
      (servePath go store.create server.sessions uid payload server.state).map
        fun (answer, state) => (answer, { server with state := state }) :=
    rfl
  rw [run, servePath, parsed]
  simp only [allowed]
  rfl

end Requests

end KernelLane.Fs
