import KernelLane.FsServer
import KernelLane.KernPorts

namespace KernelLane.Fs

open GuestFrame Kfs List

/-!
# The file client of the guest library

A client sends framed requests to the file server and waits for the reply
with the same sequence number on its own port.  A transfer is cut into
requests of at most 2048 bytes.  Kernel and server are the other end of the
link: the kernel stamps the owner of the client, refuses a datagram that is
too long, and hands the reply to the port that the request names.
-/

/-! ## Datagrams -/

def padName (name : Bytes) : Bytes := name.take 16 ++ replicate (16 - name.length) 0

def frameCanonical (op seq : UInt16) (rname payload : Bytes) : Bytes :=
  put16 op ++ put16 seq ++ put32 0 ++ padName rname ++ payload

/-- The name of a reply port: it fits its field, and no byte ends it early. -/
structure InboxName where
  text : Bytes
  nonempty : text ≠ []
  short : text.length ≤ 16
  noZero : (0 : UInt8) ∉ text

theorem length_padName {name : Bytes} (short : name.length ≤ 16) : (padName name).length = 16 := by
  simp [padName]
  omega

theorem length_frameCanonical {op seq : UInt16} {rname payload : Bytes}
    (short : rname.length ≤ 16) :
    (frameCanonical op seq rname payload).length = 24 + payload.length := by
  simp [frameCanonical, length_padName short]
  omega

theorem cstr16_padName (name : InboxName) : cstr16 (padName name.text) = name.text := by
  have kept : ∀ byte ∈ name.text, decide (byte ≠ 0) = true := by
    intro byte member
    have nonzero : byte ≠ 0 := fun isZero => name.noZero (isZero ▸ member)
    simpa using nonzero
  rw [cstr16, padName, take_of_length_le name.short, takeWhile_append_of_pos kept]
  cases 16 - name.text.length <;> simp [replicate_succ]

theorem parseHeader_fields (op seq : UInt16) (uid : UInt32) (name : InboxName) (payload : Bytes) :
    parseHeader (put16 op ++ (put16 seq ++ (put32 uid ++ (padName name.text ++ payload)))) =
      some ⟨op, seq, uid, name.text⟩ ∧ (put16 op ++ (put16 seq ++ (put32 uid ++
        (padName name.text ++ payload)))).drop canonicalHeaderLen = payload := by
  have padded := length_padName name.short
  constructor
  · have long : ¬(put16 op ++ (put16 seq ++ (put32 uid ++
        (padName name.text ++ payload)))).length < canonicalHeaderLen := by
      simp [padded, canonicalHeaderLen]
      omega
    have opIs := get16_put16 [] op
      (put16 seq ++ (put32 uid ++ (padName name.text ++ payload))) 0 rfl
    have seqIs := get16_put16 (put16 op) seq
      (put32 uid ++ (padName name.text ++ payload)) 2 (by simp)
    have uidIs := get32_put32 (put16 op ++ put16 seq) uid (padName name.text ++ payload) 4 (by simp)
    have nameIs : ((put16 op ++ (put16 seq ++ (put32 uid ++
        (padName name.text ++ payload)))).drop 8).take 16 =
        padName name.text := by
      rw [← append_assoc, ← append_assoc, drop_left' (by simp), take_left' padded]
    rw [nil_append] at opIs
    rw [append_assoc] at uidIs
    rw [parseHeader, if_neg long, opIs, seqIs, uidIs, nameIs, cstr16_padName]
  · rw [← append_assoc, ← append_assoc, ← append_assoc]
    exact drop_left' (by simp [padded, canonicalHeaderLen])

theorem parseHeader_frameCanonical (op seq : UInt16) (uid : UInt32) (name : InboxName)
    (payload : Bytes) : parseHeader (Kern.stampUid uid (frameCanonical op seq name.text payload)) =
      some ⟨op, seq, uid, name.text⟩ ∧
    (Kern.stampUid uid (frameCanonical op seq name.text payload)).drop canonicalHeaderLen =
      payload := by
  have stamped : Kern.stampUid uid (frameCanonical op seq name.text payload) =
      put16 op ++ (put16 seq ++ (put32 uid ++ (padName name.text ++ payload))) := by
    have split : frameCanonical op seq name.text payload = (put16 op ++ put16 seq) ++ (put32 0 ++
        (padName name.text ++ payload)) := by
      simp [frameCanonical]
    rw [split, Kern.stampUid, if_pos (by simp; omega), take_left' (by simp), ← append_assoc,
      drop_left' (by simp)]
    simp
  rw [stamped]
  exact parseHeader_fields op seq uid name payload

/-! ## Statuses -/

/-- The errors of the library. -/
inductive ClientError where
  | badHandle
  | short
  | noReply
  | crashed
  | io
  | noEntry
  | exists
  | notDir
  | isDir
  | noSpace
  | badName
  | notEmpty
  | range
  | access
  deriving DecidableEq, Repr

/-- The error of a status; nothing when it is no error. -/
def fsErr (status : Int) : Option ClientError :=
  if status = fsOK then none
  else if status = fsNoEntry then some .noEntry
  else if status = fsExists then some .exists
  else if status = fsNotDir then some .notDir
  else if status = fsIsDir then some .isDir
  else if status = fsNoSpace then some .noSpace
  else if status = fsBadName then some .badName
  else if status = fsNotEmpty then some .notEmpty
  else if status = fsRange then some .range
  else if status = fsAccess then some .access
  else some .io

def int32 (word : UInt32) : Int := Int.bmod word.toNat (2 ^ 32)

def splitReply (rep : Bytes) : Option (Int × Bytes) :=
  if rep.length < 28 then none else some (int32 (get32 rep 24), rep.drop 28)

/-! ## Requests -/

/-- A client of the file server: its owner and its reply port. -/
structure FSClient where
  uid : UInt32
  inbox : InboxName

/-- The client's sequence number and the server at the other end. -/
structure Link (State : Type) where
  seq : UInt16
  server : Server State

section Transfers

variable {State : Type} (go : GoStrings) (store : Store State)

/--
One round trip.  The kernel refuses a datagram that is too long; a reply
counts when it fits a datagram, goes to the client's port and has the
sequence number of the request.
-/
def inboxRequest (client : FSClient) (op : UInt16) (payload : Bytes)
    (link : Link State) : Except ClientError Bytes × Link State :=
  let seq := link.seq + 1
  let req := frameCanonical op seq client.inbox.text payload
  if maxMsg < req.length then (.error .badHandle, ⟨seq, link.server⟩)
  else
    match dispatch go store (Kern.stampUid client.uid req) link.server with
    | (none, server) => (.error .noReply, ⟨seq, server⟩)
    | (some (rep, port), server) =>
      if maxMsg < rep.length ∨ port ≠ client.inbox.text then (.error .noReply, ⟨seq, server⟩)
      else if rep.length < canonicalHeaderLen then (.error .short, ⟨seq, server⟩)
      else if get16 rep 2 = seq then (.ok rep, ⟨seq, server⟩)
      else (.error .noReply, ⟨seq, server⟩)

def maxReadChunk : Nat := maxMsg - 4096 / 2

def readPayload (path : Bytes) (off : UInt64) (count : Nat) : Bytes :=
  appendLStr path ++ (put64 off ++ put16 (UInt16.ofNat count))

def writePayload (path : Bytes) (off : UInt64) (data : Bytes) : Bytes :=
  appendLStr path ++ (put64 off ++ (put16 (UInt16.ofNat data.length) ++ data))

/--
The loop of `ReadFile` with the bytes read so far.  It ends at the latest
when the buffer is full, and every turn that goes on has read a byte.
-/
def readLoop (client : FSClient) (path : Bytes) (off : UInt64) (length : Nat) :
    Nat → Bytes → Link State → (Bytes × Option ClientError) × Link State
  | 0, bytes, link => ((bytes, none), link)
  | fuel + 1, bytes, link =>
    if length ≤ bytes.length then ((bytes, none), link)
    else
      let count := min (length - bytes.length) maxReadChunk
      match inboxRequest go store client opFSRead
        (readPayload path (off + UInt64.ofNat bytes.length) count) link
      with
      | (.error failure, link) => ((bytes, some failure), link)
      | (.ok rep, link) =>
        match splitReply rep with
        | none => ((bytes, some .short), link)
        | some (status, rest) =>
          if status ≠ fsOK then ((bytes, if bytes = [] then fsErr status else none), link)
          else if rest.length < 2 then ((bytes, some .short), link)
          else
            let got := (get16 rest 0).toNat
            if got = 0 then ((bytes, none), link)
            else if rest.length < 2 + got then ((bytes, some .crashed), link)
            else
              let copied := ((rest.drop 2).take got).take (length - bytes.length)
              if copied.length < got ∨ got < count then ((bytes ++ copied, none), link)
              else readLoop client path off length fuel (bytes ++ copied) link

def FSClient.readFile (client : FSClient) (path : Bytes) (off : UInt64)
    (length : Nat) (link : Link State) :
    (Bytes × Option ClientError) × Link State :=
  readLoop go store client path off length length [] link

/--
The loop of `WriteFile` with the number of bytes written so far.  Empty data
takes one turn; otherwise every turn writes a byte.
-/
def writeLoop (client : FSClient) (path : Bytes) (off : UInt64) (data : Bytes) :
    Nat → Nat → Link State → (Nat × Option ClientError) × Link State
  | 0, written, link => ((written, none), link)
  | fuel + 1, written, link =>
    if written < data.length ∨ data.length = 0 ∧ written = 0 then
      let count := min (data.length - written) maxReadChunk
      match inboxRequest go store client opFSWrite (writePayload path (off + UInt64.ofNat written)
        ((data.drop written).take count)) link
      with
      | (.error failure, link) => ((written, some failure), link)
      | (.ok rep, link) =>
        match splitReply rep with
        | none => ((written, some .short), link)
        | some (status, _) =>
          if status ≠ fsOK then ((written, fsErr status), link)
          else if data.length = 0 then ((written + count, none), link)
          else writeLoop client path off data fuel (written + count) link
    else ((written, none), link)

def FSClient.writeFile (client : FSClient) (path : Bytes) (off : UInt64)
    (data : Bytes) (link : Link State) :
    (Nat × Option ClientError) × Link State :=
  writeLoop go store client path off data (data.length + 1) 0 link

end Transfers

end KernelLane.Fs
