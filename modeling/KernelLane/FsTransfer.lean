import KernelLane.FsClient
import KernelLane.FsReached
import KernelLane.FsReplies

namespace KernelLane.Fs

open GuestFrame Kfs List UInt16 Nat KFS

/-!
# Transfers through the file server

A client that reads or writes a file in requests of at most 2048 bytes gets
what one operation of the store would give.  The turns of the client's loops
are followed through the server to the store; there, reads and writes of
adjoining pieces combine.
-/

/-! ## Round trips -/

theorem int32_statusWord {status : Int} (low : -2 ^ 31 ≤ status) (high : status < 2 ^ 31) :
    int32 (statusWord status) = status := by
  have nonneg : 0 ≤ status % 2 ^ 32 := by omega
  have small : (status % 2 ^ 32).toNat < 2 ^ 32 := by omega
  have wrapped : Int.bmod (status % 2 ^ 32) (2 ^ 32) = status := by
    rw [Int.bmod_def]
    omega
  have word : (statusWord status).toNat = (status % 2 ^ 32).toNat := by
    unfold statusWord
    generalize status % 2 ^ 32 = residue at small
    exact UInt32.toNat_ofNat_of_lt' small
  unfold int32
  rw [word, Int.toNat_of_nonneg nonneg]
  exact wrapped

theorem Refuses.status {status : Int} (refuses : Refuses status) :
    int32 (statusWord status) = status ∧ status ≠ fsOK := by
  obtain ⟨low, high⟩ := refuses
  refine ⟨int32_statusWord (by omega) (by omega), ?_⟩
  rintro rfl
  cases high

theorem splitReply_frame (answer : Answer) (op seq : UInt16) : splitReply (answer.frame op seq) =
    some (int32 (statusWord answer.status), answer.body) := by
  have long : ¬(answer.frame op seq).length < 28 := by
    rw [Answer.length_frame]
    omega
  rw [splitReply, if_neg long, Answer.get32_frame]
  exact congrArg _ (congrArg _ (answer.drop_frame op seq 0))

theorem Answer.get16_frame_seq (answer : Answer) (op seq : UInt16) :
    get16 (answer.frame op seq) 2 = seq := by
  exact get16_put16 (put16 op) seq _ 2 (by simp)

theorem writeRequest_fields {raw : Bytes} (short : raw.length < 65536) (off : UInt64)
    (count : UInt16) (data : Bytes) :
    let payload := appendLStr raw ++ (put64 off ++ (put16 count ++ data))
    lStr payload 0 = some (raw, 2 + raw.length) ∧ get64 payload (2 + raw.length) = off ∧
      get16 payload (2 + raw.length + 8) = count ∧
      payload.drop (2 + raw.length + 10) = data ∧
      payload.length = 12 + raw.length + data.length := by
  intro payload
  refine ⟨?_, ?_, ?_, ?_, ?_⟩
  · have parsed := lStr_appendLStr [] raw (put64 off ++ (put16 count ++ data)) 0 rfl short
    simpa [payload] using parsed
  · exact get64_put64 _ _ _ _ (by simp)
  · have counted :=
      get16_put16 (appendLStr raw ++ put64 off) count data (2 + raw.length + 8) (by simp)
    rw [append_assoc] at counted
    exact counted
  · have regrouped : payload = (appendLStr raw ++ (put64 off ++ put16 count)) ++ data := by
      simp [payload]
    rw [regrouped]
    exact drop_left' (by simp)
  · simp [payload]
    omega

section Turns

variable {State : Type} {go : GoStrings} {store : Store State} {client : FSClient}
  {link : Link State}
  {raw target : Bytes}

def Link.turned (link : Link State) (state : State) : Link State :=
  ⟨link.seq + 1, { link.server with state := state }⟩

variable {state : State} {off : UInt64}

theorem inboxRequest_of_served {op : UInt16} {payload : Bytes} {answer : Answer}
    (fits : 24 + payload.length ≤ 4096) (served : serve go store op client.uid payload link.server =
      some (answer, { link.server with state := state })) (small : answer.body.length ≤ 4068) :
    inboxRequest go store client op payload link =
      (.ok (answer.frame op (link.seq + 1)), link.turned state) := by
  obtain ⟨parsed, rest⟩ :=
    parseHeader_frameCanonical op (link.seq + 1) client.uid client.inbox payload
  have answered := dispatch_of_served parsed client.inbox.nonempty (by rw [rest]; exact served)
  have sent : ¬maxMsg < (frameCanonical op (link.seq + 1) client.inbox.text payload).length := by
    rw [length_frameCanonical client.inbox.short]
    unfold maxMsg
    omega
  have length := answer.length_frame op (link.seq + 1)
  simp only [inboxRequest, if_neg sent, answered, Answer.get16_frame_seq]
  rw [if_neg (by simp [maxMsg]; omega)]
  rfl

theorem readPayload_fields (short : raw.length < 65536) (off : UInt64) (count : Nat) :
    lStr (readPayload raw off count) 0 = some (raw, 2 + raw.length) ∧
      get64 (readPayload raw off count) (2 + raw.length) = off ∧
      get16 (readPayload raw off count) (2 + raw.length + 8) = UInt16.ofNat count ∧
      (readPayload raw off count).length = 12 + raw.length := by
  have fields := writeRequest_fields short off (ofNat count) []
  simp only [append_nil] at fields
  obtain ⟨parsed, offIs, countIs, -, length⟩ := fields
  exact ⟨parsed, offIs, countIs, length⟩

theorem readLoop_refused {length fuel : Nat} {sofar : Bytes} {status : Int} {next : Link State}
    (unfinished : sofar.length < length) (refuses : Refuses status)
    (brought : inboxRequest go store client opFSRead
        (readPayload raw (off + UInt64.ofNat sofar.length)
          (min (length - sofar.length) maxReadChunk)) link =
      (.ok ((refusal status).frame opFSRead (link.seq + 1)), next)) :
    readLoop go store client raw off length (fuel + 1) sofar link =
      ((sofar, if sofar = [] then fsErr status else none), next) := by
  obtain ⟨value, bad⟩ := refuses.status
  rw [readLoop, if_neg (by omega)]
  simp [brought, splitReply_frame, refusal, value, bad]

theorem readLoop_full {sofar : Bytes} {length : Nat} (full : length ≤ sofar.length) (fuel : Nat) :
    readLoop go store client raw off length fuel sofar link = ((sofar, none), link) := by
  cases fuel with
  | zero => rfl
  | succ fuel => rw [readLoop, if_pos full]

theorem get16_counted {bytes : Bytes} (short : bytes.length < 65536) :
    (get16 (put16 (ofNat bytes.length) ++ bytes) 0).toNat = bytes.length := by
  have field := get16_put16 [] (ofNat bytes.length) bytes 0 rfl
  rw [nil_append] at field
  rw [field]
  exact toNat_ofNat_of_lt' short

variable (fits : 36 + raw.length ≤ 4096)
include fits

theorem inboxRequest_read_denied {count : Nat} {status : Int}
    (denied : authorize go link.server.sessions client.uid raw false = .error status) :
    inboxRequest go store client opFSRead (readPayload raw off count) link =
      (.ok ((refusal status).frame opFSRead (link.seq + 1)), link.turned link.server.state) := by
  obtain ⟨parsed, _, _, length⟩ := readPayload_fields (by omega : raw.length < 65536) off count
  refine inboxRequest_of_served (by omega) ?_ (zero_le _)
  exact serve_read_denied parsed (by omega) denied

variable (allowed : authorize go link.server.sessions client.uid raw false = .ok target)
include allowed

theorem inboxRequest_read {count : Nat} (piece : count ≤ maxReadChunk) :
    (∀ {bytes}, store.readFile target off count link.server.state = (.ok bytes, state) →
      inboxRequest go store client opFSRead (readPayload raw off count) link = (.ok
        ((⟨fsOK, put16 (ofNat bytes.length) ++ bytes⟩ :
          Answer).frame opFSRead (link.seq + 1)), link.turned state)) ∧
    (∀ {failure}, store.readFile target off count link.server.state = (.error failure, state) →
      inboxRequest go store client opFSRead (readPayload raw off count) link = (.ok
        ((refusal (fsStatus failure)).frame opFSRead (link.seq + 1)), link.turned state)) := by
  obtain ⟨parsed, offIs, countIs, length⟩ :=
    readPayload_fields (by omega : raw.length < 65536) off count
  have small : count ≤ 2048 := piece
  have asked : readCount (ofNat count) = count := by
    rw [readCount, UInt16.toNat_ofNat_of_lt' (small.trans_lt (by decide))]
    exact min_eq_left (small.trans (by decide))
  have served := @serve_read _ go store _ _ _ _ _ _ parsed (by omega) allowed
  rw [offIs, countIs, asked] at served
  constructor
  · intro bytes read
    rw [onStore, read] at served
    refine inboxRequest_of_served (by omega) served ?_
    have bounded := store.readFile_le read
    simp
    omega
  · intro failure read
    rw [onStore, read] at served
    exact inboxRequest_of_served (by omega) served (zero_le _)

theorem readLoop_found {length fuel : Nat} {sofar bytes : Bytes}
    (unfinished : sofar.length < length)
    (read : store.readFile target (off + UInt64.ofNat sofar.length)
        (min (length - sofar.length) maxReadChunk) link.server.state = (.ok bytes, state)) :
    readLoop go store client raw off length (fuel + 1) sofar link =
      if bytes.length < min (length - sofar.length) maxReadChunk then
        ((sofar ++ bytes, none), link.turned state)
      else readLoop go store client raw off length fuel (sofar ++ bytes) (link.turned state) := by
  have brought := (inboxRequest_read fits allowed (Nat.min_le_right _ _)).1 read
  have bounded := store.readFile_le read
  have chunk : maxReadChunk = 2048 := rfl
  have status : int32 (statusWord fsOK) = fsOK := by decide
  have counted := get16_counted (show bytes.length < 65536 by omega)
  have body : (put16 (UInt16.ofNat bytes.length) ++ bytes).drop 2 = bytes :=
    drop_left' (length_put16 _)
  have bodyLength : (put16 (UInt16.ofNat bytes.length) ++ bytes).length = 2 + bytes.length := by
    simp
  have copied : (bytes.take bytes.length).take (length - sofar.length) = bytes := by
    rw [take_length, take_of_length_le (by omega)]
  rw [readLoop, if_neg (by omega)]
  simp only [brought, splitReply_frame, status, ne_eq, not_true_eq_false,
    if_false, counted, body, copied]
  rw [if_neg (by omega)]
  by_cases nothing : bytes.length = 0
  · have empty : bytes = [] := length_eq_zero_iff.mp nothing
    rw [if_pos nothing, if_pos (by omega), empty, append_nil]
  · rw [if_neg nothing, if_neg (by omega)]
    simp

end Turns

/-! ## Reading -/

theorem readLoop_reads {go : GoStrings} {client : FSClient} {raw target : Bytes} {off : UInt64}
    {length fuel : Nat} {sofar rest : Bytes} {link : Link KFS} (fits : 36 + raw.length ≤ 4096)
    (allowed : authorize go link.server.sessions client.uid raw false = .ok target)
    (enough : length ≤ sofar.length + fuel) (unfinished : sofar.length < length)
    (read : (KFS.readFile target (off + UInt64.ofNat sofar.length)
      (length - sofar.length) link.server.state).1 = .ok rest) :
    ∃ after, readLoop go kfsStore client raw off length fuel sofar link =
        ((sofar ++ rest, none), after) ∧ after.server.sessions = link.server.sessions ∧
      SameView link.server.state after.server.state := by
  induction fuel generalizing sofar rest link with
  | zero => omega
  | succ fuel hypothesis =>
    have split : length - sofar.length = min (length - sofar.length) maxReadChunk +
        (length - sofar.length - min (length - sofar.length) maxReadChunk) := by
      omega
    have positive : 0 < maxReadChunk := by decide
    rw [split] at read
    have view :=
      KFS.readFile_sameView link.server.state target (off + UInt64.ofNat sofar.length)
        (min (length - sofar.length) maxReadChunk)
    cases turn : KFS.readFile target (off + UInt64.ofNat sofar.length)
      (min (length - sofar.length) maxReadChunk)
      link.server.state with
    | mk result state =>
    rw [turn] at view
    cases result with
    | error failure =>
      have whole :=
        @KFS.readFile_error _ _ _ _ (min (length - sofar.length) maxReadChunk +
            (length - sofar.length - min (length - sofar.length) maxReadChunk))
          _ (congrArg Prod.fst turn) (by omega)
      rw [read] at whole
      cases whole
    | ok bytes =>
      have bounded := kfsStore.readFile_le turn
      rw [readLoop_found fits allowed unfinished turn]
      by_cases short : bytes.length < min (length - sofar.length) maxReadChunk
      · have whole :=
          KFS.readFile_short (congrArg Prod.fst turn) short (length - sofar.length -
            min (length - sofar.length) maxReadChunk)
        rw [read] at whole
        cases whole
        rw [if_pos short]
        exact ⟨_, rfl, rfl, view⟩
      rw [if_neg short]
      have counted : min (length - sofar.length) maxReadChunk = bytes.length := by omega
      rw [counted] at turn read split
      by_cases last : length - sofar.length - bytes.length = 0
      · rw [last, Nat.add_zero, turn] at read
        cases read
        rw [readLoop_full (by rw [length_append]; omega)]
        exact ⟨_, rfl, rfl, view⟩
      · have nonempty : bytes ≠ [] := by
          rintro rfl
          simp at counted
          omega
        obtain ⟨later, next, whole⟩ := KFS.readFile_continued (congrArg Prod.fst turn) nonempty last
        rw [read] at whole
        cases whole
        have advanced : off + UInt64.ofNat (sofar ++ bytes).length =
            off + UInt64.ofNat sofar.length + UInt64.ofNat bytes.length := by
          rw [length_append, UInt64.ofNat_add, UInt64.add_assoc]
        have remaining : length - (sofar ++ bytes).length =
            length - sofar.length - bytes.length := by
          rw [length_append]
          omega
        obtain ⟨after, ran, sessions, shown⟩ :=
          @hypothesis (sofar ++ bytes) later (link.turned state) allowed
            (by rw [length_append]; omega)
            (by rw [length_append]; omega)
            (by
              rw [advanced, remaining, ← next]
              exact view.readFile _ _ _)
        rw [append_assoc] at ran
        exact ⟨after, ran, sessions, view.trans shown⟩

/-! ## Writing -/

theorem writePayload_fields {raw : Bytes} (short : raw.length < 65536) (off : UInt64) {data : Bytes}
    (piece : data.length ≤ maxReadChunk) :
    lStr (writePayload raw off data) 0 = some (raw, 2 + raw.length) ∧
      get64 (writePayload raw off data) (2 + raw.length) = off ∧
      (get16 (writePayload raw off data) (2 + raw.length + 8)).toNat = data.length ∧
      (writePayload raw off data).drop (2 + raw.length + 10) = data ∧
      (writePayload raw off data).length = 12 + raw.length + data.length := by
  obtain ⟨parsed, offIs, countIs, dataIs, length⟩ :=
    writeRequest_fields short off (ofNat data.length) data
  refine ⟨parsed, offIs, ?_, dataIs, length⟩
  rw [writePayload, countIs]
  exact toNat_ofNat_of_lt' (piece.trans_lt (by decide))

section Writes

variable {go : GoStrings} {client : FSClient} {link : Link KFS} {raw target : Bytes}

variable {off : UInt64} {data : Bytes}

theorem inboxRequest_write_denied {status : Int} (fits : 36 + raw.length + data.length ≤ 4096)
    (piece : data.length ≤ maxReadChunk)
    (denied : authorize go link.server.sessions client.uid raw true = .error status) :
    inboxRequest go kfsStore client opFSWrite (writePayload raw off data) link =
      (.ok ((refusal status).frame opFSWrite (link.seq + 1)), link.turned link.server.state) := by
  obtain ⟨parsed, _, _, _, length⟩ := writePayload_fields (by omega : raw.length < 65536) off piece
  refine inboxRequest_of_served (by omega) ?_ (zero_le _)
  exact serve_write_denied parsed (by omega) denied

theorem writeLoop_refused {fuel written : Nat} {status : Int} {next : Link KFS}
    (unfinished : written < data.length ∨ data.length = 0 ∧ written = 0)
    (refuses : Refuses status) (brought : inboxRequest go kfsStore client opFSWrite
        (writePayload raw (off + UInt64.ofNat written) ((data.drop written).take
          (min (data.length - written) maxReadChunk))) link =
      (.ok ((refusal status).frame opFSWrite (link.seq + 1)), next)) :
    writeLoop go kfsStore client raw off data (fuel + 1) written link =
      ((written, fsErr status), next) := by
  obtain ⟨value, bad⟩ := refuses.status
  rw [writeLoop, if_pos unfinished]
  simp [brought, splitReply_frame, refusal, value, bad]

def transferRoom (length : Nat) : Nat := length + 73 * (length / maxReadChunk + 1)

theorem writeLoop_done (nonempty : data.length ≠ 0) (fuel : Nat) :
    writeLoop go kfsStore client raw off data fuel data.length link =
      ((data.length, none), link) := by
  cases fuel with
  | zero => rfl
  | succ fuel => rw [writeLoop, if_neg (by omega)]

variable (allowed : authorize go link.server.sessions client.uid raw true = .ok target)
include allowed

theorem inboxRequest_write {volume : KFS} (fits : 36 + raw.length + data.length ≤ 4096)
    (piece : data.length ≤ maxReadChunk) :
    (∀ {info}, writeFile target off data link.server.state = (.ok (), volume) →
      volume.stat target = .ok info →
      inboxRequest go kfsStore client opFSWrite (writePayload raw off data) link = (.ok
        ((⟨fsOK, put32 info.size⟩ : Answer).frame opFSWrite (link.seq + 1)), link.turned volume)) ∧
    (∀ {failure}, writeFile target off data link.server.state = (.error failure, volume) →
      inboxRequest go kfsStore client opFSWrite (writePayload raw off data) link = (.ok
        ((refusal (fsStatus failure)).frame opFSWrite (link.seq + 1)), link.turned volume)) := by
  obtain ⟨parsed, offIs, countIs, dataIs, length⟩ :=
    writePayload_fields (by omega : raw.length < 65536) off piece
  have served := @serve_write _ go kfsStore _ _ _ _ _ _ parsed allowed (by omega)
  rw [offIs, countIs, dataIs, take_length] at served
  constructor
  · intro info wrote shown
    have stat : kfsStore.stat target volume = (.ok info, volume) := by
      rw [← shown]
      rfl
    rw [onStore, show kfsStore.writeFile = writeFile from rfl, wrote] at served
    dsimp only at served
    rw [onStore, stat] at served
    exact inboxRequest_of_served (by omega) served (by simp)
  · intro failure refused
    rw [onStore, show kfsStore.writeFile = writeFile from rfl, refused] at served
    exact inboxRequest_of_served (by omega) served (zero_le _)

theorem writeLoop_wrote {off : UInt64} {data : Bytes} {fuel written : Nat} {volume : KFS}
    {info : StatInfo} (fits : 36 + raw.length + min data.length maxReadChunk ≤ 4096)
    (unfinished : written < data.length ∨ data.length = 0 ∧ written = 0)
    (wrote : KFS.writeFile target (off + UInt64.ofNat written) ((data.drop written).take
        (min (data.length - written) maxReadChunk)) link.server.state = (.ok (), volume))
    (shown : volume.stat target = .ok info) :
    writeLoop go kfsStore client raw off data (fuel + 1) written link =
      if data.length = 0 then
        ((written + min (data.length - written) maxReadChunk, none), link.turned volume)
      else
        writeLoop go kfsStore client raw off data fuel
          (written + min (data.length - written) maxReadChunk)
          (link.turned volume) := by
  have pieceLength : ((data.drop written).take (min (data.length - written) maxReadChunk)).length =
      min (data.length - written) maxReadChunk := by
    rw [length_take, length_drop]
    omega
  have brought := (inboxRequest_write allowed (by omega) (by omega)).1 wrote shown
  have status : int32 (statusWord fsOK) = fsOK := by decide
  rw [writeLoop, if_pos unfinished]
  simp [brought, splitReply_frame, status]

theorem writeLoop_writes {ino : UInt32} {node : Inode} {off : UInt64} {data : Bytes}
    {fuel written : Nat} (fits : 36 + raw.length + min data.length maxReadChunk ≤ 4096)
    (reads : link.server.state.LogReads) (names : link.server.state.WriteTarget target ino node)
    (noWrap : off.toNat + data.length < 2 ^ 64) (enough : data.length ≤ written + fuel)
    (unfinished : written < data.length)
    (room : link.server.state.wOff + transferRoom (data.length - written) ≤
      link.server.state.logEnd) :
    ∃ after, writeLoop go kfsStore client raw off data fuel written link =
        ((data.length, none), after) ∧ after.server.sessions = link.server.sessions ∧
      KFS.Written link.server.state after.server.state ino node
        (off + UInt64.ofNat written) (data.drop written) := by
  have chunk : maxReadChunk = 2048 := rfl
  induction fuel generalizing written link node with
  | zero => omega
  | succ fuel hypothesis =>
    have start := Words.toNat_add_ofNat (show off.toNat + written < 2 ^ 64 by omega)
    have pieceLength : ((data.drop written).take
        (min (data.length - written) maxReadChunk)).length =
        min (data.length - written) maxReadChunk := by
      rw [length_take, length_drop]
      omega
    have notSentinel : off + UInt64.ofNat written ≠ truncSent := by
      intro same
      have value : truncSent.toNat = 2 ^ 64 - 1 := by decide
      rw [same] at start
      omega
    unfold transferRoom at room hypothesis
    rw [chunk] at room
    have pieceShort : ((data.drop written).take (min (data.length - written) maxReadChunk)).length ≤
        maxWrite := by
      simp only [maxWrite]
      omega
    obtain ⟨volume, wrote, logged, cursor⟩ := KFS.writeFile_logged reads names pieceShort (by omega)
    have shows := logged.written pieceShort notSentinel (by omega)
    obtain ⟨info, shown⟩ := (logged.target names).stat
    rw [writeLoop_wrote allowed fits (.inl unfinished) wrote shown, if_neg (by omega)]
    by_cases last : data.length - written ≤ maxReadChunk
    · have whole : (data.drop written).take (min (data.length - written) maxReadChunk) =
          data.drop written := by
        refine take_of_length_le ?_
        rw [length_drop]
        omega
      have finished : written + min (data.length - written) maxReadChunk = data.length := by
        omega
      rw [whole] at shows
      rw [finished, writeLoop_done (by omega)]
      exact ⟨_, rfl, rfl, shows⟩
    · have full : min (data.length - written) maxReadChunk = 2048 := by omega
      rw [full] at pieceLength shows cursor ⊢
      have advanced : off + UInt64.ofNat (written + 2048) = off + UInt64.ofNat written +
          UInt64.ofNat ((data.drop written).take 2048).length := by
        rw [pieceLength, UInt64.ofNat_add, UInt64.add_assoc]
      have joined : (data.drop written).take 2048 ++ data.drop (written + 2048) =
          data.drop written := by
        rw [← drop_drop, take_append_drop]
      obtain ⟨after, ran, sessions, later⟩ :=
        @hypothesis (link.turned volume) allowed _ (written + 2048)
          shows.reads (shows.target names) (by omega) (by omega)
          (by
            change volume.wOff + _ ≤ volume.logEnd
            rw [shows.sameEnd, chunk]
            omega)
      refine ⟨after, ran, sessions, ?_⟩
      rw [advanced] at later
      have both := shows.append later (by
        rw [length_drop]
        omega)
      rwa [joined] at both

end Writes

/-! ## Transfers and single operations -/

section Single

variable {State : Type} (go : GoStrings) (store : Store State)

/-- One write of all bytes, on the path that the policy hands out. -/
def oneWrite (uid : UInt32) (raw : Bytes) (off : UInt64) (data : Bytes)
    (server : Server State) : Except Int Unit × Server State :=
  match authorize go server.sessions uid raw true with
  | .error status => (.error status, server)
  | .ok path =>
    match store.writeFile path off data server.state with
    | (.ok _, next) => (.ok (), { server with state := next })
    | (.error failure, next) => (.error (fsStatus failure), { server with state := next })

/-- One read of all bytes, on the path that the policy hands out. -/
def oneRead (uid : UInt32) (raw : Bytes) (off : UInt64) (count : Nat)
    (server : Server State) : Except Int Bytes :=
  if count = 0 then .ok []
  else
    match authorize go server.sessions uid raw false with
    | .error status => .error status
    | .ok path =>
      match (store.readFile path off count server.state).1 with
      | .ok bytes => .ok bytes
      | .error failure => .error (fsStatus failure)

end Single

/--
The client's write returns what one write of the store returns, and leaves a
store that shows the same.
-/
def WritesAlike (go : GoStrings) (client : FSClient) (raw : Bytes)
    (off : UInt64) (data : Bytes) (link : Link KFS) : Prop :=
  let single := oneWrite go kfsStore client.uid raw off data link.server
  let pieces := client.writeFile go kfsStore raw off data link
  pieces.1 = (match single.1 with
      | .ok _ => (data.length, none)
      | .error status => (0, fsErr status)) ∧
    pieces.2.server.sessions = single.2.sessions ∧
    SameView single.2.state pieces.2.server.state

/--
The client's read returns the bytes or the error of one read of the store,
and leaves a store that shows the same.
-/
def ReadsAlike (go : GoStrings) (client : FSClient) (raw : Bytes)
    (off : UInt64) (length : Nat) (link : Link KFS) : Prop :=
  let pieces := client.readFile go kfsStore raw off length link
  pieces.1 = (match oneRead go kfsStore client.uid raw off length link.server with
      | .ok bytes => (bytes, none)
      | .error status => ([], fsErr status)) ∧
    pieces.2.server.sessions = link.server.sessions ∧
    SameView link.server.state pieces.2.server.state

section Alike

variable {go : GoStrings} {client : FSClient} {raw : Bytes} {off : UInt64} {link : Link KFS}

theorem readsAlike (fits : 36 + raw.length ≤ 4096) (length : Nat) :
    ReadsAlike go client raw off length link := by
  unfold ReadsAlike oneRead FSClient.readFile
  by_cases none : length = 0
  · subst none
    exact ⟨rfl, rfl, .refl _⟩
  obtain ⟨fuel, rfl⟩ := Nat.exists_eq_succ_of_ne_zero none
  have start : off + UInt64.ofNat ([] : Bytes).length = off := by simp
  cases allowed : authorize go link.server.sessions client.uid raw false with
  | error status =>
    rw [readLoop_refused (Nat.succ_pos fuel) (authorize_error allowed)
      (inboxRequest_read_denied fits allowed)]
    exact ⟨rfl, rfl, .refl _⟩
  | ok target =>
    dsimp only
    cases whole : (KFS.readFile target off (fuel + 1) link.server.state).1 with
    | ok bytes =>
      have read : (KFS.readFile target (off + UInt64.ofNat ([] : Bytes).length)
          (fuel + 1 - ([] : Bytes).length) link.server.state).1 =
          .ok bytes := by
        rw [start]
        exact whole
      obtain ⟨after, ran, sessions, shown⟩ :=
        @readLoop_reads go client raw target off (fuel + 1) (fuel + 1) []
          bytes link fits allowed (by simp) (Nat.succ_pos fuel) read
      rw [ran, show kfsStore.readFile = KFS.readFile from rfl, whole]
      exact ⟨rfl, sessions, shown⟩
    | error failure =>
      have first :=
        @KFS.readFile_error _ _ _ _ (min (fuel + 1 - 0) maxReadChunk) _
          whole (by unfold maxReadChunk maxMsg; omega)
      have turn : KFS.readFile target (off + UInt64.ofNat ([] : Bytes).length)
            (min (fuel + 1 - ([] : Bytes).length) maxReadChunk)
            link.server.state =
          (.error failure, (KFS.readFile target (off + UInt64.ofNat ([] : Bytes).length)
            (min (fuel + 1 - ([] : Bytes).length) maxReadChunk)
            link.server.state).2) := by
        rw [start]
        exact Prod.ext first rfl
      rw [readLoop_refused (Nat.succ_pos fuel) (refuses_fsStatus failure)
        ((inboxRequest_read fits allowed (Nat.min_le_right _ _)).2 turn),
        show kfsStore.readFile = KFS.readFile from rfl, whole]
      exact ⟨rfl, rfl, KFS.readFile_sameView link.server.state target _ _⟩

theorem writesAlike {data : Bytes} (sound : ServerSound link.server)
    (fits : 36 + raw.length + min data.length maxReadChunk ≤ 4096) (short : data.length ≤ maxWrite)
    (noWrap : off.toNat + data.length < 2 ^ 64)
    (room : link.server.state.wOff + transferRoom data.length ≤ link.server.state.logEnd) :
    WritesAlike go client raw off data link := by
  have start : off + UInt64.ofNat 0 = off := by simp
  have turn : 0 < data.length ∨ data.length = 0 ∧ (0 : Nat) = 0 := by omega
  have pieceLength : ((data.drop 0).take (min (data.length - 0) maxReadChunk)).length =
      min data.length maxReadChunk := by
    rw [length_take, length_drop]
    omega
  unfold WritesAlike oneWrite FSClient.writeFile
  cases allowed : authorize go link.server.sessions client.uid raw true with
  | error status =>
    rw [writeLoop_refused turn (authorize_error allowed)
      (inboxRequest_write_denied (by omega) (by omega) allowed)]
    exact ⟨rfl, rfl, .refl _⟩
  | ok target =>
    dsimp only
    rw [show kfsStore.writeFile = KFS.writeFile from rfl]
    rcases KFS.writeTarget_or_error link.server.state target with
      ⟨ino, node, names⟩ | ⟨failure, refused⟩
    · have enoughRoom := room
      unfold transferRoom at enoughRoom
      rw [show maxReadChunk = 2048 from rfl] at enoughRoom
      obtain ⟨single, wroteSingle, logged, _⟩ :=
        @KFS.writeFile_logged _ _ _ _ _ off sound.reads names short (by omega)
      rw [wroteSingle]
      by_cases empty : data.length = 0
      · have nothing : data = [] := length_eq_zero_iff.mp empty
        subst nothing
        obtain ⟨info, shown⟩ := (logged.target names).stat
        have turned : KFS.writeFile target (off + UInt64.ofNat 0) ((([] : Bytes).drop 0).take
                (min (([] : Bytes).length - 0) maxReadChunk))
              link.server.state =
            (.ok (), single) := by
          rw [start]
          exact wroteSingle
        rw [writeLoop_wrote allowed fits turn turned shown]
        exact ⟨rfl, rfl, .refl _⟩
      · have notSentinel : off ≠ truncSent := by
          intro same
          have value : truncSent.toNat = 2 ^ 64 - 1 := by decide
          rw [same] at noWrap
          omega
        obtain ⟨after, ran, sessions, wrote⟩ :=
          @writeLoop_writes go client link raw target allowed ino node off data
            (data.length + 1) 0 fits sound.reads names noWrap
            (by omega) (by omega) room
        rw [start] at wrote
        rw [ran]
        exact ⟨rfl, sessions, (logged.written short notSentinel noWrap).sameView wrote⟩
    · rw [refused off data, writeLoop_refused turn (refuses_fsStatus failure)
        ((inboxRequest_write allowed (by omega) (by omega)).2 (refused _ _))]
      exact ⟨rfl, rfl, .refl _⟩

end Alike

/--
In every state that a server reaches, a transfer in pieces is one operation of
the store: a read when its requests fit a datagram; a write when moreover its
bytes fit one record, its end fits an offset and the log has room for the
records of the pieces.
-/
theorem chunked_transfer_alike {go : GoStrings} {link : Link KFS} (bounded : go.Bounded)
    (reached : Reached go link.server) (client : FSClient) (raw : Bytes) (off : UInt64) :
    (∀ data : Bytes, 36 + raw.length + min data.length maxReadChunk ≤ maxMsg →
      data.length ≤ maxWrite → off.toNat + data.length < 2 ^ 64 →
      link.server.state.wOff + transferRoom data.length ≤ link.server.state.logEnd →
      WritesAlike go client raw off data link) ∧
    (36 + raw.length ≤ maxMsg → ∀ length, ReadsAlike go client raw off length link) := by
  constructor
  · intro data fits short noWrap room
    exact writesAlike (reached.sound bounded) fits short noWrap room
  · intro fits length
    exact readsAlike fits length

/-! ## A server with one file -/

theorem asciiStrings_bounded : asciiStrings.Bounded := by
  intro text
  change (text.map asciiLower).length ≤ _
  rw [length_map]
  omega

def createRequest : Bytes := frameCanonical opFSCreate 1 (ascii "inbox") (appendLStr onePath)

def newServer (volume : KFS) : Server KFS := ⟨fun _ => none, volume⟩

/-- A server that formatted its volume and created `/f`, by evaluation. -/
theorem exists_created {check : Server KFS → Bool} (evaluated :
      evaluates (fun _ live => check (newServer live)) [.create onePath] zeroDevice) :
    ∃ server, Reached asciiStrings server ∧ check server = true := by
  obtain ⟨_, start, live, _, mounted, run, checked⟩ := of_evaluates evaluated
  refine ⟨newServer live, ?_, checked⟩
  have header : parseHeader createRequest = some ⟨opFSCreate, 1, 0, ascii "inbox"⟩ := rfl
  have parsed : lStr (createRequest.drop canonicalHeaderLen) 0 = some (onePath, 4) := rfl
  have allowed : authorize asciiStrings (fun _ => none) 0 onePath true = .ok onePath := rfl
  have served := @serve_create _ asciiStrings kfsStore (newServer start) _ _ _ _ _ parsed allowed
  have creates : kfsStore.create onePath start = (.ok (), live) := run.single
  rw [onStore, show (newServer start).state = start from rfl, creates] at served
  have reached : Reached asciiStrings (dispatch asciiStrings kfsStore createRequest
      (newServer start)).2 :=
    .served (.mounted mounted) (by decide)
  rwa [dispatch_of_served header (by decide) served] at reached

def rootClient : FSClient := ⟨0, ⟨ascii "inbox", by decide, by decide, by decide⟩⟩

theorem chunked_transfer_alike_of_created : ∃ link : Link KFS,
    (oneWrite asciiStrings kfsStore 0 onePath 0 [1, 2, 3] link.server).1 = .ok () ∧
      WritesAlike asciiStrings rootClient onePath 0 [1, 2, 3] link ∧
      ReadsAlike asciiStrings rootClient onePath 0 5000 link := by
  obtain ⟨server, reached, facts⟩ :=
    @exists_created (fun server => server.state.wOff + 76 ≤ server.state.logEnd ∧
      (oneWrite asciiStrings kfsStore 0 onePath 0 [1, 2, 3] server).1 = .ok ()) (by decide +kernel)
  obtain ⟨room, wrote⟩ := of_decide_eq_true facts
  have both :=
    @chunked_transfer_alike asciiStrings ⟨0, server⟩ asciiStrings_bounded
      reached rootClient onePath 0
  refine ⟨⟨0, server⟩, wrote, both.1 [1, 2, 3] (by decide) (by decide) ?_ room,
    both.2 (by decide) 5000⟩
  exact (by omega : 0 + 3 < 2 ^ 64)

def longPath : Bytes := slash :: (replicate 2100 slash ++ [102])

theorem long_path_not_written : ∃ link : Link KFS, Reached asciiStrings link.server ∧
    ¬WritesAlike asciiStrings rootClient longPath 0 (replicate 2048 0) link := by
  obtain ⟨server, reached, facts⟩ :=
    @exists_created (fun server =>
      (oneWrite asciiStrings kfsStore 0 longPath 0 (replicate 2048 0) server).1 = .ok () ∧
      (rootClient.writeFile asciiStrings kfsStore longPath 0
        (replicate 2048 0) ⟨0, server⟩).1 = (0, some .badHandle)) (by decide +kernel)
  obtain ⟨accepted, failed⟩ := of_decide_eq_true facts
  generalize longPath = path at accepted failed ⊢
  generalize replicate 2048 (0 : UInt8) = data at accepted failed ⊢
  refine ⟨⟨0, server⟩, reached, ?_⟩
  rintro ⟨same, _, _⟩
  rw [failed, show rootClient.uid = 0 from rfl, accepted] at same
  cases congrArg Prod.snd same

theorem le_writeLoop {State : Type} {go : GoStrings} {store : Store State} {client : FSClient}
    {raw : Bytes} {off : UInt64} {data : Bytes} (fuel written : Nat) (link : Link State) :
    written ≤ (writeLoop go store client raw off data fuel written link).1.1 := by
  induction fuel generalizing written link with
  | zero => exact le_refl _
  | succ fuel hypothesis =>
    unfold writeLoop
    split
    · dsimp only
      split
      · exact le_refl _
      split
      · exact le_refl _
      split
      · exact le_refl _
      split
      · exact le_add_right _ _
      · exact (le_add_right _ _).trans (hypothesis _ _)
    · exact le_refl _

theorem full_log_partly_written {data : Bytes} (length : data.length = 600000) :
    ∃ link : Link KFS, Reached asciiStrings link.server ∧
      ¬WritesAlike asciiStrings rootClient onePath 0 data link := by
  obtain ⟨server, reached, facts⟩ :=
    @exists_created (fun server => server.state.wOff + 10000 ≤ server.state.logEnd ∧
      server.state.logEnd = 524288 ∧ server.state.lookup rootIno [102] = some 2 ∧
      server.state.inodes 2 = some ⟨2, 0, kindFile, 0⟩) (by decide +kernel)
  obtain ⟨room, limit, found, recorded⟩ := of_decide_eq_true facts
  have reads := (reached.sound asciiStrings_bounded).reads
  have target : server.state.WriteTarget onePath 2 ⟨2, 0, kindFile, 0⟩ :=
    ⟨⟨rootIno, [102], Tree.walkParent_single (by decide), found⟩, recorded, by decide⟩
  have allowed : authorize asciiStrings server.sessions 0 onePath true = .ok onePath := rfl
  have refused : KFS.writeFile onePath 0 data server.state = (.error .noSpace, server.state) := by
    obtain ⟨⟨parent, leaf, resolved, found⟩, recorded, regularFile⟩ := target
    have size : (dataRecord 2 0 data).size = 600025 := by
      simp [dataRecord, Record.size, hdrLen, length]
    have full : KFS.append (dataRecord 2 0 data) server.state =
        (.error .noSpace, server.state) := by
      have outcome := KFS.append_outcome reads.ready (dataRecord 2 0 data)
      generalize KFS.append (dataRecord 2 0 data) server.state = result at outcome
      cases outcome with
      | full _ => rfl
      | plain | pacedFull | paced => omega
    unfold KFS.writeFile KFS.appendData
    rw [Effect.look_bind, resolved, Effect.ofExcept_ok_bind]
    simp only [found, recorded, if_neg regularFile]
    rw [Effect.bind_of_error full]
  have single : (oneWrite asciiStrings kfsStore 0 onePath 0 data server).1 = .error fsNoSpace := by
    simp [oneWrite, allowed, show kfsStore.writeFile = KFS.writeFile from rfl, refused, fsStatus]
  have pieces : 2048 ≤ (rootClient.writeFile asciiStrings kfsStore onePath 0 data
      ⟨0, server⟩).1.1 := by
    have chunk : maxReadChunk = 2048 := rfl
    have counted : min (data.length - 0) maxReadChunk = 2048 := by omega
    have pieceLength : ((data.drop 0).take 2048).length = 2048 := by
      rw [length_take, length_drop]
      omega
    obtain ⟨after, wrote, logged, _⟩ :=
      @KFS.writeFile_logged _ _ ((data.drop 0).take 2048) _ _ 0 reads target
        (by rw [pieceLength]; decide) (by rw [pieceLength]; omega)
    obtain ⟨info, shown⟩ := (logged.target target).stat
    rw [← counted] at wrote
    have named : onePath.length = 2 := rfl
    unfold FSClient.writeFile
    rw [@writeLoop_wrote asciiStrings rootClient ⟨0, server⟩ onePath onePath allowed 0
      data data.length 0 after info (by omega) (.inl (by omega))
      wrote shown, if_neg (by omega), counted]
    exact le_writeLoop _ _ _
  refine ⟨⟨0, server⟩, reached, ?_⟩
  rintro ⟨same, _, _⟩
  rw [show rootClient.uid = 0 from rfl, single] at same
  rw [same] at pieces
  cases pieces

/-- A path that fills the requests and a log that fills up. -/
theorem transfers_not_alike : (∃ link : Link KFS, Reached asciiStrings link.server ∧
      ¬WritesAlike asciiStrings rootClient longPath 0 (replicate 2048 0) link) ∧
    ∃ link : Link KFS, Reached asciiStrings link.server ∧
      ¬WritesAlike asciiStrings rootClient onePath 0 (replicate 600000 0) link := by
  exact ⟨long_path_not_written, full_log_partly_written length_replicate⟩

end KernelLane.Fs
