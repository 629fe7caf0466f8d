import KernelLane.FsRouted

namespace KernelLane.Fs

open GuestFrame Kfs List UInt16 Kern FdCall RunStatus Except

/-!
# When routed file I/O is exact

A call on a descriptor is followed through the request frame, the server and
the reply.  It is the exact operation on the file when its datagrams fit, and
it stalls when one of them does not.
-/

/-! ## Round trips of the kernel -/

section RoundTrips

variable {State : Type} {go : GoStrings} {store : Store State} {session : RoutedSession State}
  {op : UInt16}
  {path payload : Bytes}

/-- The port that a reply to the session goes to. -/
def RoutedSession.inbox (session : RoutedSession State) : InboxName where
  text := (cstr session.name).take 15
  nonempty := by
    have named := session.named
    cases known : cstr session.name with
    | nil => exact absurd known named
    | cons byte rest => simp
  short := (length_take_le 15 _).trans (by decide)
  noZero := by
    intro member
    have kept := all_eq_true.mp all_takeWhile _ (mem_of_mem_take member)
    simp at kept

theorem rnameField_eq (session : RoutedSession State) :
    rnameField session.name = padName session.inbox.text := by
  rw [padName, take_of_length_le session.inbox.short]
  rfl

variable (built : path.length + payload.length + 26 ≤ fsreqMax)

include built

theorem take_requestFrame (seq : UInt16) :
    (requestFrame op seq session.uid session.name path payload).take msgMax =
      put16 op ++ (put16 seq ++ (put32 session.uid ++ (padName session.inbox.text ++
        (appendLStr path ++ payload).take 4072))) := by
  have header : requestFrame op seq session.uid session.name path payload =
      (put16 op ++ (put16 seq ++ (put32 session.uid ++
        padName session.inbox.text))) ++ (appendLStr path ++ payload) := by
    rw [requestFrame, if_neg (by omega), rnameField_eq]
    simp [appendLStr]
  have length : (put16 op ++ (put16 seq ++ (put32 session.uid ++
      padName session.inbox.text))).length = 24 := by
    simp [length_padName session.inbox.short]
  rw [header, take_append, length, take_of_length_le (by rw [length]; decide)]
  simp [msgMax]

variable {server : Server State}

theorem fsRoundtrip_of_served {answer : Answer}
    (served : serve go store op session.uid ((appendLStr path ++ payload).take 4072)
        session.server = some (answer, server)) :
    fsRoundtrip go store op path payload session = (if 28 + answer.body.length ≤ msgMax then
        some (answer.frame op (session.seq + 1))
      else none,
      session.turned server) := by
  obtain ⟨parsed, rest⟩ :=
    parseHeader_fields op (session.seq + 1) session.uid session.inbox
      ((appendLStr path ++ payload).take 4072)
  have answered := dispatch_of_served parsed session.inbox.nonempty (by rw [rest]; exact served)
  have length := answer.length_frame op (session.seq + 1)
  have port : (cstr session.name).take 15 = session.inbox.text := rfl
  simp only [fsRoundtrip, take_requestFrame built _, port, answered, length,
    Answer.get16_frame_seq, ne_eq, not_true_eq_false, or_false]
  by_cases fits : 28 + answer.body.length ≤ msgMax
  · have whole : (answer.frame op (session.seq + 1)).take respMax =
        answer.frame op (session.seq + 1) :=
      take_of_length_le (by rw [length]; exact fits)
    rw [if_neg (by omega), if_pos fits, whole]
  · rw [if_pos (by omega), if_neg fits]

theorem fsRoundtrip_refused {status : Int} (refuses : Refuses status)
    (served : serve go store op session.uid ((appendLStr path ++ payload).take 4072)
        session.server = some (refusal status, server)) :
    ∃ rep, fsRoundtrip go store op path payload session = (some rep, session.turned server) ∧
      splitReply rep = some (status, []) ∧ status ≠ fsOK := by
  obtain ⟨value, bad⟩ := refuses.status
  have fits : 28 + (refusal status).body.length ≤ msgMax := (by decide : 28 + 0 ≤ 4096)
  refine ⟨(refusal status).frame op (session.seq + 1), ?_, ?_, bad⟩
  · rw [fsRoundtrip_of_served built served, if_pos fits]
  · rw [splitReply_frame]
    exact congrArg (fun shown => some (shown, [])) value

theorem fsRoundtrip_accepted {body : Bytes}
    (served : serve go store op session.uid ((appendLStr path ++ payload).take 4072)
        session.server = some (⟨fsOK, body⟩, server)) (fits : 28 + body.length ≤ msgMax) :
    ∃ rep, fsRoundtrip go store op path payload session = (some rep, session.turned server) ∧
      splitReply rep = some (fsOK, body) := by
  have status : int32 (statusWord fsOK) = fsOK := by decide
  refine ⟨(⟨fsOK, body⟩ : Answer).frame op (session.seq + 1), ?_, ?_⟩
  · rw [fsRoundtrip_of_served built served, if_pos fits]
  · rw [splitReply_frame]
    exact congrArg (fun shown => some (shown, body)) status

theorem fsRoundtrip_of_ignored
    (ignored : serve go store op session.uid ((appendLStr path ++ payload).take 4072)
        session.server = none) :
    fsRoundtrip go store op path payload session = (none, session.turned session.server) := by
  obtain ⟨parsed, rest⟩ :=
    parseHeader_fields op (session.seq + 1) session.uid session.inbox
      ((appendLStr path ++ payload).take 4072)
  simp only [fsRoundtrip, take_requestFrame built _, dispatch, parsed,
    if_neg session.inbox.nonempty, rest, ignored]

end RoundTrips

/-! ## One buffer -/

section Buffers

variable {State : Type} {go : GoStrings} {store : Store State} {session : RoutedSession State}
  {fd : Int}
  {file : Kern.Rfd}

theorem fsimportRead_open (isOpen : session.rfdOf fd = some file) (length : Nat) :
    fsimportRead go store fd length session = match
        storeRead go store session.uid file.path file.off (readLimit length) session.server
      with
      | (.error status, server) => (.error (errnoForStatus status), session.turned server)
      | (.ok bytes, server) =>
        if 30 + bytes.length ≤ msgMax then
          (.ok bytes, (session.turned server).advance fd bytes.length)
        else (.error errNoSys, session.turned server) := by
  have short := session.rfdOf_short isOpen
  obtain ⟨parsed, offIs, countIs, payloadLength⟩ :=
    readPayload_fields (by omega : file.path.length < 65536) file.off (min length maxIo)
  have uncut : (appendLStr file.path ++
        (put64 file.off ++ put16 (ofNat (min length maxIo)))).take
        4072 =
      readPayload file.path file.off (min length maxIo) :=
    take_of_length_le (by
      change (readPayload file.path file.off (min length maxIo)).length ≤ _
      omega)
  have built : file.path.length + (put64 file.off ++ put16 (ofNat (min length maxIo))).length + 26 ≤
      fsreqMax := by
    simp [fsreqMax]
    omega
  have asked : readCount (ofNat (min length maxIo)) = readLimit length := by
    rw [readCount, toNat_ofNat_of_lt' ((Nat.min_le_right _ _).trans_lt (by decide))]
    unfold readLimit maxIo maxMsg
    omega
  unfold storeRead
  cases allowed : authorize go session.server.sessions session.uid file.path false with
  | error status =>
    have served := @serve_read_denied _ go store _ _ _ _ _ parsed (by omega) _ allowed
    rw [← uncut] at served
    obtain ⟨rep, came, split, bad⟩ := fsRoundtrip_refused built (authorize_error allowed) served
    simp only [fsimportRead, isOpen, came, split, ne_eq, bad, not_false_eq_true, if_true]
  | ok target =>
    have served := @serve_read _ go store _ _ _ _ _ _ parsed (by omega) allowed
    rw [offIs, countIs, asked, ← uncut, onStore] at served
    dsimp only
    rcases read : store.readFile target file.off (readLimit length)
      session.server.state with ⟨failure | bytes, next⟩
    · rw [read] at served
      obtain ⟨rep, came, split, bad⟩ := fsRoundtrip_refused built (refuses_fsStatus failure) served
      simp only [fsimportRead, isOpen, came, split, ne_eq, bad, not_false_eq_true, if_true]
    · rw [read] at served
      have bounded := store.readFile_le read
      unfold readLimit maxMsg at bounded
      have bodyLength : (put16 (ofNat bytes.length) ++ bytes).length = 2 + bytes.length := by
        simp
      dsimp only
      by_cases fits : 30 + bytes.length ≤ msgMax
      · obtain ⟨rep, came, split⟩ := fsRoundtrip_accepted built served (by omega)
        have counted : (get16 (put16 (ofNat bytes.length) ++ bytes) 0).toNat = bytes.length :=
          get16_counted (by omega)
        have body : (put16 (ofNat bytes.length) ++ bytes).drop 2 = bytes :=
          drop_left' (length_put16 _)
        have copied : min (min bytes.length (min length maxIo)) (2 + bytes.length - 2) =
            bytes.length := by
          unfold maxIo
          omega
        simp only [fsimportRead, isOpen, came, split, ne_eq, not_true_eq_false, if_false,
          bodyLength, counted, body, copied, take_length, if_pos fits]
        rw [if_neg (by omega)]
      · have lost := fsRoundtrip_of_served built served
        dsimp only [Prod.map_fst, Prod.map_snd, id] at lost
        rw [if_neg (by rw [bodyLength]; omega)] at lost
        simp only [fsimportRead, isOpen, lost, if_neg fits]

theorem take_writeRequest {raw data : Bytes} (off : UInt64) (count : UInt16)
    (short : raw.length < 192) : (appendLStr raw ++ (put64 off ++ put16 count ++ data)).take 4072 =
      appendLStr raw ++ (put64 off ++ (put16 count ++ data.take (4060 - raw.length))) := by
  have regrouped : ∀ rest : Bytes, appendLStr raw ++ (put64 off ++ (put16 count ++ rest)) =
      (appendLStr raw ++ (put64 off ++ put16 count)) ++ rest := by
    intro rest
    simp
  have length : (appendLStr raw ++ (put64 off ++ put16 count)).length = 12 + raw.length := by
    simp
    omega
  rw [append_assoc, regrouped, regrouped, take_append, length,
    take_of_length_le (by rw [length]; omega)]
  congr 2
  omega

theorem length_writeRequest {raw : Bytes} {off : UInt64} {count : UInt16} (short : raw.length < 192)
    (data : Bytes) :
    raw.length + (put64 off ++ put16 count ++ data.take (min data.length maxIo)).length + 26 ≤
      fsreqMax := by
  simp only [length_append, length_put64, length_put16, length_take, maxIo, fsreqMax]
  omega

theorem fsimportWrite_allowed {target : Bytes} (isOpen : session.rfdOf fd = some file) (allowed :
      authorize go session.server.sessions session.uid file.path true = .ok target) (data : Bytes) :
    (36 + file.path.length + data.length ≤ msgMax → fsimportWrite go store fd data session =
      exactWrite go store fd data session) ∧ (msgMax < 36 + file.path.length + data.length →
      (fsimportWrite go store fd data session).1 = .error errNoSys) := by
  have short := session.rfdOf_short isOpen
  have limit : msgMax = 4096 := rfl
  have maximum : maxIo = 8192 := rfl
  have sent : (data.take (min data.length maxIo)).length = min data.length maxIo := by
    rw [length_take]
    omega
  have built := @length_writeRequest file.path file.off (ofNat (min data.length maxIo)) short data
  have counted : (ofNat (min data.length maxIo)).toNat = min data.length maxIo :=
    toNat_ofNat_of_lt' ((Nat.min_le_right _ _).trans_lt (by decide))
  obtain ⟨parsed, offIs, countIs, dataIs, length⟩ :=
    writeRequest_fields (by omega : file.path.length < 65536) file.off
      (ofNat (min data.length maxIo))
      ((data.take (min data.length maxIo)).take (4060 - file.path.length))
  rw [length_take, sent] at length
  rw [← take_writeRequest _ _ short] at parsed offIs countIs dataIs length
  constructor
  · intro fits
    have whole : (data.take (min data.length maxIo)).take (4060 - file.path.length) = data := by
      rw [take_take, take_of_length_le (by omega)]
    have kept : data.take (min data.length maxIo) = data := take_of_length_le (by omega)
    have served :=
      @serve_write _ go store _ _ _ _ _ _ parsed allowed (by rw [countIs, counted]; omega)
    rw [offIs, dataIs, whole, countIs, counted, onStore] at served
    conv at served => rhs; rw [kept]
    unfold exactWrite storeWrite
    simp only [isOpen, allowed]
    rcases wrote : store.writeFile target file.off data session.server.state with
      ⟨failure | _, next⟩
    · rw [wrote] at served
      obtain ⟨rep, came, split, bad⟩ := fsRoundtrip_refused built (refuses_fsStatus failure) served
      simp only [fsimportWrite, isOpen, came, split, ne_eq, bad,
        not_false_eq_true, if_true, Effect.bind_of_error wrote]
    · rw [wrote] at served
      dsimp only at served
      rw [onStore] at served
      rw [Effect.bind_of_ok wrote]
      rcases shown : store.stat target next with ⟨failure | info, last⟩
      · rw [shown] at served
        obtain ⟨rep, came, split, bad⟩ :=
          fsRoundtrip_refused built (refuses_fsStatus failure) served
        simp only [fsimportWrite, isOpen, came, split, ne_eq, bad, not_false_eq_true, if_true]
      · rw [shown] at served
        obtain ⟨rep, came, split⟩ := fsRoundtrip_accepted built served (by simp [limit])
        have all : min data.length maxIo = data.length := by omega
        simp only [fsimportWrite, isOpen, came, split, ne_eq,
          not_true_eq_false, if_false, length_put32, Nat.le_refl, if_true]
        rw [all]
  · intro long
    have ignored : serve go store opFSWrite session.uid ((appendLStr file.path ++ (put64 file.off ++
            put16 (ofNat (min data.length maxIo)) ++
            data.take (min data.length maxIo))).take 4072)
          session.server =
        none :=
      serve_write_ignored parsed allowed (by omega) (by rw [countIs, counted]; omega)
    simp only [fsimportWrite, isOpen, fsRoundtrip_of_ignored built ignored]

theorem fsimportWrite_denied {status : Int} (isOpen : session.rfdOf fd = some file) (denied :
      authorize go session.server.sessions session.uid file.path true = .error status)
    (data : Bytes) :
    fsimportWrite go store fd data session = exactWrite go store fd data session := by
  have short := session.rfdOf_short isOpen
  obtain ⟨parsed, _, _, _, length⟩ :=
    writeRequest_fields (by omega : file.path.length < 65536) file.off
      (ofNat (min data.length maxIo))
      ((data.take (min data.length maxIo)).take (4060 - file.path.length))
  rw [← take_writeRequest _ _ short] at parsed length
  obtain ⟨rep, came, split, bad⟩ :=
    fsRoundtrip_refused (length_writeRequest short data) (authorize_error denied)
      (@serve_write_denied _ go store _ _ _ _ _ parsed (by omega) _ denied)
  simp only [fsimportWrite, exactWrite, storeWrite, isOpen, denied, came,
    split, ne_eq, bad, not_false_eq_true, if_true]

theorem fsimportWrite_cases (data : Bytes) : (FrameFits go fd data session →
      fsimportWrite go store fd data session = exactWrite go store fd data session) ∧
    (¬FrameFits go fd data session →
      (fsimportWrite go store fd data session).1 = .error errNoSys) := by
  cases isOpen : session.rfdOf fd with
  | none =>
    refine ⟨fun _ => ?_, fun unfit => ?_⟩
    · simp only [fsimportWrite, exactWrite, isOpen]
    · exact absurd (fun file _ known => by rw [isOpen] at known; cases known) unfit
  | some file =>
    cases allowed : authorize go session.server.sessions session.uid file.path true with
    | error status =>
      refine ⟨fun _ => fsimportWrite_denied isOpen allowed data, fun unfit => absurd ?_ unfit⟩
      intro other target known permitted
      rw [isOpen] at known
      cases known
      rw [allowed] at permitted
      cases permitted
    | ok target =>
      have both := @fsimportWrite_allowed _ _ store _ _ _ _ isOpen allowed data
      refine ⟨fun fits => both.1 (fits file target isOpen allowed), fun unfit => both.2 ?_⟩
      by_contra short
      refine unfit fun other _ known _ => ?_
      rw [isOpen] at known
      cases known
      exact Nat.not_lt.mp short

theorem exactWrite_ne_noSys (data : Bytes) :
    (exactWrite go store fd data session).1 ≠ .error errNoSys := by
  unfold exactWrite
  split
  · exact fun same => absurd (error.inj same) (by decide)
  split
  · exact fun same => errnoForStatus_ne_noSys _ (error.inj same)
  · exact nofun

theorem fsimportRead_cases (length : Nat) : (ReplyFits go store fd length session →
      fsimportRead go store fd length session = exactRead go store fd length session) ∧
    (¬ReplyFits go store fd length session →
      (fsimportRead go store fd length session).1 = .error errNoSys) := by
  cases isOpen : session.rfdOf fd with
  | none =>
    refine ⟨fun _ => ?_, fun unfit => ?_⟩
    · simp only [fsimportRead, exactRead, isOpen]
    · exact absurd (fun file _ known => by rw [isOpen] at known; cases known) unfit
  | some file =>
    rw [fsimportRead_open isOpen]
    rcases read : storeRead go store session.uid file.path file.off
        (readLimit length) session.server with
      ⟨status | bytes, server⟩
    · refine ⟨fun _ => ?_, fun unfit => absurd ?_ unfit⟩
      · simp only [exactRead, isOpen, read]
      · intro other bytes known found
        rw [isOpen] at known
        cases known
        rw [read] at found
        cases found
    · refine ⟨fun fits => ?_, fun unfit => ?_⟩
      · have small := fits file bytes isOpen (by rw [read])
        simp only [exactRead, isOpen, read, if_pos small]
      · have large : ¬30 + bytes.length ≤ msgMax := by
          intro small
          refine unfit fun other found known same => ?_
          rw [isOpen] at known
          cases known
          rw [read] at same
          cases same
          exact small
        simp only [if_neg large]

theorem exactRead_ne_noSys (length : Nat) :
    (exactRead go store fd length session).1 ≠ .error errNoSys := by
  unfold exactRead
  split
  · exact fun same => absurd (error.inj same) (by decide)
  split
  · exact fun same => errnoForStatus_ne_noSys _ (error.inj same)
  · exact nofun

end Buffers

/-! ## Calls and sequences of calls -/

section Calls

variable {State : Type} {go : GoStrings} {store : Store State}

theorem routedHost_write (fd : Int) (data : Bytes) (session : RoutedSession State) :
    FrameFits go fd data session ∧ (routedHost go store).write fd data session =
        (exactHost go store).write fd data session ∨ ¬FrameFits go fd data session ∧
        ((routedHost go store).write fd data session).1 = errNoSys := by
  unfold routedHost exactHost ownedWrite
  dsimp only
  by_cases routed : preopenFd ≤ fd
  · rw [if_pos routed, if_pos routed]
    obtain ⟨exactly, stalls⟩ := @fsimportWrite_cases _ go store session fd data
    by_cases fits : FrameFits go fd data session
    · exact .inl ⟨fits, by rw [exactly fits]⟩
    right
    refine ⟨fits, ?_⟩
    have failed := stalls fits
    rcases call : fsimportWrite go store fd data session with
      ⟨result, next⟩
    rw [call] at failed
    dsimp only at failed
    rw [failed]
  · left
    rw [if_neg routed, if_neg routed]
    refine ⟨fun file _ isOpen => ?_, rfl⟩
    rw [RoutedSession.rfdOf, if_pos (.inl (not_le.mp routed))] at isOpen
    cases isOpen

theorem exactHost_write_ne_noSys (fd : Int) (data : Bytes) (session : RoutedSession State) :
    ((exactHost go store).write fd data session).1 ≠ errNoSys := by
  have never := @exactWrite_ne_noSys _ go store session fd data
  unfold exactHost ownedWrite
  dsimp only
  split
  · rcases call : exactWrite go store fd data session with
      ⟨errno | count, next⟩
    · rw [call] at never
      exact fun same => never (congrArg error same)
    · exact (by decide : errSuccess ≠ errNoSys)
  · split
    · exact (by decide : errBadf ≠ errNoSys)
    · exact (by decide : errSuccess ≠ errNoSys)

theorem writeVectors_inside {Host : Type} {host : OwnedHost Host} {fd : Int} {memory : Bytes}
    {remaining vector total : Nat} {state : Host} (inside : vectorRange memory vector) :
    writeVectors host fd memory (remaining + 1) vector total state =
      if (host.write fd (vectorBytes memory vector) state).1 ≠ 0 then
        (.failed (host.write fd (vectorBytes memory vector) state).1,
          (host.write fd (vectorBytes memory vector) state).2)
      else if 2 ^ 32 - 1 - (vectorAt memory vector).2 < total then
        (.trapped, (host.write fd (vectorBytes memory vector) state).2)
      else
        writeVectors host fd memory remaining (vector + 8) (total + (vectorAt memory vector).2)
          (host.write fd (vectorBytes memory vector) state).2 := by
  rw [writeVectors, if_neg (not_not.mpr inside)]

theorem writeVectors_exact_ne_noSys (fd : Int) (memory : Bytes) (remaining vector total : Nat)
    (session : RoutedSession State) :
    (writeVectors (exactHost go store) fd memory remaining vector total
      session).1 ≠ .failed errNoSys := by
  induction remaining generalizing vector total session with
  | zero => exact nofun
  | succ remaining hypothesis =>
    by_cases inside : vectorRange memory vector
    swap
    · rw [writeVectors, if_pos inside]
      exact nofun
    have never := @exactHost_write_ne_noSys _ go store fd (vectorBytes memory vector) session
    rw [writeVectors_inside inside]
    split
    · exact fun same => never (Walked.failed.inj same)
    split
    · exact nofun
    · exact hypothesis _ _ _

/--
The walk over the buffers of a write is exact, or ends with a missing reply at
the first request that does not fit.
-/
theorem writeVectors_cases (fd : Int) (memory : Bytes) (remaining vector total : Nat)
    (session : RoutedSession State) : VectorsFit go store fd memory remaining vector total session ∧
        writeVectors (routedHost go store) fd memory remaining vector total session =
          writeVectors (exactHost go store) fd memory remaining vector total session ∨
      ¬VectorsFit go store fd memory remaining vector total session ∧
        (writeVectors (routedHost go store) fd memory remaining vector total
          session).1 = .failed errNoSys := by
  induction remaining generalizing vector total session with
  | zero =>
    left
    rw [VectorsFit, writeVectors, writeVectors]
    exact ⟨trivial, rfl⟩
  | succ remaining hypothesis =>
    rw [VectorsFit]
    by_cases inside : vectorRange memory vector
    swap
    · left
      refine ⟨fun within => absurd within inside, ?_⟩
      rw [writeVectors, if_pos inside, writeVectors, if_pos inside]
    rw [writeVectors_inside inside, writeVectors_inside inside]
    rcases @routedHost_write _ go store fd (vectorBytes memory vector)
      session with ⟨fits, same⟩ | ⟨unfit, stalled⟩
    swap
    · right
      refine ⟨fun all => unfit (all inside).1, ?_⟩
      rw [stalled, if_pos (by decide)]
    rw [same]
    by_cases accepted : ((exactHost go store).write fd (vectorBytes memory vector) session).1 = 0
    swap
    · left
      rw [if_pos accepted, if_pos accepted]
      exact ⟨fun _ => ⟨fits, fun zero => absurd zero accepted⟩, rfl⟩
    rw [if_neg (not_not.mpr accepted)]
    have bounded : (vectorAt memory vector).2 < 2 ^ 32 := (get32 memory (vector + 4)).toNat_lt
    by_cases overflow : 2 ^ 32 - 1 - (vectorAt memory vector).2 < total
    · left
      rw [if_pos overflow, if_neg (not_not.mpr accepted), if_pos overflow]
      refine ⟨fun _ => ⟨fits, fun _ small => ?_⟩, rfl⟩
      exact absurd small (by omega)
    · rw [if_neg overflow, if_neg (not_not.mpr accepted), if_neg overflow]
      have small : total + (vectorAt memory vector).2 < 2 ^ 32 := by omega
      rcases hypothesis (vector + 8) (total + (vectorAt memory vector).2)
        ((exactHost go store).write fd (vectorBytes memory vector)
          session).2 with ⟨later, equal⟩ | ⟨later, stalled⟩
      · exact .inl ⟨fun _ => ⟨fits, fun _ _ => later⟩, equal⟩
      · exact .inr ⟨fun all => later ((all inside).2 accepted small), stalled⟩

/--
A call is exact, or it ends with a missing reply because a datagram does not
fit.
-/
theorem FdCall.run_cases (call : FdCall) (memory : Bytes) (session : RoutedSession State) :
    call.Fits go store memory session ∧ call.run (routedHost go store) memory session =
        call.run (exactHost go store) memory session ∨
      ¬call.Fits go store memory session ∧ (call.run (routedHost go store) memory session).1.1 =
        .completed errNoSys := by
  cases call with
  | read args =>
    simp only [FdCall.Fits, run, fdRead]
    by_cases low : args.fd < preopenFd
    · left
      rw [if_pos low, if_pos low]
      refine ⟨fun _ _ file _ isOpen => ?_, rfl⟩
      rw [RoutedSession.rfdOf, if_pos (.inl low)] at isOpen
      cases isOpen
    rw [if_neg low, if_neg low]
    by_cases table : args.inRange memory
    swap
    · left
      rw [if_pos table, if_pos table]
      exact ⟨fun inside => absurd inside table, rfl⟩
    rw [if_neg (not_not.mpr table), if_neg (not_not.mpr table)]
    by_cases inside : vectorRange memory args.iovs.toNat
    swap
    · left
      rw [if_pos inside, if_pos inside]
      exact ⟨fun _ within => absurd within inside, rfl⟩
    rw [if_neg (not_not.mpr inside), if_neg (not_not.mpr inside)]
    obtain ⟨exactly, stalls⟩ :=
      @fsimportRead_cases _ go store session args.fd (vectorAt memory args.iovs.toNat).2
    by_cases fits : ReplyFits go store args.fd (vectorAt memory args.iovs.toNat).2 session
    · left
      refine ⟨fun _ _ => fits, ?_⟩
      dsimp only [routedHost, exactHost]
      rw [exactly fits]
    · right
      refine ⟨fun all => fits (all table inside), ?_⟩
      have failed := stalls fits
      dsimp only [routedHost]
      rcases ran : fsimportRead go store args.fd (vectorAt memory args.iovs.toNat).2 session with
        ⟨result, next⟩
      rw [ran] at failed
      dsimp only at failed
      rw [failed]
  | write args =>
    simp only [FdCall.Fits, run, fdWrite]
    by_cases table : args.inRange memory
    swap
    · left
      rw [if_pos table, if_pos table]
      exact ⟨fun inside => absurd inside table, rfl⟩
    rw [if_neg (not_not.mpr table), if_neg (not_not.mpr table)]
    rcases @writeVectors_cases _ go store args.fd memory
        args.count.toNat args.iovs.toNat 0 session with
      ⟨fits, same⟩ | ⟨unfit, stalled⟩
    · exact .inl ⟨fun _ => fits, by rw [same]⟩
    · right
      refine ⟨fun all => unfit (all table), ?_⟩
      rcases walked : writeVectors (routedHost go store) args.fd memory
          args.count.toNat args.iovs.toNat 0 session with
        ⟨result, next⟩
      rw [walked] at stalled
      dsimp only at stalled
      rw [stalled]

theorem FdCall.run_exact_ne_noSys (call : FdCall) (memory : Bytes) (session : RoutedSession State) :
    (call.run (exactHost go store) memory session).1.1 ≠ .completed errNoSys := by
  cases call with
  | read args =>
    have never := @exactRead_ne_noSys _ go store session args.fd (vectorAt memory args.iovs.toNat).2
    simp only [run, fdRead, exactHost]
    split
    · exact fun same => absurd (completed.inj same) (by decide)
    split
    · exact nofun
    split
    · exact nofun
    generalize exactRead go store args.fd (vectorAt memory args.iovs.toNat).2
      session = read at never ⊢
    rcases read with ⟨errno | bytes, next⟩
    · exact fun same => never (congrArg error (completed.inj same))
    · exact fun same => absurd (completed.inj same) (by decide)
  | write args =>
    have never :=
      @writeVectors_exact_ne_noSys _ go store args.fd memory
        args.count.toNat args.iovs.toNat 0 session
    simp only [run, fdWrite]
    split
    · exact nofun
    generalize writeVectors (exactHost go store) args.fd memory args.count.toNat
      args.iovs.toNat 0 session = walked at never ⊢
    rcases walked with ⟨total | errno | _, next⟩
    · exact fun same => absurd (completed.inj same) (by decide)
    · exact fun same => never (congrArg Walked.failed (completed.inj same))
    · exact nofun

/--
Routed file I/O is exact in a sequence of calls, whatever others do to the
server between them, if and only if every datagram of the calls fits: a read
finds at most 4066 bytes, and a buffer that is written has room in 4096 bytes
with its path and 36 bytes of header, or the policy refuses the write.
-/
theorem routed_io_exact_iff {State : Type} (go : GoStrings) (store : Store State)
    (turns : List (FdTurn State)) (session : RoutedSession State) :
    runTurns (routedHost go store) turns session = runTurns (exactHost go store) turns session ↔
      TurnsFit go store turns session := by
  induction turns generalizing session with
  | nil => simp only [runTurns, TurnsFit]
  | cons turn rest hypothesis =>
    simp only [runTurns, TurnsFit]
    rcases turn.call.run_cases turn.memory (turn.start session) with
      ⟨fits, same⟩ | ⟨unfit, stalled⟩
    · rw [same, ← hypothesis]
      constructor
      · intro equal
        obtain ⟨results, last⟩ := Prod.mk.inj equal
        exact ⟨fits, Prod.ext (List.cons.inj results).2 last⟩
      · rintro ⟨_, equal⟩
        rw [equal]
    · refine ⟨fun equal => ?_, fun all => absurd all.1 unfit⟩
      obtain ⟨results, _⟩ := Prod.mk.inj equal
      refine absurd ?_ (@run_exact_ne_noSys _ go store turn.call turn.memory (turn.start session))
      rw [← (List.cons.inj results).1]
      exact stalled

end Calls

/-! ## A buffer of one page -/

def oneBuffer (data : Bytes) : Bytes :=
  put32 16 ++ (put32 (UInt32.ofNat data.length) ++ (replicate 8 0 ++ data))

def openSession (server : Server KFS) : RoutedSession KFS where
  uid := 0
  name := ascii "sh"
  seq := 0
  files := fun fd => if fd = 4 then some ⟨0, onePath⟩ else none
  server := server
  named := by decide
  short := by
    intro fd file found
    split at found
    · cases found
      decide
    · cases found

/--
A write of 4096 bytes, half of what the import accepts, never reaches the
file, although the store has room for it.
-/
theorem page_write_stalls : ∃ session : RoutedSession KFS, Reached asciiStrings session.server ∧
    session.rfdOf 4 = some ⟨0, onePath⟩ ∧ (run (routedHost asciiStrings kfsStore)
      (.write ⟨4, 0, 1, 8⟩) (oneBuffer (replicate 4096 7)) session).1.1 = .completed errNoSys ∧
    (run (exactHost asciiStrings kfsStore)
      (.write ⟨4, 0, 1, 8⟩) (oneBuffer (replicate 4096 7))
      session).1.1 = .completed errSuccess := by
  obtain ⟨server, reached, facts⟩ :=
    @exists_created (fun server =>
      (run (routedHost asciiStrings kfsStore) (.write ⟨4, 0, 1, 8⟩)
        (oneBuffer (replicate 4096 7)) (openSession server)).1.1 = .completed errNoSys ∧
      (run (exactHost asciiStrings kfsStore) (.write ⟨4, 0, 1, 8⟩)
        (oneBuffer (replicate 4096 7)) (openSession server)).1.1 = .completed errSuccess)
      (by decide +kernel)
  obtain ⟨stalled, written⟩ := of_decide_eq_true facts
  exact ⟨openSession server, reached, rfl, stalled, written⟩

end KernelLane.Fs
