import KernelLane.FsCalls
import Mathlib.Tactic.IntervalCases

namespace KernelLane.Fs

open GuestFrame Kfs List Function Answer UInt16

/-!
# The replies of the file server

A reply is a header of 28 bytes with the status and a body.  The server cuts
what it reads and lists at 4080 bytes, which leaves 16 bytes for a header of
28; and it writes the number of entries of a directory before it knows how
many fit.  A reply fits a datagram and says what it carries as long as a read
returns at most 4066 bytes and the entries of a directory take at most 4068
bytes with their count.
-/

/-! ## What a reply says about itself -/

def decodeEntriesFrom : Nat → Bytes → Option (List (Bytes × UInt8 × UInt32))
  | _, [] => some []
  | 0, _ :: _ => none
  | fuel + 1, bytes =>
    match lStr bytes 0 with
    | none => none
    | some (name, next) =>
      match bytes.drop next with
      | [] => none
      | attr :: rest =>
        if rest.length < 4 then none
        else (decodeEntriesFrom fuel (rest.drop 4)).map ((name, attr, get32 rest 0) :: ·)

def decodeEntries (bytes : Bytes) : Option (List (Bytes × UInt8 × UInt32)) :=
  decodeEntriesFrom bytes.length bytes

/--
The reply fits a datagram; a successful READ carries as many bytes, and a
successful LIST as many entries, as its count field says.
-/
structure WellDescribed (rep : Bytes) : Prop where
  fits : rep.length ≤ maxMsg
  read : get16 rep 0 = opFSRead → get32 rep 24 = statusWord fsOK →
    rep.length = 30 + (get16 rep 28).toNat
  list : get16 rep 0 = opFSList → get32 rep 24 = statusWord fsOK → ∃ entries,
    decodeEntries (rep.drop 32) = some entries ∧ entries.length = (get32 rep 28).toNat

/-! ## Frames -/

section

variable (answer : Answer) (op seq : UInt16)
include answer op seq

theorem Answer.length_frame : (answer.frame op seq).length = 28 + answer.body.length := by
  simp [frame]
  omega

theorem Answer.get16_frame : get16 (answer.frame op seq) 0 = op := by
  exact get16_put16 [] op _ 0 rfl

theorem Answer.get32_frame : get32 (answer.frame op seq) 24 = statusWord answer.status := by
  unfold frame
  rw [append_assoc]
  refine get32_put32 _ _ _ _ ?_
  simp

theorem Answer.drop_frame (count : Nat) :
    (answer.frame op seq).drop (28 + count) = answer.body.drop count := by
  unfold frame
  rw [← drop_drop, drop_left']
  simp

end

/-! ## Entries -/

def entriesSize (infos : List StatInfo) : Nat := (infos.map fun info => 7 + info.name.length).sum

def fittingEntries : Nat → List StatInfo → List StatInfo
  | _, [] => []
  | used, info :: rest =>
    if maxMsg - 16 < used + 2 + info.name.length + 5 then []
    else info :: fittingEntries (used + (7 + info.name.length)) rest

@[simp] theorem length_entryRecord (info : StatInfo) :
    (entryRecord info).length = 7 + info.name.length := by
  simp [entryRecord]
  omega

theorem appendEntries_eq (body : Bytes) (infos : List StatInfo) : appendEntries body infos =
    body ++ (fittingEntries body.length infos).flatMap entryRecord := by
  induction infos generalizing body with
  | nil => simp [appendEntries, fittingEntries]
  | cons info rest hypothesis =>
    unfold appendEntries fittingEntries
    split
    · simp
    · rw [hypothesis]
      simp

variable {infos : List StatInfo} {info : StatInfo}

theorem length_of_mem_fittingEntries {used : Nat} (member : info ∈ fittingEntries used infos) :
    info.name.length < 65536 := by
  induction infos generalizing used with
  | nil => cases member
  | cons first rest hypothesis =>
    unfold fittingEntries at member
    split at member
    · cases member
    next fits =>
      rcases mem_cons.mp member with rfl | later
      · unfold maxMsg at fits
        omega
      · exact hypothesis later

theorem length_flatMap_entryRecord (infos : List StatInfo) :
    (infos.flatMap entryRecord).length = entriesSize infos := by
  simp [entriesSize]

theorem decodeEntriesFrom_cons (short : info.name.length < 65536) (fuel : Nat) (rest : Bytes) :
    decodeEntriesFrom (fuel + 1) (entryRecord info ++ rest) = (decodeEntriesFrom fuel rest).map
      ((info.name, info.attr, info.size) :: ·) := by
  have record : entryRecord info ++ rest = [] ++ (appendLStr info.name ++
      (info.attr :: (put32 info.size ++ rest))) := by
    simp [entryRecord]
  have parsed := lStr_appendLStr [] info.name (info.attr :: (put32 info.size ++ rest)) 0 rfl short
  rw [← record] at parsed
  have behind : (entryRecord info ++ rest).drop (0 + 2 + info.name.length) =
      info.attr :: (put32 info.size ++ rest) := by
    rw [record, nil_append]
    refine drop_left' ?_
    simp
  obtain ⟨byte, bytes, shape⟩ : ∃ byte bytes, entryRecord info ++ rest = byte :: bytes := by
    cases filled : entryRecord info ++ rest with
    | nil =>
      have none := congrArg List.length filled
      simp at none
    | cons byte bytes => exact ⟨byte, bytes, rfl⟩
  rw [shape] at parsed behind ⊢
  have size : get32 (put32 info.size ++ rest) 0 = info.size := get32_put32_zero _ _
  simp [decodeEntriesFrom, parsed, behind, size]

theorem decodeEntriesFrom_records
    (short : ∀ info ∈ infos, info.name.length < 65536) {fuel : Nat} (enough : infos.length ≤ fuel) :
    decodeEntriesFrom fuel (infos.flatMap entryRecord) =
      some (infos.map fun info => (info.name, info.attr, info.size)) := by
  induction infos generalizing fuel with
  | nil => cases fuel <;> rfl
  | cons info rest hypothesis =>
    cases fuel with
    | zero => cases enough
    | succ fuel =>
      rw [flatMap_cons, decodeEntriesFrom_cons (short info mem_cons_self)]
      rw [hypothesis (fun other member => short other (mem_cons_of_mem info member))
        (Nat.le_of_succ_le_succ enough)]
      rfl

theorem length_le_entriesSize (infos : List StatInfo) : infos.length ≤ entriesSize infos := by
  induction infos with
  | nil => exact Nat.le_refl 0
  | cons info rest hypothesis =>
    simp only [entriesSize, map_cons, sum_cons, length_cons] at hypothesis ⊢
    omega

theorem decodeEntries_listBody (infos : List StatInfo) : decodeEntries ((listBody infos).drop 4) =
    some ((fittingEntries 4 infos).map fun info => (info.name, info.attr, info.size)) := by
  have records : (listBody infos).drop 4 = (fittingEntries 4 infos).flatMap entryRecord := by
    rw [listBody, appendEntries_eq, length_put32, drop_left' (length_put32 _)]
  rw [records]
  refine decodeEntriesFrom_records (fun info member => length_of_mem_fittingEntries member) ?_
  rw [length_flatMap_entryRecord]
  exact length_le_entriesSize _

theorem length_listBody (infos : List StatInfo) :
    (listBody infos).length = 4 + entriesSize (fittingEntries 4 infos) := by
  rw [listBody, appendEntries_eq, length_append, length_put32, length_flatMap_entryRecord]

/--
The listing of a directory fits and counts right: what fits behind the count
takes at most 4068 bytes with it, and it is all there is (as the 32-bit count
has it).
-/
def ListFits (infos : List StatInfo) : Prop :=
  4 + entriesSize (fittingEntries 4 infos) ≤ 4068 ∧
    (fittingEntries 4 infos).length = infos.length % 2 ^ 32

/-! ## Statuses -/

/-- The status is one of the errors of the protocol. -/
def Refuses (status : Int) : Prop := -10 ≤ status ∧ status < 0

instance (status : Int) : Decidable (Refuses status) := inferInstanceAs (Decidable (_ ∧ _))

variable {status : Int} {session : Option FsSession} {write : Bool}

theorem Refuses.word (refuses : Refuses status) : statusWord status ≠ statusWord fsOK := by
  obtain ⟨low, high⟩ := refuses
  interval_cases status <;> decide

theorem refuses_fsStatus (failure : FsError) : Refuses (fsStatus failure) := by
  cases failure <;> decide

theorem gateHome_error {go : GoStrings} {rest : Bytes}
    (denied : gateHome go session rest write = .error status) : Refuses status := by
  unfold gateHome at denied
  split at denied
  · split at denied
    · cases denied
      decide
    split at denied
    · cases denied
    · cases denied
      decide
  · split at denied
    · split at denied
      · cases denied
      · cases denied
        decide
    · cases denied
      decide

theorem gateAbsolute_error {go : GoStrings} {clean : Bytes}
    (denied : gateAbsolute go session clean write = .error status) : Refuses status := by
  unfold gateAbsolute at denied
  dsimp only at denied
  split at denied
  · cases denied
  split at denied
  · split at denied
    · cases denied
      decide
    · cases denied
  split at denied
  · split at denied
    · cases denied
      decide
    · cases denied
  split at denied
  · exact gateHome_error denied
  · cases denied
    decide

theorem authorize_error {go : GoStrings} {sessions : Sessions} {uid : UInt32} {raw : Bytes}
    (denied : authorize go sessions uid raw write = .error status) : Refuses status := by
  unfold authorize at denied
  split at denied
  · cases denied
    decide
  split at denied
  · split at denied
    · cases denied
      decide
    · cases denied
  dsimp only at denied
  split at denied
  · split at denied
    · cases denied
    · exact gateAbsolute_error denied
  · split at denied
    · cases denied
      decide
    · exact gateAbsolute_error denied

theorem authPath_error {go : GoStrings} {sessions : Sessions} {uid : UInt32} {payload : Bytes}
    (denied : authPath go sessions uid payload write = .error status) : Refuses status := by
  unfold authPath at denied
  split at denied
  · cases denied
    decide
  · exact authorize_error denied

/-! ## Answers -/

section Answers

variable {State : Type} {go : GoStrings} {store : Store State} {sessions : Sessions} {uid : UInt32}
  {payload : Bytes}
  {state next : State}
  {answer : Answer}

theorem onStore_cases {Result : Type} {effect : Effect State FsError Result}
    {render : Result → State → Answer × State}
    (ran : onStore effect render state = (answer, next)) :
    (∃ failure, (effect state).1 = .error failure ∧ answer = refusal (fsStatus failure)) ∨
      ∃ result middle, effect state = (.ok result, middle) ∧
        render result middle = (answer, next) := by
  unfold onStore at ran
  split at ran
  next result middle succeeded => exact .inr ⟨result, middle, succeeded, ran⟩
  next failure middle failed =>
    cases ran
    exact .inl ⟨failure, by rw [failed], rfl⟩

theorem wellDescribed_refusal (refuses : Refuses status) (op seq : UInt16) :
    WellDescribed ((refusal status).frame op seq) where
  fits := by exact (by decide : 28 + 0 ≤ maxMsg)
  read := fun _ isOk => by
    rw [get32_frame] at isOk
    exact absurd isOk refuses.word
  list := fun _ isOk => by
    rw [get32_frame] at isOk
    exact absurd isOk refuses.word

theorem wellDescribed_of_small {op : UInt16} (seq : UInt16) (notRead : op ≠ opFSRead)
    (notList : op ≠ opFSList) (small : Small answer) : WellDescribed (answer.frame op seq) where
  fits := by
    rw [length_frame]
    unfold maxMsg
    unfold Small at small
    omega
  read := fun isRead => by
    rw [get16_frame] at isRead
    exact absurd isRead notRead
  list := fun isList => by
    rw [get16_frame] at isList
    exact absurd isList notList

theorem wellDescribed_read {bytes : Bytes} (seq : UInt16) (bounded : bytes.length ≤ maxMsg - 16) :
    WellDescribed ((⟨fsOK, put16 (ofNat bytes.length) ++ bytes⟩ : Answer).frame
        opFSRead seq) ↔ bytes.length ≤ 4066 := by
  constructor
  · rintro ⟨fits, _, _⟩
    rw [length_frame, length_append, length_put16] at fits
    unfold maxMsg at fits
    omega
  · intro small
    refine ⟨?_, fun _ _ => ?_, fun isList => ?_⟩
    · rw [length_frame, length_append, length_put16]
      unfold maxMsg
      omega
    · have count : get16 ((⟨fsOK, put16 (ofNat bytes.length) ++ bytes⟩ :
          Answer).frame opFSRead seq) 28 = ofNat bytes.length := by
        refine get16_put16 _ _ _ _ ?_
        simp
      have exactCount : (ofNat bytes.length).toNat = bytes.length :=
        toNat_ofNat_of_lt' (by change bytes.length < 65536; omega)
      rw [count, length_frame, length_append, length_put16]
      omega
    · rw [get16_frame] at isList
      exact absurd isList (by decide)

theorem wellDescribed_list (infos : List StatInfo) (seq : UInt16) : WellDescribed
      ((⟨fsOK, listBody infos⟩ : Answer).frame opFSList seq) ↔ ListFits infos := by
  have count : get32 ((⟨fsOK, listBody infos⟩ : Answer).frame opFSList seq) 28 =
      UInt32.ofNat infos.length := by
    rw [listBody, appendEntries_eq]
    refine get32_put32 _ _ _ _ ?_
    simp
  have decoded : decodeEntries (((⟨fsOK, listBody infos⟩ : Answer).frame opFSList seq).drop 32) =
      some ((fittingEntries 4 infos).map fun info => (info.name, info.attr, info.size)) := by
    exact decodeEntries_listBody infos
  constructor
  · rintro ⟨fits, _, list⟩
    obtain ⟨entries, found, exactly⟩ := list (get16_frame _ _ _) (get32_frame _ _ _)
    rw [decoded] at found
    cases found
    rw [count, length_map] at exactly
    rw [length_frame, length_listBody] at fits
    unfold maxMsg at fits
    exact ⟨by omega, exactly⟩
  · rintro ⟨small, all⟩
    refine ⟨?_, fun isRead => ?_, fun _ _ => ?_⟩
    · rw [length_frame, length_listBody]
      unfold maxMsg
      omega
    · rw [get16_frame] at isRead
      exact absurd isRead (by decide)
    · refine ⟨_, decoded, ?_⟩
      rw [count, length_map]
      exact all

/-- The bytes that a READ returns leave room for the header. -/
def ReadFits (go : GoStrings) (store : Store State) (sessions : Sessions)
    (uid : UInt32) (payload : Bytes) (state : State) : Prop :=
  ∀ raw plen path bytes, lStr payload 0 = some (raw, plen) →
    authorize go sessions uid raw false = .ok path →
    (store.readFile path (get64 payload plen)
      (readCount (get16 payload (plen + 8))) state).1 = .ok bytes →
    bytes.length ≤ 4066

/-- The entries that a LIST returns leave room for the header. -/
def DirectoryFits (go : GoStrings) (store : Store State)
    (sessions : Sessions) (uid : UInt32) (payload : Bytes)
    (state : State) : Prop :=
  ∀ path infos, authPath go sessions uid payload false = .ok path →
    (store.list path state).1 = .ok infos →
    ListFits (visibleEntries go sessions uid path infos)

theorem serveRead_wellDescribed (served :
      serveRead go store sessions uid payload state = some (answer, next)) (seq : UInt16) :
    WellDescribed (answer.frame opFSRead seq) ↔ ReadFits go store sessions uid payload state := by
  unfold serveRead at served
  split at served
  · cases served
  next raw plen parsed =>
  split at served
  · cases served
  split at served
  next status denied =>
    cases served
    refine iff_of_true (wellDescribed_refusal (authorize_error denied) _ _) ?_
    intro otherRaw otherPlen path bytes otherParsed allowed
    rw [parsed] at otherParsed
    cases otherParsed
    rw [denied] at allowed
    cases allowed
  next path allowed =>
    have unique : ∀ {otherRaw otherPlen otherPath}, lStr payload 0 = some (otherRaw, otherPlen) →
        authorize go sessions uid otherRaw false = .ok otherPath →
        otherPlen = plen ∧ otherPath = path := by
      intro otherRaw otherPlen otherPath otherParsed otherAllowed
      rw [parsed] at otherParsed
      cases otherParsed
      rw [allowed] at otherAllowed
      cases otherAllowed
      exact ⟨rfl, rfl⟩
    rcases onStore_cases (Option.some.inj served) with
      ⟨failure, failed, rfl⟩ | ⟨bytes, middle, succeeded, rendered⟩
    · refine iff_of_true (wellDescribed_refusal (refuses_fsStatus failure) _ _) ?_
      intro otherRaw otherPlen otherPath bytes otherParsed otherAllowed read
      obtain ⟨rfl, rfl⟩ := unique otherParsed otherAllowed
      rw [failed] at read
      cases read
    · cases rendered
      have bounded := (store.readFile_le succeeded).trans (Nat.min_le_right _ _)
      rw [wellDescribed_read seq bounded]
      constructor
      · intro small otherRaw otherPlen otherPath other otherParsed otherAllowed read
        obtain ⟨rfl, rfl⟩ := unique otherParsed otherAllowed
        rw [succeeded] at read
        cases read
        exact small
      · intro fits
        exact fits raw plen path bytes parsed allowed (by rw [succeeded])

theorem serveList_wellDescribed
    (served : serveList go store sessions uid payload state = (answer, next)) (seq : UInt16) :
    WellDescribed (answer.frame opFSList seq) ↔
      DirectoryFits go store sessions uid payload state := by
  unfold serveList at served
  split at served
  next status denied =>
    cases served
    refine iff_of_true (wellDescribed_refusal (authPath_error denied) _ _) ?_
    intro path infos allowed
    rw [denied] at allowed
    cases allowed
  next path allowed =>
    rcases onStore_cases served with
      ⟨failure, failed, rfl⟩ | ⟨infos, middle, succeeded, rendered⟩
    · refine iff_of_true (wellDescribed_refusal (refuses_fsStatus failure) _ _) ?_
      intro otherPath infos otherAllowed listed
      rw [allowed] at otherAllowed
      cases otherAllowed
      rw [failed] at listed
      cases listed
    · cases rendered
      rw [wellDescribed_list]
      constructor
      · intro fits otherPath other otherAllowed listed
        rw [allowed] at otherAllowed
        cases otherAllowed
        rw [succeeded] at listed
        cases listed
        exact fits
      · intro fits
        exact fits path infos allowed (by rw [succeeded])

end Answers

/-! ## Every reply -/

/-- What a request asks for fits a reply. -/
def RequestFits {State : Type} (go : GoStrings) (store : Store State)
    (op : UInt16) (uid : UInt32) (payload : Bytes)
    (server : Server State) : Prop :=
  (op = opFSRead → ReadFits go store server.sessions uid payload server.state) ∧
  (op = opFSList → DirectoryFits go store server.sessions uid payload server.state)

section Replies

variable {State : Type} {go : GoStrings} {store : Store State} {op : UInt16} {uid : UInt32}
  {payload : Bytes}
  {server after : Server State}
  {answer : Answer}

theorem serve_wellDescribed (served : serve go store op uid payload server = some (answer, after))
    (seq : UInt16) :
    WellDescribed (answer.frame op seq) ↔ RequestFits go store op uid payload server := by
  by_cases isRead : op = opFSRead
  · subst isRead
    obtain ⟨⟨inner, state⟩, ran, renamed⟩ := Option.map_eq_some_iff.mp served
    cases renamed
    rw [serveRead_wellDescribed ran seq]
    exact ⟨fun fits => ⟨fun _ => fits, nofun⟩, fun fits => fits.1 rfl⟩
  by_cases isList : op = opFSList
  · subst isList
    cases served
    rw [serveList_wellDescribed rfl seq]
    exact ⟨fun fits => ⟨nofun, fun _ => fits⟩, fun fits => fits.2 rfl⟩
  · have small := (@serve_keeps _ go store uid payload (fun _ => True) _ _ _ _
      (fun _ _ _ _ => trivial) trivial served).2.1 isRead isList
    exact iff_of_true (wellDescribed_of_small seq isRead isList small)
      ⟨fun read => absurd read isRead, fun list => absurd list isList⟩

end Replies

/--
For every store and every request that is answered: the reply fits a datagram
and carries as many bytes or entries as it says exactly when a READ finds at
most 4066 bytes and the entries that a LIST finds take at most 4068 bytes with
their count.
-/
theorem reply_well_described_iff {State : Type} {go : GoStrings} {store : Store State}
    {req rep inbox : Bytes} {server : Server State}
    (replied : (dispatch go store req server).1 = some (rep, inbox)) :
    WellDescribed rep ↔ RequestFits go store (get16 req 0) (get32 req 4)
      (req.drop canonicalHeaderLen) server := by
  unfold dispatch at replied
  split at replied
  · cases replied
  next hdr parsed =>
  split at replied
  · cases replied
  split at replied
  · cases replied
  next answer next served =>
  cases replied
  obtain ⟨opIs, uidIs⟩ := parseHeader_op_uid parsed
  rw [← opIs, ← uidIs]
  exact serve_wellDescribed served hdr.seq

/-! ## A volume with one file -/

/-- A volume whose root holds the file `f` with these bytes. -/
def volumeOf (bytes : Bytes) : KFS :=
  { inodes :=
      update (update (fun _ => none) rootIno (some ⟨rootIno, 0, kindDir, 0⟩))
        2 (some ⟨2, 0, kindFile, UInt32.ofNat bytes.length⟩)
    children := update (fun _ => []) rootIno [0]
    dirents := [⟨rootIno, ascii "f", 2, false⟩]
    data := update (fun _ => []) 2 bytes
    nextIno := 3
    dev := ⟨1024, fun _ => 0⟩
    logData := []
    wOff := logStart
    recs := 0
    logEnd := logLimit 1024 }

def serverOf (bytes : Bytes) : Server KFS := ⟨fun _ => none, volumeOf bytes⟩

def readRequest (count : UInt16) : Bytes :=
  put16 opFSRead ++ put16 7 ++ put32 0 ++ (ascii "inbox" ++ replicate 11 0) ++
    (appendLStr (ascii "/f") ++ put64 0 ++ put16 count)

theorem reply_well_described_of_short : ∃ rep, (dispatch asciiStrings kfsStore (readRequest 3)
      (serverOf [1, 2, 3])).1 = some (rep, ascii "inbox") ∧ WellDescribed rep := by
  refine ⟨_, rfl, ?_⟩
  refine (@reply_well_described_iff KFS asciiStrings kfsStore (readRequest 3)
    _ (ascii "inbox") (serverOf [1, 2, 3]) rfl).mpr
    ⟨?_, fun isList => absurd isList (by decide)⟩
  rintro - raw plen path bytes parsed - read
  cases parsed
  exact (kfsStore.readFile_le (Prod.ext read rfl)).trans (by decide)

/-- A READ of 4080 bytes is answered with 4110. -/
theorem read_reply_too_long : ∃ rep, (dispatch asciiStrings kfsStore (readRequest 4080)
        (serverOf (replicate 4080 0))).1 = some (rep, ascii "inbox") ∧ ¬WellDescribed rep := by
  have evaluated : ((dispatch asciiStrings kfsStore (readRequest 4080)
      (serverOf (replicate 4080 0))).1.map fun reply => (reply.1.length, reply.2)) =
      some (4110, ascii "inbox") := by
    decide +kernel
  obtain ⟨⟨rep, port⟩, replied, facts⟩ := Option.map_eq_some_iff.mp evaluated
  obtain ⟨length, rfl⟩ := Prod.mk.inj facts
  refine ⟨rep, replied, fun described => ?_⟩
  have fits := described.fits
  rw [length] at fits
  exact absurd fits (by decide)

end KernelLane.Fs
