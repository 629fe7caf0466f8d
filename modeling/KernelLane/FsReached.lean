import KernelLane.FsCalls
import KernelLane.KfsChunks
import KernelLane.KfsDelete

namespace KernelLane.Fs

open GuestFrame Kfs List Nat

/-!
# The states of a running file server

The server mounts its volume, provides the standard directories and then
serves one datagram after another.  A datagram is short, so all that it makes
the store log can be read back: in every state that a server reaches, the log
reads back up to its cursor.
-/

/-! ## Starting -/

def ensureDir {State : Type} (store : Store State) (path : Bytes) (state : State) : State :=
  match store.stat path state with
  | (.error .noEntry, next) => (store.mkdir path next).2
  | (_, next) => next

def standardDirs : List Bytes :=
  [ascii "/etc", ascii "/home", ascii "/tmp", ascii "/boot", ascii "/boot/modules"]

def motdPath : Bytes := ascii "/etc/motd"

def motdText : Bytes := ascii "Welcome to the capability microkernel\n"

def ensureStandardDirs {State : Type} (store : Store State) (state : State) : State :=
  let provided := standardDirs.foldl (fun next path => ensureDir store path next) state
  match store.stat motdPath provided with
  | (.error .noEntry, next) =>
    (store.writeFile motdPath 0 motdText (store.create motdPath next).2).2
  | (_, next) => next

/-- The servers that are reached from a mount by serving datagrams. -/
inductive Reached (go : GoStrings) : Server KFS → Prop where
  | mounted {device : BlockDev} {volume : KFS} (mounted : mountKFS device = .mounted volume) :
    Reached go ⟨fun _ => none, volume⟩
  | provided {server : Server KFS} (before : Reached go server) : Reached go
    ⟨server.sessions, ensureStandardDirs kfsStore server.state⟩
  | served {server : Server KFS} {req : Bytes} (before : Reached go server)
    (fits : req.length ≤ maxMsg) :
    Reached go (dispatch go kfsStore req server).2

/-! ## Lengths -/

/-- Lowering a text lengthens it by a bounded factor. -/
def GoStrings.Bounded (go : GoStrings) : Prop := ∀ text, (go.toLower text).length ≤ 4 * text.length

variable {path : Bytes} {go : GoStrings} {volume : KFS}

theorem length_le_of_mem_splitOn {part : Bytes} (member : part ∈ path.splitOn slash) :
    part.length ≤ path.length := by
  induction path generalizing part with
  | nil =>
    have only : part = [] := by simpa using member
    rw [only]
  | cons byte path hypothesis =>
    rw [splitOn, splitOnP_cons_eq_if_modifyHead] at member
    rw [splitOn] at hypothesis
    split at member
    · rcases mem_cons.mp member with rfl | later
      · exact zero_le _
      · exact (hypothesis later).trans (le_succ _)
    · cases rest : path.splitOnP (· == slash) with
      | nil =>
        rw [rest] at member
        cases member
      | cons head tail =>
        rw [rest] at member hypothesis
        rcases mem_cons.mp member with rfl | later
        · exact succ_le_succ (hypothesis mem_cons_self)
        · exact (hypothesis (mem_cons_of_mem _ later)).trans (le_succ _)

theorem mem_of_mem_cleanParts {parts kept : List Bytes} {part : Bytes}
    (cleaned : cleanParts parts = some kept) (member : part ∈ kept) : part ∈ parts := by
  induction parts generalizing kept with
  | nil =>
    cases cleaned
    cases member
  | cons first rest hypothesis =>
    unfold cleanParts at cleaned
    split at cleaned
    · exact mem_cons_of_mem _ (hypothesis cleaned member)
    split at cleaned
    · cases cleaned
    obtain ⟨tail, tailCleaned, rfl⟩ := Option.map_eq_some_iff.mp cleaned
    rcases mem_cons.mp member with rfl | inTail
    · exact mem_cons_self
    · exact mem_cons_of_mem _ (hypothesis tailCleaned inTail)

theorem length_leafName_le (path : Bytes) : (leafName path).length ≤ path.length := by
  unfold leafName
  split
  · exact zero_le _
  next parts split =>
  cases parts with
  | nil => exact zero_le _
  | cons first rest =>
    have last : (first :: rest).getLastD [] ∈ first :: rest := by
      rw [getLastD_eq_getLast?, getLast?_eq_some_getLast (cons_ne_nil first rest)]
      exact getLast_mem (cons_ne_nil first rest)
    cases path with
    | nil => cases split
    | cons byte path =>
      unfold splitPath at split
      dsimp only at split
      split at split
      · cases split
      split at split
      · cases split
      next kept cleaned =>
      cases split
      exact (length_le_of_mem_splitOn (mem_of_mem_cleanParts cleaned last)).trans (le_succ _)

theorem length_trimPrefix_le (start text : Bytes) :
    (trimPrefix start text).length ≤ text.length := by
  unfold trimPrefix
  split
  · rw [length_drop]
    omega
  · exact le_refl _

@[simp] theorem length_homePath (rest : Bytes) : (homePath rest).length = rest.length + 6 := by
  have name : homeName.length = 4 := by decide
  simp [homePath, name]
  omega

theorem length_gateHome_le {session : Option FsSession} {rest : Bytes} {write : Bool}
    {limit : Nat} (names : ∀ user, session = some user → user.name.length ≤ limit)
    (allowed : gateHome go session rest write = .ok path) :
    path.length ≤ max rest.length limit + 6 := by
  unfold gateHome at allowed
  split at allowed
  · split at allowed
    · cases allowed
    cases session with
    | none => cases allowed
    | some user =>
      cases allowed
      have short := names user rfl
      rw [length_homePath]
      omega
  · split at allowed
    · split at allowed
      · cases allowed
        rw [length_homePath]
        omega
      · cases allowed
    · cases allowed

theorem length_gateAbsolute_le {go : GoStrings} {session : Option FsSession} {clean path : Bytes}
    {write : Bool} {limit : Nat} (names : ∀ user, session = some user → user.name.length ≤ limit)
    (allowed : gateAbsolute go session clean write = .ok path) :
    path.length ≤ clean.length + limit + 6 := by
  unfold gateAbsolute at allowed
  dsimp only at allowed
  split at allowed
  · cases allowed
    rw [length_cons]
    omega
  split at allowed
  · split at allowed
    · cases allowed
    cases allowed
    rw [length_cons]
    omega
  split at allowed
  · split at allowed
    · cases allowed
    cases allowed
    rw [length_cons]
    omega
  split at allowed
  · have bounded := length_gateHome_le names allowed
    have trimmed := length_trimPrefix_le (homeName ++ [slash]) clean
    split at bounded
    · simp only [length_nil] at bounded
      omega
    · omega
  · cases allowed

theorem length_authorize_le {sessions : Sessions} {uid : UInt32} {raw : Bytes} {write : Bool}
    {limit : Nat} (names : ∀ user, sessions uid = some user → user.name.length ≤ limit)
    (allowed : authorize go sessions uid raw write = .ok path) :
    path.length ≤ raw.length + limit + 7 := by
  have trimmed := length_trimPrefix_le [slash] raw
  unfold authorize at allowed
  split at allowed
  · cases allowed
  split at allowed
  · split at allowed
    · cases allowed
    cases allowed
    unfold absPath
    split
    · omega
    · exact zero_le _
  dsimp only at allowed
  split at allowed
  next user registered =>
    have short := names user registered
    split at allowed
    · cases allowed
      rw [length_homePath, length_append, length_cons]
      omega
    · exact (length_gateAbsolute_le (fun other same => by cases same; exact short) allowed).trans
        (by omega)
  · split at allowed
    · cases allowed
    · have bounded := @length_gateAbsolute_le go none _ _ _ 0 nofun allowed
      omega

/-! ## The log reads back -/

theorem readableRelation : LogRelation (fun before after => ∃ added, KFS.Extends before after added)
    Record.Readable where
  ofSameLog := fun same => ⟨[], same.extends⟩
  trans := by
    rintro _ _ _ ready ⟨added, left⟩ ⟨later, right⟩
    exact ⟨added ++ later, left.trans ready right⟩
  grows := by
    rintro _ _ ⟨added, extended⟩
    exact extended.toGrows
  append := by
    intro volume record ready readable
    obtain ⟨added, extended, _⟩ := KFS.append_extends ready readable
    exact ⟨added, extended⟩

/-- The call has a short path and few bytes. -/
def ShortOp : Op → Prop
  | .create path => path.length ≤ maxName
  | .mkdir path => path.length ≤ maxName
  | .delete path => path.length ≤ maxName
  | .writeFile _ _ data => data.length ≤ maxWrite
  | .setUID _ _ => True
  | .readFile _ _ _ => True

theorem readable_of_mayWrite {op : Op} {record : Record} (short : ShortOp op)
    (writes : op.MayWrite record) : record.Readable := by
  cases op with
  | create path =>
    rcases writes with ⟨node, rfl⟩ | ⟨parent, ino, rfl⟩ | ⟨ino, rfl⟩
    · exact readable_inodeRecord node
    · exact readable_direntRecord ((length_leafName_le path).trans short)
    · exact readable_truncateRecord ino
  | mkdir path =>
    rcases writes with ⟨node, rfl⟩ | ⟨parent, ino, rfl⟩
    · exact readable_inodeRecord node
    · exact readable_direntRecord ((length_leafName_le path).trans short)
  | delete path =>
    obtain ⟨parent, rfl⟩ := writes
    exact readable_direntDeleteRecord ((length_leafName_le path).trans short)
  | writeFile path off data =>
    rcases writes with ⟨node, rfl⟩ | ⟨ino, rfl⟩
    · exact readable_inodeRecord node
    · exact readable_dataRecord short
  | setUID path owner =>
    obtain ⟨node, rfl⟩ := writes
    exact readable_inodeRecord node
  | readFile path off count => exact writes.elim

theorem logReads_run {op : Op} {volume : KFS} (short : ShortOp op) (reads : volume.LogReads) :
    (op.run volume).2.LogReads := by
  obtain ⟨_, added, extended⟩ :=
    readableRelation.keeps_run
      (fun _ writes => readable_of_mayWrite short writes) volume reads.ready
  exact (reads.extends extended).1

theorem logReads_call {call : StoreCall} {volume : KFS} (shortName : call.path.length ≤ maxName)
    (shortData : call.data.length ≤ maxWrite) (reads : volume.LogReads) :
    (call.run kfsStore volume).LogReads := by
  cases call with
  | create path => exact @logReads_run (.create path) _ shortName reads
  | mkdir path => exact @logReads_run (.mkdir path) _ shortName reads
  | delete path => exact @logReads_run (.delete path) _ shortName reads
  | stat | list => exact reads
  | readFile path off count =>
    have kept := @logReads_run (.readFile path off count) volume trivial reads
    have same : ((Op.readFile path off count).run volume).2 =
        (KFS.readFile path off count volume).2 := by
      rw [Op.run]
      cases turn : KFS.readFile path off count volume with
      | mk result next =>
        cases result with
        | error failure => rw [Effect.bind_of_error turn]
        | ok bytes =>
          rw [Effect.bind_of_ok turn]
          rfl
    rwa [same] at kept
  | writeFile path off data => exact @logReads_run (.writeFile path off data) _ shortData reads

/-- The log reads back, and the names of the users are short. -/
structure ServerSound (server : Server KFS) : Prop where
  reads : server.state.LogReads
  names : ∀ uid user, server.sessions uid = some user → user.name.length ≤ 128

theorem mounted_logReads {device : BlockDev} (mounted : mountKFS device = .mounted volume) :
    volume.LogReads := by
  obtain ⟨records, laid, _, _, shape⟩ := mounted_laid mounted
  have shaped := bootVolume_shaped device
  have bounds := KFS.laid_bounds shaped (le_refl _) laid
  generalize bootVolume device = boot at shaped laid bounds shape
  have sameRecords : volume.recordAt = boot.recordAt := by
    rw [shape]
    exact KFS.recordAt_congr rfl rfl rfl
  refine ⟨⟨⟨?_, ?_⟩, by omega⟩, records, by rw [sameRecords]; exact laid⟩
  · rw [shape]
    exact shaped.preloadShort
  · rw [shape]
    exact shaped.endInside

theorem kfsStat_state {next : KFS} {result : Except FsError StatInfo}
    (looked : kfsStore.stat path volume = (result, next)) : next = volume :=
  (congrArg Prod.snd looked).symm

theorem logReads_ensureDir (short : path.length ≤ maxName) (reads : volume.LogReads) :
    (ensureDir kfsStore path volume).LogReads := by
  unfold ensureDir
  split
  next next missing =>
    have same := kfsStat_state missing
    subst same
    exact @logReads_call (.mkdir path) _ short (zero_le _) reads
  next result next _ found =>
    rw [kfsStat_state found]
    exact reads

theorem logReads_ensureStandardDirs (reads : volume.LogReads) :
    (ensureStandardDirs kfsStore volume).LogReads := by
  have dirs : ∀ (paths : List Bytes) (start : KFS), (∀ path ∈ paths, path.length ≤ maxName) →
      start.LogReads →
      (paths.foldl (fun next path => ensureDir kfsStore path next) start).LogReads := by
    intro paths
    induction paths with
    | nil => exact fun _ _ reads => reads
    | cons path rest hypothesis =>
      intro start short reads
      exact hypothesis _ (fun other member => short other (mem_cons_of_mem _ member))
        (logReads_ensureDir (short path mem_cons_self) reads)
  have provided := dirs standardDirs volume (by decide) reads
  unfold ensureStandardDirs
  generalize standardDirs.foldl (fun next path => ensureDir kfsStore path next)
    volume = tree at provided
  dsimp only
  split
  next next missing =>
    have same := kfsStat_state missing
    subst same
    have created := @logReads_call (.create motdPath) _ (by decide) (zero_le _) provided
    exact @logReads_call (.writeFile motdPath 0 motdText) _ (by decide) (by decide) created
  next result next _ found =>
    rw [kfsStat_state found]
    exact provided

theorem sound_serve {op : UInt16} {uid : UInt32} {payload : Bytes} {server after : Server KFS}
    {answer : Answer} (bounded : go.Bounded) (short : payload.length ≤ 4096)
    (sound : ServerSound server)
    (served : serve go kfsStore op uid payload server = some (answer, after)) :
    ServerSound after := by
  have kept : CallsKeep go kfsStore server.sessions uid payload KFS.LogReads := by
    intro call requested state reads
    cases requested with
    | @authorized raw plen write call parsed allowed covers few =>
      have pathLength := length_authorize_le (sound.names uid) allowed
      have rawBounds := bounds_of_lStr parsed
      refine logReads_call ?_ ?_ reads
      · simp only [maxName]
        omega
      · simp only [maxWrite]
        omega
    | @home who name mask call privileged registered provides =>
      have nameLength := (registration_spec registered).2
      have lowered := bounded name
      have homeLength : (homePath (go.toLower name)).length ≤ maxName := by
        rw [length_homePath]
        simp only [maxName]
        omega
      rcases provides with rfl | rfl
      · exact logReads_call homeLength (zero_le _) reads
      · exact logReads_call homeLength (zero_le _) reads
  obtain ⟨reads, _, sessions⟩ := serve_keeps kept sound.reads served
  refine ⟨reads, ?_⟩
  · intro who user registered
    rcases sessions with same | ⟨_, changed⟩
    · rw [same] at registered
      exact sound.names who user registered
    · rw [changed] at registered
      unfold registerSession at registered
      cases entry : registration payload with
      | none =>
        rw [entry] at registered
        exact sound.names who user registered
      | some fields =>
        obtain ⟨number, name, mask⟩ := fields
        rw [entry] at registered
        dsimp only at registered
        by_cases isNew : who = number
        · subst isNew
          rw [Function.update_self] at registered
          cases registered
          have nameLength := (registration_spec entry).2
          have lowered := bounded name
          dsimp only
          omega
        · rw [Function.update_of_ne isNew] at registered
          exact sound.names who user registered

theorem Reached.sound {server : Server KFS} (bounded : go.Bounded) (reached : Reached go server) :
    ServerSound server := by
  induction reached with
  | mounted mounted => exact ⟨mounted_logReads mounted, nofun⟩
  | provided before hypothesis =>
    exact ⟨logReads_ensureStandardDirs hypothesis.reads, hypothesis.names⟩
  | @served server req before fits hypothesis =>
    rcases @dispatch_cases _ go kfsStore req server with
      ignored | ⟨answer, after, served, same⟩
    · rw [ignored]
      exact hypothesis
    · rw [same]
      have short : req.length ≤ 4096 := fits
      exact sound_serve bounded (by rw [length_drop]; omega) hypothesis served

end KernelLane.Fs
