import KernelLane.KernCaps
import KernelLane.LoginAuth
import Mathlib.Data.List.TakeWhile

namespace KernelLane.Login

open BitMasks GuestFrame Kern List UInt32 Sched Kernel

/-!
# The sessions that a login labels

A granted request spawns a shell with the owner of the login service and then
asks the registry to give two sessions the user's uid and mask: the one named
like the shell, and the one named like the reply port of the request, which is
how a client that authenticates itself receives its identity.  The registry
takes the first live session of a name, so both hit the sessions they are
meant for only as long as the names are not shared.

Each registry call is answered before the next one is made.  The focus change,
the registration with the file system and the sending of the reply leave the
session table alone and are left out.
-/

/-! ## Registry calls -/

def padded (width : Nat) (text : Bytes) : Bytes := (text ++ replicate width 0).take width

def statusOK : UInt32 := 0
def statusBad : UInt32 := 0xFFFFFFFF
def spawnNone : UInt32 := 0xFFFFFFFF

def spawnPayload (name path : Bytes) (capmask : UInt64) (args : List Bytes) : Bytes :=
  padded 16 name ++ padded 64 path ++ put32 capmask.toUInt32 ++
    put16 (UInt16.ofNat args.length) ++ args.flatMap fun arg => arg ++ [0]

def loginPayload (name : Bytes) (uid : UInt32) (capmask : UInt64) : Bytes :=
  padded 16 name ++ put32 uid ++ put32 capmask.toUInt32

def replyStatus : Reply → UInt32
  | .answer _ body => get32 body 0
  | _ => 0xFFFFFFFF

def regSpawn (kernel : Kernel) (env : SvcEnv) (self : UInt32) (name path : Bytes) (capmask : UInt64)
    (args : List Bytes) : UInt32 × Kernel :=
  let (reply, served) := kernel.registry env self 4 (spawnPayload name path capmask args)
  (replyStatus reply, served)

def regLogin (kernel : Kernel) (env : SvcEnv) (self : UInt32) (name : Bytes) (uid : UInt32)
    (capmask : UInt64) : Kernel :=
  (kernel.registry env self 5 (loginPayload name uid capmask)).2

/-! ## A granted request -/

def User.shellMask (user : User) : UInt64 := user.mask ||| capPortbind

def doSpawn (kernel : Kernel) (env : SvcEnv) (self : UInt32) (shell : Bytes)
    (user : User) : UInt32 × Kernel :=
  let (sid, spawned) :=
    regSpawn kernel env self shell shell user.shellMask [ascii "/home/" ++ user.name]
  if sid = spawnNone then (spawnNone, spawned)
  else (sid, regLogin spawned env self shell user.uid user.shellMask)

def authReply (req : Bytes) (status : UInt32) (mask : UInt64) (sid : UInt32) : Bytes :=
  put16 (get16 req 0) ++ put16 (get16 req 2) ++ replicate 20 0 ++
    put32 status ++ put64 mask ++ put32 sid

/-- Serve one request: the reply, if any, and the kernel afterwards. -/
def serveAuth (kernel : Kernel) (env : SvcEnv) (self : UInt32) (users : List User) (shell : Bytes)
    (bound : Bool)
    (req : Bytes) : Option Bytes × Kernel :=
  match kernAuth users bound req with
  | .ignored => (none, kernel)
  | .refused => (some (authReply req statusBad 0 spawnNone), kernel)
  | .granted user =>
    let (sid, spawned) := doSpawn kernel env self shell user
    (some (authReply req statusOK user.mask sid),
      regLogin spawned env self (replyName req) user.uid user.shellMask)

/-! ## Sessions by name -/

variable {name : Bytes} {sched : Sched} {slot : Nat} {session : Session} {kernel : Kernel}
  {self : UInt32}

theorem cstr_padded (short : name.length ≤ 16) (plain : 0 ∉ name) (rest : Bytes) :
    cstr ((padded 16 name ++ rest).take 16) = name := by
  have size : (padded 16 name).length = 16 := by simp [padded]
  have field : padded 16 name = name ++ replicate (16 - name.length) 0 := by
    rw [padded, take_append, take_of_length_le short, take_replicate, Nat.min_eq_left (by omega)]
  have zeros (count : Nat) : (replicate count (0 : UInt8)).takeWhile (fun byte => byte ≠ 0) =
      [] := by
    cases count <;> simp
  rw [take_left' size, field, cstr, takeWhile_append_of_pos]
  · rw [zeros, append_nil]
  · intro byte member
    have nonzero : byte ≠ 0 := by
      rintro rfl
      exact plain member
    simpa using nonzero

theorem within_low (mask : UInt64) : Within mask.toUInt32.toUInt64 mask := by
  rw [within_iff]
  intro bit set
  simp only [toBitVec_toUInt64, UInt64.toBitVec_toUInt32,
    BitVec.getLsbD_setWidth, Bool.and_eq_true] at set
  exact set.2.2

theorem sessionByName_congr {after : Sched} (same : ∀ slot ∈ Sched.slots,
      (after.live slot && (after.sessions slot).name = name) =
        (sched.live slot && (sched.sessions slot).name = name)) :
    after.sessionByName name = sched.sessionByName name := by
  have found (slots : List Nat) (within : slots ⊆ Sched.slots) : slots.find? (fun slot =>
        after.live slot && (after.sessions slot).name = name) =
      slots.find? fun slot => sched.live slot && (sched.sessions slot).name = name := by
    induction slots with
    | nil => rfl
    | cons slot rest hypothesis =>
      rw [List.find?_cons, List.find?_cons, same slot (within mem_cons_self),
        hypothesis (subset_of_cons_subset within)]
  exact found _ (List.Subset.refl _)

theorem sessionByName_spec (found : sched.sessionByName name = some slot) :
    slot ∈ slots ∧ sched.live slot = true ∧ (sched.sessions slot).name = name := by
  have accepted := List.find?_some found
  simp only [Bool.and_eq_true, decide_eq_true_eq] at accepted
  exact ⟨mem_of_find?_eq_some found, accepted⟩

/-- Only free slots may differ, and they stay free. -/
structure SameSessions (sched after : Sched) : Prop where
  status : ∀ slot, (after.sessions slot).status = (sched.sessions slot).status
  session : ∀ slot, (sched.sessions slot).status ≠ .free → after.sessions slot = sched.sessions slot

theorem SameSessions.refl (sched : Sched) : SameSessions sched sched :=
  ⟨fun _ => rfl, fun _ _ => rfl⟩

theorem SameSessions.setSession (free : (sched.sessions slot).status = .free)
    (idle : session.status = .free) : SameSessions sched (sched.setSession slot session) where
  status := by
    intro other
    by_cases same : other = slot
    · subst same
      rw [sessions_setSession_self, idle, free]
    · rw [sessions_setSession_of_ne sched session same]
  session := by
    intro other occupied
    have different : other ≠ slot := by
      rintro rfl
      exact occupied free
    rw [sessions_setSession_of_ne sched session different]

theorem ofInt_natCast (number : Nat) : ofInt number = ofNat number := by
  apply UInt32.toNat_inj.mp
  rw [UInt32.ofInt, UInt32.toNat_ofNat', UInt32.toNat_ofNat']
  omega

/-- What a spawn request does to the sessions, and the status it returns. -/
theorem regSpawn_cases (kernel : Kernel) (env : SvcEnv) (self : UInt32) (short : name.length ≤ 15)
    (plain : 0 ∉ name) (path : Bytes) (capmask : UInt64) (args : List Bytes) :
    (regSpawn kernel env self name path capmask args).2.ports = kernel.ports ∧
      (((regSpawn kernel env self name path capmask args).1 = spawnNone ∧ SameSessions kernel.sched
          (regSpawn kernel env self name path capmask args).2.sched) ∨
        ∃ slot session, slot ∈ slots ∧ (kernel.sched.sessions slot).status = .free ∧
          session.status = .runnable ∧ session.name = name ∧
          (regSpawn kernel env self name path capmask args).1 = ofNat slot ∧
          (regSpawn kernel env self name path capmask args).2.sched =
            kernel.sched.setSession slot session) := by
  have modname : cstr ((spawnPayload name path capmask args).take 16) = name := by
    rw [spawnPayload, append_assoc, append_assoc, append_assoc]
    exact cstr_padded (by omega) plain _
  have failed (word : Int) (negative : word = -1) :
      replyStatus (.answer 4 (statusBody word)) = spawnNone := by
    subst negative
    decide
  simp only [regSpawn, registry, registrySpawn, modname]
  split
  · exact ⟨rfl, .inl ⟨rfl, .refl _⟩⟩
  split
  · exact ⟨rfl, .inl ⟨rfl, .refl _⟩⟩
  split
  · exact ⟨rfl, .inl ⟨rfl, .refl _⟩⟩
  split
  · exact ⟨rfl, .inl ⟨rfl, .refl _⟩⟩
  refine ⟨rfl, ?_⟩
  have spawned := kernel.sched.spawnImage_spawned env.spawn name (kernel.sched.uidOf self)
    (get32 (spawnPayload name path capmask args) 80).toUInt64 name
    (name.take 15 :: spawnArgs (name.take 15) (spawnPayload name path capmask args))
  generalize kernel.sched.spawnImage _ _ _ _ _ _ = result at spawned ⊢
  cases spawned with
  | kept => exact .inl ⟨failed _ rfl, .refl _⟩
  | idle free still => exact .inl ⟨failed _ rfl, .setSession free still⟩
  | @started slot session found free runs named =>
    refine .inr ⟨slot, session, mem_of_find?_eq_some found, free, runs, ?_, ?_, rfl⟩
    · rw [named, take_of_length_le short]
    · have word := get32_put32 [] (ofInt slot) [] 0 rfl
      simpa [replyStatus, statusBody, ofInt_natCast] using word

theorem toNat_of_mem_slots (member : slot ∈ slots) :
    (ofNat slot).toNat = slot ∧ slot < maxSessions := by
  simp only [slots, mem_range'_1, maxSessions] at member ⊢
  rw [toNat_ofNat']
  omega

/-- Labelling a live session changes its owner, its mask and its source. -/
theorem setIdentity_cases (member : slot ∈ Sched.slots) (live : sched.live slot = true)
    (uid : UInt32) (capmask : UInt64) (self : UInt32) :
    ∃ source, (if (sched.setIdentity (ofNat slot) uid capmask).isInit self then
        ((sched.setIdentity (ofNat slot) uid capmask).setCapmask
          (ofNat slot) 0 capmask capSrcInit).2
      else sched.setIdentity (ofNat slot) uid capmask) =
      sched.setSession slot
        { sched.sessions slot with
          uid := uid
          capmask := capmask
          capSource := source } := by
  obtain ⟨number, below⟩ := toNat_of_mem_slots member
  have busy : (sched.sessions slot).status ≠ .free := by
    intro free
    simp [Sched.live, free] at live
  have occupied : sched.occupied (ofNat slot) = true := by
    simp [Sched.occupied, number, below, busy]
  have identified : sched.setIdentity (ofNat slot) uid capmask = sched.setSession slot
      { sched.sessions slot with
        uid := uid
        capmask := capmask
        capSource := capSrcLogin } := by
    rw [Sched.setIdentity, if_pos occupied, number]
  rw [identified]
  split
  · refine ⟨capSrcInit, ?_⟩
    have still : (sched.setSession slot
        { sched.sessions slot with
          uid := uid
          capmask := capmask
          capSource := capSrcLogin }).occupied (ofNat slot) =
        true := by
      simp [Sched.occupied, number, below, Sched.setSession, busy]
    rw [Sched.setCapmask, if_pos still, number]
    simp [Sched.setSession]
  · exact ⟨capSrcLogin, rfl⟩

/--
A login request of the service labels the first live session of the name and
nothing else.
-/
theorem regLogin_cases (env : SvcEnv) (owner : kernel.isLogin self = true)
    (short : name.length ≤ 16) (plain : 0 ∉ name) (uid : UInt32) (capmask : UInt64) :
    (regLogin kernel env self name uid capmask).ports = kernel.ports ∧
      match kernel.sched.sessionByName name with
      | none => (regLogin kernel env self name uid capmask).sched = kernel.sched
      | some slot =>
        ∃ source, (regLogin kernel env self name uid capmask).sched = kernel.sched.setSession slot
          { kernel.sched.sessions slot with
            uid := uid
            capmask := capmask.toUInt32.toUInt64
            capSource := source } := by
  have size : (padded 16 name).length = 16 := by simp [padded]
  have target : cstr ((loginPayload name uid capmask).take 16) = name := by
    rw [loginPayload, append_assoc]
    exact cstr_padded short plain _
  have owned : get32 (loginPayload name uid capmask) 16 = uid := by
    rw [loginPayload, append_assoc]
    exact get32_put32 _ uid _ 16 size
  have mask : get32 (loginPayload name uid capmask) 20 = capmask.toUInt32 := by
    have field := get32_put32 (padded 16 name ++ put32 uid) capmask.toUInt32 [] 20 (by simp [size])
    rwa [append_nil] at field
  have long : ¬ (loginPayload name uid capmask).length < 24 := by simp [loginPayload, size]
  simp only [regLogin, registry, registryLogin, owner, long,
    target, owned, mask, Bool.true_eq_false, and_false]
  cases found : kernel.sched.sessionByName name with
  | none => exact ⟨rfl, rfl⟩
  | some slot =>
    obtain ⟨member, live, _⟩ := sessionByName_spec found
    exact ⟨rfl, setIdentity_cases member live uid _ self⟩

theorem replyName_plain (req : Bytes) : (replyName req).length ≤ 16 ∧ 0 ∉ replyName req := by
  constructor
  · have shorter : (cstr ((req.drop 8).take 16)).length ≤ ((req.drop 8).take 16).length :=
      (takeWhile_sublist _).length_le
    rw [length_take] at shorter
    exact shorter.trans (Nat.min_le_left _ _)
  · intro member
    have nonzero := mem_takeWhile_imp member
    simp at nonzero

theorem sessionByName_spawned (member : slot ∈ Sched.slots) (started : session.status = .runnable)
    (fresh : sched.sessionByName session.name = none) :
    (sched.setSession slot session).sessionByName session.name = some slot := by
  have here : ((sched.setSession slot session).live slot &&
      ((sched.setSession slot session).sessions slot).name = session.name) = true := by
    simp [Sched.live, Sched.setSession, started]
  cases found : (sched.setSession slot session).sessionByName session.name with
  | none =>
    have missing := List.find?_eq_none.mp found slot member
    exact absurd here missing
  | some other =>
    by_cases same : other = slot
    · rw [same]
    obtain ⟨known, live, named⟩ := sessionByName_spec found
    rw [Sched.sessions_setSession_of_ne sched session same] at named
    rw [Sched.live, Sched.sessions_setSession_of_ne sched session same] at live
    have missing := List.find?_eq_none.mp fresh other known
    simp [Sched.live, named] at missing live
    exact absurd live (by simp [missing])

theorem sessionByName_setSession (free : (sched.sessions slot).status = .free)
    (other : session.name ≠ name) :
    (sched.setSession slot session).sessionByName name = sched.sessionByName name := by
  refine sessionByName_congr fun candidate _ => ?_
  by_cases same : candidate = slot
  · subst same
    simp [setSession, other, live, free]
  · rw [live, live, sessions_setSession_of_ne sched session same]

theorem SameSessions.sessionByName {after : Sched} (same : SameSessions sched after)
    (name : Bytes) : after.sessionByName name = sched.sessionByName name := by
  refine sessionByName_congr fun slot _ => ?_
  by_cases free : (sched.sessions slot).status = .free
  · simp [live, same.status slot, free]
  · rw [live, live, same.session slot free]

/-! ## What a granted request labels -/

/-- The session in this slot has the user's uid and at most the user's mask
and the right to bind ports. -/
def LabelledFor (sched : Sched) (user : User) (slot : Nat) : Prop :=
  (sched.sessions slot).uid = user.uid ∧ Within (sched.sessions slot).capmask user.shellMask

theorem labelledFor_setSession (sched : Sched) (user : User) (slot : Nat)
    (owner : session.uid = user.uid) (mask : session.capmask = user.shellMask.toUInt32.toUInt64) :
    LabelledFor (sched.setSession slot session) user slot := by
  rw [LabelledFor, sessions_setSession_self, mask]
  exact ⟨owner, within_low _⟩

theorem isLogin_congr {after : Kernel} (same : after.ports = kernel.ports) (self : UInt32) :
    after.isLogin self = kernel.isLogin self := by
  rw [isLogin, isLogin, same]

theorem doSpawn_cases (env : SvcEnv) (owner : kernel.isLogin self = true) {shell : Bytes}
    (short : shell.length ≤ 15) (plain : 0 ∉ shell)
    (fresh : kernel.sched.sessionByName shell = none) (user : User) :
    (doSpawn kernel env self shell user).2.ports = kernel.ports ∧
      (((doSpawn kernel env self shell user).1 = spawnNone ∧ SameSessions kernel.sched
          (doSpawn kernel env self shell user).2.sched) ∨
        ∃ slot session, slot ∈ slots ∧ (kernel.sched.sessions slot).status = .free ∧
          session.status = .runnable ∧ session.name = shell ∧ session.uid = user.uid ∧
          session.capmask = user.shellMask.toUInt32.toUInt64 ∧
          (doSpawn kernel env self shell user).1 = ofNat slot ∧
          (doSpawn kernel env self shell user).2.sched = kernel.sched.setSession slot session) := by
  obtain ⟨ports, spawned⟩ :=
    regSpawn_cases kernel env self short plain shell user.shellMask [ascii "/home/" ++ user.name]
  unfold doSpawn
  dsimp only
  rcases spawned with ⟨failed, same⟩ |
    ⟨slot, session, member, free, started, named, status, stored⟩
  · rw [if_pos failed]
    exact ⟨ports, .inl ⟨rfl, same⟩⟩
  · have number := toNat_of_mem_slots member
    have succeeded : ofNat slot ≠ spawnNone := by
      intro none
      have word := congrArg toNat none
      rw [number.1] at word
      rw [word] at number
      exact absurd number.2 (by decide)
    rw [status, if_neg succeeded]
    subst named
    obtain ⟨labelledPorts, labelled⟩ :=
      regLogin_cases env ((isLogin_congr ports self).trans owner)
        (show session.name.length ≤ 16 by omega) plain user.uid
        user.shellMask
    rw [stored, sessionByName_spawned member started fresh] at labelled
    obtain ⟨source, labelled⟩ := labelled
    refine ⟨labelledPorts.trans ports, .inr ⟨slot, { session with
        uid := user.uid
        capmask := user.shellMask.toUInt32.toUInt64
        capSource := source },
      member, free, started, rfl, rfl, rfl, rfl, ?_⟩⟩
    rw [labelled, sessions_setSession_self, setSession, setSession, Function.update_idem]
    rfl

/--
A granted request of a client whose session is the first of its reply name,
when no live session has the shell's name: the shell that was spawned, if one
was, and the client's session get the user's uid and a mask within the user's
and the right to bind ports, and every other session stays as it was.
-/
theorem login_labels_shell_and_client (env : SvcEnv) (owner : kernel.isLogin self = true)
    {shell : Bytes} (short : shell.length ≤ 15) (plain : 0 ∉ shell)
    (fresh : kernel.sched.sessionByName shell = none) {users : List User} {bound : Bool}
    {req : Bytes} {user : User} (granted : kernAuth users bound req = .granted user)
    {client : Nat} (own : kernel.sched.sessionByName (replyName req) = some client) :
    ∃ spawned : Option Nat, (serveAuth kernel env self users shell bound req).1 =
        some (authReply req statusOK user.mask (spawned.elim spawnNone ofNat)) ∧
      (∀ slot, spawned = some slot → (kernel.sched.sessions slot).status = .free ∧
        ((serveAuth kernel env self users shell bound
          req).2.sched.sessions slot).status = .runnable ∧
        LabelledFor (serveAuth kernel env self users shell bound req).2.sched user slot) ∧
      LabelledFor (serveAuth kernel env self users shell bound req).2.sched user client ∧
      ∀ slot, spawned ≠ some slot → slot ≠ client →
        ((serveAuth kernel env self users shell bound req).2.sched.sessions slot).status ≠ .free →
        (serveAuth kernel env self users shell bound req).2.sched.sessions slot =
          kernel.sched.sessions slot := by
  obtain ⟨ports, spawned⟩ := doSpawn_cases env owner short plain fresh user
  obtain ⟨shortReply, plainReply⟩ := replyName_plain req
  obtain ⟨_, labelled⟩ :=
    regLogin_cases env ((isLogin_congr ports self).trans owner) shortReply
      plainReply user.uid user.shellMask
  simp only [serveAuth, granted]
  rcases spawned with ⟨failed, same⟩ |
    ⟨slot, session, member, free, started, named, uid, mask, status, stored⟩
  · rw [same.sessionByName, own] at labelled
    obtain ⟨source, labelled⟩ := labelled
    refine ⟨none, by rw [failed]; rfl, by simp, ?_, ?_⟩
    · rw [labelled]
      exact labelledFor_setSession _ user client rfl rfl
    · intro other _ notClient occupied
      rw [labelled, Sched.sessions_setSession_of_ne _ _ notClient] at occupied ⊢
      rw [same.status] at occupied
      exact same.session other occupied
  · have different : session.name ≠ replyName req := by
      rw [named]
      intro equal
      rw [equal, own] at fresh
      cases fresh
    have elsewhere : slot ≠ client := by
      rintro rfl
      have live := (sessionByName_spec own).2.1
      simp [Sched.live, free] at live
    rw [stored, sessionByName_setSession free different, own] at labelled
    obtain ⟨source, labelled⟩ := labelled
    refine ⟨some slot, by rw [status]; rfl, ?_, ?_, ?_⟩
    · rintro _ ⟨⟩
      rw [LabelledFor, labelled, Sched.sessions_setSession_of_ne _ _ elsewhere,
        Sched.sessions_setSession_self]
      exact ⟨free, started, uid, mask ▸ within_low _⟩
    · rw [labelled]
      exact labelledFor_setSession _ user client rfl rfl
    · intro other notShell notClient _
      have notSlot : other ≠ slot := by
        rintro rfl
        exact notShell rfl
      rw [labelled, Sched.sessions_setSession_of_ne _ _ notClient,
        Sched.sessions_setSession_of_ne _ _ notSlot]

/-! ## A client that authenticates itself -/

/--
The login service in session 1, with the login port and the right to spawn, a
client in session 2 with nothing, and the image of the shell.
-/
def loginAndClient : Kernel where
  sched :=
    let images := schedInit.preloadImage (ascii "shell")
    let login := (images.spawnImpl plainEnv.spawn (ascii "login") 0 0xFFFFFFFF []).2
    (login.spawnImpl plainEnv.spawn (ascii "client") 0 0 []).2
  ports := (portsInit.portCreate true 1 (ascii "login")).2
  halted := false

def openUser : User := ⟨ascii "u1", 1001, 0x18, [], []⟩

def clientRequest : Bytes :=
  put16 opAuth ++ put16 1 ++ put32 0 ++ padded 16 (ascii "client") ++ ([2] ++ ascii "u1") ++ [0]

/--
The client's session, which was running before, gets the user's uid and mask;
so does the shell that was spawned.
-/
theorem client_session_labelled : kernAuth [openUser] true clientRequest = .granted openUser ∧
    (loginAndClient.sched.sessions 2).status = .runnable ∧
    (loginAndClient.sched.sessions 2).uid = 0 ∧
    ((serveAuth loginAndClient plainEnv 1 [openUser] (ascii "shell") true
      clientRequest).2.sched.sessions 2).uid = 1001 ∧
    ((serveAuth loginAndClient plainEnv 1 [openUser] (ascii "shell") true
      clientRequest).2.sched.sessions 2).capmask = 0x1018 ∧
    ((serveAuth loginAndClient plainEnv 1 [openUser] (ascii "shell") true
      clientRequest).2.sched.sessions 3).name = ascii "shell" := by
  decide +kernel

/-- Only the shell and the client's session are labelled. -/
theorem login_labels_one_client : loginAndClient.isLogin 1 = true ∧
    loginAndClient.sched.sessionByName (ascii "shell") = none ∧
    loginAndClient.sched.sessionByName (replyName clientRequest) = some 2 ∧
    LabelledFor (serveAuth loginAndClient plainEnv 1 [openUser] (ascii "shell") true
      clientRequest).2.sched openUser 2 ∧
    (serveAuth loginAndClient plainEnv 1 [openUser] (ascii "shell") true
        clientRequest).2.sched.sessions 1 = loginAndClient.sched.sessions 1 := by
  have owner : loginAndClient.isLogin 1 = true := by decide +kernel
  have fresh : loginAndClient.sched.sessionByName (ascii "shell") = none := by decide +kernel
  have own : loginAndClient.sched.sessionByName (replyName clientRequest) = some 2 := by
    decide +kernel
  have granted : kernAuth [openUser] true clientRequest = .granted openUser := by decide +kernel
  obtain ⟨spawned, _, shell, client, others⟩ :=
    login_labels_shell_and_client plainEnv owner (by decide) (by decide) fresh granted own
  refine ⟨owner, fresh, own, client, others 1 ?_ (by decide) ?_⟩
  · intro same
    have free := (shell 1 same).1
    revert free
    decide +kernel
  · decide +kernel

end KernelLane.Login
