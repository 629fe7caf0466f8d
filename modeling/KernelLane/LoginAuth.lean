import KernelLane.KernPorts
import KernelLane.Sha256

namespace KernelLane.Login

open UInt8 Option

/-!
# Authentication

`/etc/users` has one line for each user: name, uid, salted hash and capability
mask, separated by colons; lines that cannot be read are skipped.  An AUTH
request names a user and supplies a password.  The salt is what stands before
the first dollar sign of the hash field.  A user without a salt is taken in
with any password, so a field without a dollar sign, or with one at its very
beginning, leaves its user unprotected.
-/

/-! ## Text -/

def spaceRunes : List Bytes :=
  [[0x09], [0x0A], [0x0B], [0x0C], [0x0D], [0x20], [0xC2, 0x85],
    [0xC2, 0xA0], [0xE1, 0x9A, 0x80]] ++
    (List.range' 0x80 11).map (fun last => [0xE2, 0x80, ofNat last]) ++
    [[0xE2, 0x80, 0xA8], [0xE2, 0x80, 0xA9], [0xE2, 0x80, 0xAF],
      [0xE2, 0x81, 0x9F], [0xE3, 0x80, 0x80]]

def dropRunes (runes : List Bytes) : Nat → Bytes → Bytes
  | 0, text => text
  | count + 1, text =>
    match runes.find? fun rune => rune.isPrefixOf text with
    | none => text
    | some rune => dropRunes runes count (text.drop rune.length)

def trimSpace (text : Bytes) : Bytes :=
  let left := dropRunes spaceRunes text.length text
  (dropRunes (spaceRunes.map List.reverse) left.length left.reverse).reverse

def cut (separator : UInt8) : Bytes → Option (Bytes × Bytes)
  | [] => none
  | byte :: rest =>
    if byte = separator then some ([], rest)
    else (cut separator rest).map fun (before, after) => (byte :: before, after)

def digitOf (byte : UInt8) : Option Nat :=
  if 48 ≤ byte ∧ byte ≤ 57 then some (byte.toNat - 48)
  else if 97 ≤ byte ∧ byte ≤ 122 then some (byte.toNat - 87)
  else if 65 ≤ byte ∧ byte ≤ 90 then some (byte.toNat - 55)
  else none

def parseUint (base bits : Nat) (text : Bytes) : Option Nat :=
  if text = [] then none
  else
    (text.mapM fun byte => (digitOf byte).filter fun digit => digit < base).bind fun digits =>
      let value := digits.foldl (fun value digit => value * base + digit) 0
      if value < 2 ^ bits then some value else none

def trimBeginning (beginning text : Bytes) : Bytes :=
  if beginning.isPrefixOf text then text.drop beginning.length else text

/-! ## Users -/

def newline : UInt8 := 0x0A
def hashSign : UInt8 := 0x23
def dollar : UInt8 := 0x24
def colon : UInt8 := 0x3A

/-- One user, as the service keeps it. -/
structure User where
  name : Bytes
  uid : UInt32
  mask : UInt64
  salt : Bytes
  hash : Bytes
  deriving DecidableEq, Repr

/-- The four fields of a line that can be read. -/
structure UserLine where
  name : Bytes
  uid : UInt32
  saltedHash : Bytes
  mask : UInt64
  deriving DecidableEq, Repr

def splitSalted (saltedHash : Bytes) : Bytes × Bytes :=
  (cut dollar saltedHash).getD ([], saltedHash)

def UserLine.user (line : UserLine) : User where
  name := line.name
  uid := line.uid
  mask := line.mask
  salt := (splitSalted line.saltedHash).1
  hash := (splitSalted line.saltedHash).2

/-- Read one line; comments and lines that are no entries yield nothing. -/
def parseLine (line : Bytes) : Option UserLine :=
  let line := trimSpace line
  if line = [] ∨ line.head? = some hashSign then none
  else do
    let (name, rest) ← cut colon line
    let (number, rest) ← cut colon rest
    let (saltedHash, rights) ← cut colon rest
    let uid ← parseUint 10 32 number
    let mask ← parseUint 16 64 (trimBeginning (ascii "0x") (trimSpace rights))
    return ⟨name, UInt32.ofNat uid, saltedHash, UInt64.ofNat mask⟩

def userLines (text : Bytes) : List UserLine := (text.splitOn newline).filterMap parseLine

def parseEtcUsers (text : Bytes) : List User := (userLines text).map UserLine.user

def lookup (users : List User) (name : Bytes) : Option User :=
  users.find? fun user => user.name = name

theorem cut_eq_some_iff {separator : UInt8} {text before after : Bytes} :
    cut separator text = some (before, after) ↔
      separator ∉ before ∧ text = before ++ separator :: after := by
  induction text generalizing before with
  | nil => simp [cut]
  | cons byte rest hypothesis =>
    by_cases same : byte = separator
    · subst same
      cases before with
      | nil => simp [cut]
      | cons first tail =>
        simp only [cut, if_true, some.injEq, Prod.mk.injEq, List.nil_eq, reduceCtorEq,
          false_and, List.mem_cons, not_or, List.cons_append, List.cons.injEq, false_iff, not_and]
        rintro ⟨different, _⟩ equal
        exact absurd equal different
    · rw [cut, if_neg same]
      cases before with
      | nil => simp [same]
      | cons first tail =>
        simp only [map_eq_some_iff, Prod.exists, Prod.mk.injEq, List.cons.injEq,
          List.mem_cons, not_or, List.cons_append]
        constructor
        · rintro ⟨_, _, found, ⟨rfl, rfl⟩, rfl⟩
          obtain ⟨absent, rfl⟩ := hypothesis.mp found
          exact ⟨⟨Ne.symm same, absent⟩, rfl, rfl⟩
        · rintro ⟨⟨_, absent⟩, rfl, rfl⟩
          exact ⟨tail, after, hypothesis.mpr ⟨absent, rfl⟩, ⟨rfl, rfl⟩, rfl⟩

open GuestFrame Sha256 List

/-! ## AUTH -/

def opAuth : UInt16 := 1

def canonicalHeaderLen : Nat := 24

def lbyte : Bytes → Bytes × Nat
  | [] => ([], 0)
  | count :: rest =>
    if rest.length < count.toNat then ([], 0)
    else (rest.take count.toNat, 1 + count.toNat)

def authName (req : Bytes) : Bytes := (lbyte (req.drop canonicalHeaderLen)).1

def authPass (req : Bytes) : Bytes :=
  let payload := req.drop canonicalHeaderLen
  (lbyte (payload.drop (lbyte payload).2)).1

def replyName (req : Bytes) : Bytes := Kern.cstr ((req.drop 8).take 16)

def verifyPassword (user : User) (password : Bytes) : Bool :=
  if user.salt = [] then true
  else encodeToString (sum256 (user.salt ++ password)) = user.hash

/-- What the service decides about a request. -/
inductive Verdict where
  /-- No reply at all. -/
  | ignored
  | refused
  | granted (user : User)
  deriving DecidableEq, Repr

/-- Decide about a request; the reply port may not be there to bind. -/
def kernAuth (users : List User) (bound : Bool) (req : Bytes) : Verdict :=
  if req.length < canonicalHeaderLen ∨ get16 req 0 ≠ opAuth ∨
      replyName req = [] ∨ bound = false then
    .ignored
  else
    match lookup users (authName req) with
    | none => .refused
    | some user =>
      if user.mask = 0 then .refused
      else if verifyPassword user (authPass req) = false then .refused
      else .granted user

/-- The hash field is a salt, a dollar sign and the hash of salt and password
in hexadecimal. -/
def UserLine.Matches (line : UserLine) (password : Bytes) : Prop :=
  ∃ salt hex, dollar ∉ salt ∧ line.saltedHash = salt ++ dollar :: hex ∧
    encodeToString (sum256 (salt ++ password)) = hex

/-- Something stands before the first dollar sign of the hash field. -/
def UserLine.Salted (line : UserLine) : Prop :=
  ∃ salt hash, salt ≠ [] ∧ cut dollar line.saltedHash = some (salt, hash)

theorem kernAuth_granted {users : List User} {bound : Bool} {req : Bytes} {user : User}
    (granted : kernAuth users bound req = .granted user) : lookup users (authName req) = some user ∧
      user.mask ≠ 0 ∧ verifyPassword user (authPass req) = true := by
  unfold kernAuth at granted
  split at granted
  · cases granted
  split at granted
  · cases granted
  next found known =>
  split at granted
  · cases granted
  next masked =>
  split at granted
  · cases granted
  next verified =>
  cases granted
  exact ⟨known, masked, by simpa using verified⟩

theorem length_authName (req : Bytes) : (authName req).length ≤ 255 := by
  unfold authName lbyte
  split
  · simp
  next count rest _ =>
    split
    · simp
    have bound := count.toNat_lt
    simp only [length_take]
    omega

variable {line : UserLine} {password : Bytes}

theorem matches_of_verified (salted : line.Salted)
    (verified : verifyPassword line.user password = true) : line.Matches password := by
  obtain ⟨salt, hash, filled, split⟩ := salted
  obtain ⟨absent, field⟩ := cut_eq_some_iff.mp split
  refine ⟨salt, hash, absent, field, ?_⟩
  have parts : splitSalted line.saltedHash = (salt, hash) := by
    rw [splitSalted, split]
    rfl
  simpa [verifyPassword, UserLine.user, parts, filled] using verified

theorem verified_of_not_salted (bare : ¬ line.Salted) (password : Bytes) :
    verifyPassword line.user password = true := by
  have saltless : line.user.salt = [] := by
    by_contra filled
    apply bare
    cases split : cut dollar line.saltedHash with
    | none => simp [UserLine.user, splitSalted, split] at filled
    | some parts =>
      refine ⟨parts.1, parts.2, ?_, split⟩
      simpa [UserLine.user, splitSalted, split] using filled
  rw [verifyPassword, if_pos saltless]

theorem hash_of_matches (bare : ¬ line.Salted) (fits : line.Matches password) :
    line.saltedHash = dollar :: encodeToString (sum256 password) := by
  obtain ⟨salt, hex, absent, field, hashed⟩ := fits
  have saltless : salt = [] := by
    by_contra filled
    exact bare ⟨salt, hex, filled, cut_eq_some_iff.mpr ⟨absent, field⟩⟩
  subst saltless
  rw [field, ← hashed]
  rfl

theorem sum256_varies : encodeToString (sum256 []) ≠ encodeToString (sum256 (ascii "a")) := by
  decide +kernel

def authRequest (name password : Bytes) : Bytes :=
  put16 opAuth ++ put16 0 ++ put32 0 ++ (ascii "r" ++ replicate 15 0) ++
    ([ofNat name.length] ++ name) ++
    ([ofNat password.length] ++ password)

theorem lbyte_append {text : Bytes} (short : text.length ≤ 255) (rest : Bytes) :
    lbyte ([ofNat text.length] ++ text ++ rest) = (text, 1 + text.length) := by
  have count : (ofNat text.length).toNat = text.length := by
    rw [toNat_ofNat']
    omega
  simp [lbyte, count]

theorem authRequest_eq (name password : Bytes) : ∃ header : Bytes, header.length = 24 ∧
    replyName header = ascii "r" ∧
    authRequest name password = header ++ ([ofNat name.length] ++ name ++
      ([ofNat password.length] ++ password)) :=
  ⟨put16 opAuth ++ put16 0 ++ put32 0 ++ (ascii "r" ++ replicate 15 0),
    by decide, by decide, by simp [authRequest]⟩

theorem authRequest_granted {users : List User} {user : User} {name : Bytes}
    (found : lookup users name = some user) (masked : user.mask ≠ 0)
    (shortName : name.length ≤ 255) (shortPassword : password.length ≤ 255)
    (verified : verifyPassword user password = true) :
    authName (authRequest name password) = name ∧ authPass (authRequest name password) = password ∧
      kernAuth users true (authRequest name password) = .granted user := by
  obtain ⟨header, size, reply, shape⟩ := authRequest_eq name password
  have payload : (authRequest name password).drop canonicalHeaderLen =
      [ofNat name.length] ++ name ++ ([ofNat password.length] ++ password) := by
    rw [shape]
    exact drop_left' size
  have named : authName (authRequest name password) = name := by
    rw [authName, payload, lbyte_append shortName]
  have supplied : authPass (authRequest name password) = password := by
    have behind : ([ofNat name.length] ++ name ++
        ([ofNat password.length] ++ password)).drop (1 + name.length) =
        [ofNat password.length] ++ password :=
      drop_left' (by simp [Nat.add_comm])
    have last := lbyte_append shortPassword []
    rw [append_nil] at last
    simp only [authPass, payload, lbyte_append shortName, behind, last]
  refine ⟨named, supplied, ?_⟩
  have opcode : get16 (authRequest name password) 0 = opAuth := by
    simp only [authRequest, append_assoc]
    exact get16_put16 [] opAuth _ 0 rfl
  have replies : replyName (authRequest name password) ≠ [] := by
    have same : replyName (authRequest name password) = replyName header := by
      rw [shape, replyName, replyName, drop_append_of_le_length
        (by omega), take_append_of_le_length (by simp; omega)]
    rw [same, reply]
    decide
  have long : ¬ (authRequest name password).length < canonicalHeaderLen := by
    rw [shape, length_append, size]
    simp [canonicalHeaderLen]
  simp [kernAuth, long, opcode, replies, named, supplied, found, masked, verified]

/--
For the first line of a name: every granted request for that name supplied a
password that matches the hash field, if and only if the field has a salt, or
the line has no rights at all, or the name is too long for any request.
-/
theorem password_checked_iff_salted {text : Bytes} (first :
      ((userLines text).find? fun other => other.name = line.name) = some line) :
    (∀ bound req user, authName req = line.name →
        kernAuth (parseEtcUsers text) bound req = .granted user →
        line.Matches (authPass req)) ↔
      line.Salted ∨ line.mask = 0 ∨ 255 < line.name.length := by
  have found : lookup (parseEtcUsers text) line.name = some line.user := by
    rw [lookup, parseEtcUsers, List.find?_map]
    exact congrArg (Option.map UserLine.user) first
  constructor
  · intro checked
    by_contra unprotected
    simp only [not_or, Nat.not_lt] at unprotected
    obtain ⟨bare, masked, short⟩ := unprotected
    have everyPassword (password : Bytes) (shortPassword : password.length ≤ 255) :
        line.Matches password := by
      obtain ⟨named, supplied, granted⟩ :=
        authRequest_granted found masked short shortPassword (verified_of_not_salted bare password)
      rw [← supplied]
      exact checked true _ _ named granted
    have empty := hash_of_matches bare (everyPassword [] (by decide))
    have letter := hash_of_matches bare (everyPassword (ascii "a") (by decide))
    exact sum256_varies (cons_injective (empty.symm.trans letter))
  · rintro (salted | unmasked | long) bound req user named granted
    · obtain ⟨known, _, verified⟩ := kernAuth_granted granted
      rw [named, found, some.injEq] at known
      subst known
      exact matches_of_verified salted verified
    · obtain ⟨known, masked, _⟩ := kernAuth_granted granted
      rw [named, found, some.injEq] at known
      subst known
      exact absurd unmasked masked
    · have short := length_authName req
      rw [named] at short
      omega

/-! ## A hash without a salt -/

/-- One user whose hash field is a bare hash, as a tool without salts would
write it. -/
def bareUsers : Bytes :=
  ascii "u1:1001:" ++ encodeToString (sum256 (ascii "secret")) ++ ascii ":0x18\n"

/-- A wrong password is taken for a user whose hash field has no salt. -/
theorem wrong_password_granted : ∃ line user,
    ((userLines bareUsers).find? fun other => other.name = ascii "u1") = some line ∧
      line.saltedHash ≠ [] ∧
      authPass (authRequest (ascii "u1") (ascii "x")) = ascii "x" ∧
      kernAuth (parseEtcUsers bareUsers) true
        (authRequest (ascii "u1") (ascii "x")) = .granted user ∧
      ¬ line.Matches (ascii "x") := by
  refine ⟨⟨ascii "u1", 1001, encodeToString (sum256 (ascii "secret")), 0x18⟩,
    ⟨ascii "u1", 1001, 0x18, [], encodeToString (sum256 (ascii "secret"))⟩,
    by decide +kernel, by decide +kernel, by decide +kernel,
    by decide +kernel, ?_⟩
  rintro ⟨salt, hex, _, field, _⟩
  have member : dollar ∈ encodeToString (sum256 (ascii "secret")) := by
    rw [show encodeToString (sum256 (ascii "secret")) = salt ++ dollar :: hex from field]
    simp
  revert member
  decide +kernel

def saltedUsers : Bytes :=
  ascii "u1:1001:pq$" ++ encodeToString (sum256 (ascii "pqsecret")) ++ ascii ":0x18\n"

def saltedLine : UserLine :=
  ⟨ascii "u1", 1001, ascii "pq$" ++ encodeToString (sum256 (ascii "pqsecret")), 0x18⟩

/-- With a salt in the field only a matching password is granted. -/
theorem password_checked_with_salt : ((userLines saltedUsers).find? fun other =>
      other.name = saltedLine.name) = some saltedLine ∧
    ∀ bound req user, authName req = saltedLine.name →
      kernAuth (parseEtcUsers saltedUsers) bound req = .granted user →
      saltedLine.Matches (authPass req) := by
  have first : ((userLines saltedUsers).find? fun other =>
      other.name = saltedLine.name) = some saltedLine := by
    decide +kernel
  refine ⟨first, (password_checked_iff_salted first).mpr (.inl ?_)⟩
  exact ⟨ascii "pq", encodeToString (sum256 (ascii "pqsecret")), by decide, by decide +kernel⟩

end KernelLane.Login
