import KernelLane.FsPaths
import KernelLane.GuestFrame

namespace KernelLane.Fs

open GuestFrame

/-!
# The multiuser policy of the file server

The server keeps a table of users, fed by REGISTER requests, and maps the
path of each request to the path it hands to its store.  A registered user is
rooted at a home of its name; everybody may use `/tmp`, read `/etc` and read
`/boot`; other homes stay invisible.

The policy compares names with functions of Go's `strings` package.  What is
used of them is collected in `GoStrings`: over ASCII they fold the letters,
and folding is an equivalence over all strings.
-/

/-! ## Folding case -/

def asciiLower (byte : UInt8) : UInt8 :=
  if 65 ≤ byte ∧ byte ≤ 90 then byte + 32 else byte

/-- All bytes are below 128. -/
def Ascii (text : Bytes) : Prop := ∀ byte ∈ text, byte < 128

/-- `strings.EqualFold` and `strings.ToLower`. -/
structure GoStrings where
  equalFold : Bytes → Bytes → Bool
  toLower : Bytes → Bytes
  equalFold_symm : ∀ {left right}, equalFold left right → equalFold right left
  equalFold_trans : ∀ {first second third}, equalFold first second → equalFold second third →
    equalFold first third
  equalFold_ascii : ∀ {left right}, Ascii left → Ascii right → (equalFold left right ↔
    left.map asciiLower = right.map asciiLower)
  toLower_ascii : ∀ {text}, Ascii text → toLower text = text.map asciiLower

/-- The two functions as they act on ASCII text. -/
def asciiStrings : GoStrings where
  equalFold := fun left right => left.map asciiLower == right.map asciiLower
  toLower := fun text => text.map asciiLower
  equalFold_symm := fun same => by
    rw [beq_iff_eq] at same ⊢
    exact same.symm
  equalFold_trans := fun first second => by
    rw [beq_iff_eq] at first second ⊢
    exact first.trans second
  equalFold_ascii := fun _ _ => beq_iff_eq
  toLower_ascii := fun _ => rfl

/-! ## Users -/

def capFSAdmin : UInt64 := (1 : UInt64) <<< 4

/-- What the server knows about a user. -/
structure FsSession where
  name : Bytes
  mask : UInt64
  deriving DecidableEq, Repr

/-- The users by their uid. -/
abbrev Sessions := UInt32 → Option FsSession

def fsOK : Int := 0
def fsIO : Int := -1
def fsNoEntry : Int := -2
def fsExists : Int := -3
def fsNotDir : Int := -4
def fsIsDir : Int := -5
def fsNoSpace : Int := -6
def fsBadName : Int := -7
def fsNotEmpty : Int := -8
def fsRange : Int := -9
def fsAccess : Int := -10

def registration (payload : Bytes) : Option (UInt32 × Bytes × UInt64) :=
  if payload.length < 14 then none
  else
    match lStr payload 4 with
    | none => none
    | some (name, off) =>
      if payload.length < off + 8 then none
      else if name = [] ∨ 32 < name.length then none
      else some (get32 payload 0, name, get64 payload off)

def registerSession (go : GoStrings) (sessions : Sessions) (payload : Bytes) : Int × Sessions :=
  match registration payload with
  | none => (fsBadName, sessions)
  | some (uid, name, mask) => (fsOK, Function.update sessions uid (some ⟨go.toLower name, mask⟩))

/-! ## Authorization -/

def homeName : Bytes := ascii "home"
def tmpName : Bytes := ascii "tmp"
def etcName : Bytes := ascii "etc"
def bootName : Bytes := ascii "boot"

def hasDotDot (raw : Bytes) : Bool := (raw.splitOn slash).any fun part => part = dotDotName

def untilSlash (path : Bytes) : Bytes := path.takeWhile fun byte => byte ≠ slash

def trimPrefix (start text : Bytes) : Bytes :=
  if start.isPrefixOf text then text.drop start.length else text

def absPath (raw : Bytes) : Bytes :=
  if [slash].isPrefixOf raw then raw else []

def homePath (rest : Bytes) : Bytes := slash :: (homeName ++ slash :: rest)

def isFSAdmin : Option FsSession → Bool
  | none => false
  | some user => user.mask &&& capFSAdmin ≠ 0

/--
Apply the policy to a path below `/home`.  The owner is the component behind
`/home`; without one the user is sent to its own home.
-/
def gateHome (go : GoStrings) (session : Option FsSession) (rest : Bytes)
    (write : Bool) : Except Int Bytes :=
  if untilSlash rest = [] then
    if write ∧ isFSAdmin session = false then .error fsAccess
    else
      match session with
      | some user => .ok (homePath user.name)
      | none => .error fsNoEntry
  else
    match session with
    | some user =>
      if go.equalFold (untilSlash rest) user.name then .ok (homePath rest)
      else .error fsNoEntry
    | none => .error fsNoEntry

/-- Apply the policy to an absolute path of an unprivileged user. -/
def gateAbsolute (go : GoStrings) (session : Option FsSession) (clean : Bytes)
    (write : Bool) : Except Int Bytes :=
  let top := untilSlash clean
  if top = tmpName then .ok (slash :: clean)
  else if top = etcName then
    if write ∧ isFSAdmin session = false then .error fsAccess
    else .ok (slash :: clean)
  else if top = bootName then
    if write then .error fsAccess else .ok (slash :: clean)
  else if top = homeName then
    let rest :=
      if clean = homeName then [] else trimPrefix (homeName ++ [slash]) clean
    gateHome go session rest write
  else .error fsNoEntry

/-- Map the path of a request to the path handed to the store. -/
def authorize (go : GoStrings) (sessions : Sessions) (uid : UInt32) (raw : Bytes)
    (write : Bool) : Except Int Bytes :=
  if uid ≠ 0 ∧ hasDotDot raw then .error fsAccess
  else if uid = 0 then
    if absPath raw = [] then .error fsBadName else .ok (absPath raw)
  else
    let clean := trimPrefix [slash] raw
    let isRel := !([slash].isPrefixOf raw)
    match sessions uid with
    | some user =>
      if isRel then .ok (homePath (user.name ++ slash :: clean))
      else gateAbsolute go (some user) clean write
    | none =>
      if isRel then .error fsAccess
      else gateAbsolute go none clean write

end KernelLane.Fs
