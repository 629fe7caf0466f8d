import KernelLane.KernConf
import KernelLane.LoginAuth

namespace KernelLane.Login

open List

/-!
# The users file and its validator

The shell's validator and the login service read `/etc/users` separately.  The
validator takes a mask written after `0x`, after `0X`, or after both; login
knows `0x` alone and skips the line without a word when `0X` is left.
-/

/-- What can be wrong with a line. -/
inductive UserError where
  | lineTooLong
  | nulByte
  | wantFields
  | badUserName
  | badUID (number : Bytes)
  | badHash
  | badCapmask (rights : Bytes)
  deriving DecidableEq, Repr

def UserError.msg (quote : Bytes → Bytes) : UserError → Bytes
  | .lineTooLong => ascii "line too long"
  | .nulByte => ascii "NUL byte"
  | .wantFields => ascii "want name:uid:hash:capmask"
  | .badUserName => ascii "bad user name"
  | .badUID number => ascii "bad uid " ++ quote number
  | .badHash => ascii "bad hash (want salt$hex)"
  | .badCapmask rights => ascii "bad capmask " ++ quote rights

/-- Who a line is about and what it grants. -/
structure Account where
  name : Bytes
  uid : UInt32
  mask : UInt64
  deriving DecidableEq, Repr

def User.account (user : User) : Account := ⟨user.name, user.uid, user.mask⟩

def isBlank (line : Bytes) : Bool := line = [] || line.head? = some hashSign

/-- The line cut at its first three colons. -/
def fields (line : Bytes) : Option (Bytes × Bytes × Bytes × Bytes) := do
  let (name, rest) ← cut colon line
  let (number, rest) ← cut colon rest
  let (saltedHash, rights) ← cut colon rest
  return (name, number, saltedHash, rights)

def saltMissing (saltedHash : Bytes) : Bool :=
  saltedHash ≠ [] &&
    match cut dollar saltedHash with
    | none => true
    | some (salt, hash) => salt = [] || hash = []

def checkLine (raw : Bytes) : Except UserError (Option Account) :=
  if Conf.maxLineLen < raw.length then .error .lineTooLong
  else if raw.contains 0 then .error .nulByte
  else if isBlank (trimSpace raw) then .ok none
  else
    match fields (trimSpace raw) with
    | none => .error .wantFields
    | some (name, number, saltedHash, rights) =>
      if name = [] ∨ 0x20 ∈ name ∨ 0x09 ∈ name then .error .badUserName
      else
        match parseUint 10 32 number with
        | none => .error (.badUID number)
        | some uid =>
          if saltMissing saltedHash then .error .badHash
          else
            -- an empty body is no number either
            match parseUint 16 64
              (trimBeginning (ascii "0X") (trimBeginning (ascii "0x") rights)) with
            | none => .error (.badCapmask rights)
            | some mask => .ok (some ⟨name, UInt32.ofNat uid, UInt64.ofNat mask⟩)

/-- One reported error. -/
structure UserReport where
  file : Bytes
  line : Nat
  error : UserError

def validateUsersFile (file text : Bytes) : List UserReport :=
  ((text.splitOn newline).zipIdx 1).filterMap fun (raw, line) =>
    match checkLine raw with
    | .error error => some ⟨file, line, error⟩
    | .ok _ => none

def validateUsers (text : Bytes) : List UserReport := validateUsersFile (ascii "/etc/users") text

/-- The lines that are neither blank nor a comment. -/
def entryLines (text : Bytes) : List Bytes :=
  (text.splitOn newline).filter fun raw => !isBlank (trimSpace raw)

/-- The mask of the line is written after `0X`. -/
def capitalMask (raw : Bytes) : Bool :=
  (fields (trimSpace raw)).any fun (_, _, _, rights) =>
    (ascii "0X").isPrefixOf (trimBeginning (ascii "0x") rights)

/-! ## Reading numbers -/

variable {text raw : Bytes} {base bits value : Nat}

theorem digits_of_mapM {read : UInt8 → Option Nat} {digits : List Nat}
    (parsed : text.mapM read = some digits) : ∀ byte ∈ text, ∃ digit, read byte = some digit := by
  induction text generalizing digits with
  | nil => nofun
  | cons first rest hypothesis =>
    simp only [mapM_cons, Option.bind_eq_bind, Option.bind_eq_some_iff] at parsed
    obtain ⟨digit, one, others, later, _⟩ := parsed
    exact forall_mem_cons.mpr ⟨⟨digit, one⟩, hypothesis later⟩

theorem digits_of_parseUint (parsed : parseUint base bits text = some value) :
    ∀ byte ∈ text, ∃ digit < base, digitOf byte = some digit := by
  intro byte member
  unfold parseUint at parsed
  split at parsed
  · cases parsed
  · obtain ⟨digits, read, _⟩ := Option.bind_eq_some_iff.mp parsed
    obtain ⟨digit, one⟩ := digits_of_mapM read byte member
    rw [Option.filter_eq_some_iff] at one
    exact ⟨digit, of_decide_eq_true one.2, one.1⟩

theorem dropRunes_of_digits {runes : List Bytes} (plain : ∀ byte ∈ text, digitOf byte ≠ none)
    (strange : ∀ rune ∈ runes, ∃ byte ∈ rune.head?, digitOf byte = none) (count : Nat) :
    dropRunes runes count text = text := by
  cases count with
  | zero => rfl
  | succ count =>
    have absent : runes.find? (fun rune => rune.isPrefixOf text) = none := by
      rw [find?_eq_none]
      intro rune member isStart
      obtain ⟨byte, first, odd⟩ := strange rune member
      have inside := ( isPrefixOf_iff_prefix.mp isStart).subset (mem_of_mem_head? first)
      exact plain byte inside odd
    rw [dropRunes, absent]

theorem trimSpace_of_digits (plain : ∀ byte ∈ text, digitOf byte ≠ none) :
    trimSpace text = text := by
  have reversed : ∀ byte ∈ text.reverse, digitOf byte ≠ none := by simpa using plain
  unfold trimSpace
  rw [dropRunes_of_digits plain (by decide +kernel)]
  dsimp only
  rw [dropRunes_of_digits reversed (by decide +kernel), reverse_reverse]

theorem mem_trimBeginning (beginning : Bytes) {byte : UInt8} (member : byte ∈ text) :
    byte ∈ beginning ∨ byte ∈ trimBeginning beginning text := by
  unfold trimBeginning
  split
  next starts =>
    obtain ⟨rest, rfl⟩ := isPrefixOf_iff_prefix.mp starts
    rwa [drop_left, ← mem_append]
  next => exact .inr member

/-- Login reads a mask field of the validator's unless `0X` is left in it. -/
theorem parseUint_rights {rights : Bytes} {mask : Nat}
    (parsed : parseUint 16 64 (trimBeginning (ascii "0X") (trimBeginning (ascii "0x") rights)) =
      some mask) : parseUint 16 64 (trimBeginning (ascii "0x") (trimSpace rights)) =
      if (ascii "0X").isPrefixOf (trimBeginning (ascii "0x") rights) then none else some mask := by
  have plain : ∀ byte ∈ rights, digitOf byte ≠ none := by
    intro byte member
    rcases mem_trimBeginning (ascii "0x") member with small | member
    · exact (by decide +kernel : ∀ byte ∈ ascii "0x", digitOf byte ≠ none) byte small
    rcases mem_trimBeginning (ascii "0X") member with capital | member
    · exact (by decide +kernel : ∀ byte ∈ ascii "0X", digitOf byte ≠ none) byte capital
    obtain ⟨digit, _, read⟩ := digits_of_parseUint parsed byte member
    simp [read]
  rw [trimSpace_of_digits plain]
  split
  next capital =>
    rw [Option.eq_none_iff_forall_ne_some]
    intro value taken
    have letter : 0x58 ∈ trimBeginning (ascii "0x") rights :=
      ( isPrefixOf_iff_prefix.mp capital).subset (by decide)
    obtain ⟨digit, small, read⟩ := digits_of_parseUint taken _ letter
    have large : digitOf 0x58 = some 33 := by decide
    cases large.symm.trans read
    omega
  next other =>
    rwa [trimBeginning, if_neg other] at parsed

/-! ## The two readers -/

theorem parseLine_eq (raw : Bytes) : parseLine raw =
    if isBlank (trimSpace raw) then none
    else (fields (trimSpace raw)).bind fun (name, number, saltedHash, rights) =>
      (parseUint 10 32 number).bind fun uid =>
        (parseUint 16 64 (trimBeginning (ascii "0x") (trimSpace rights))).bind fun mask =>
          some ⟨name, UInt32.ofNat uid, saltedHash, UInt64.ofNat mask⟩ := by
  simp [parseLine, isBlank, fields, Option.bind_assoc]

theorem parseLine_of_checkLine {found : Option Account} (checked : checkLine raw = .ok found) :
    (parseLine raw).map (fun line => .ok (some line.user.account)) =
      if isBlank (trimSpace raw) ∨ capitalMask raw then none else some (checkLine raw) := by
  have answer := checked
  rw [parseLine_eq]
  unfold checkLine at checked
  split at checked
  · cases checked
  split at checked
  · cases checked
  split at checked
  next blank => simp [blank]
  next entry =>
  split at checked
  · cases checked
  next name number saltedHash rights cutUp =>
  split at checked
  · cases checked
  split at checked
  · cases checked
  next uid number =>
  split at checked
  · cases checked
  split at checked
  · cases checked
  next mask parsed =>
  cases checked
  by_cases capital : ascii "0X" <+: trimBeginning (ascii "0x") rights
  · simp [entry, cutUp, number, parseUint_rights parsed, capitalMask, capital]
  · simp [entry, cutUp, number, parseUint_rights parsed, capitalMask, capital, answer,
      UserLine.user, User.account]

theorem checkLine_of_clean (clean : validateUsers text = []) (member : raw ∈ text.splitOn newline) :
    ∃ found, checkLine raw = .ok found := by
  rw [← zipIdx_map_fst 1 (text.splitOn newline), mem_map] at member
  obtain ⟨⟨_, line⟩, numbered, rfl⟩ := member
  have silent := filterMap_eq_nil_iff.mp clean _ numbered
  dsimp only at silent ⊢
  split at silent
  · cases silent
  next found read => exact ⟨found, read⟩

theorem clean_users_kept_iff (clean : validateUsers text = []) :
    (parseEtcUsers text).map (fun user => .ok (some user.account)) =
        (entryLines text).map checkLine ↔
      ∀ raw ∈ entryLines text, capitalMask raw = false := by
  have records : (parseEtcUsers text).map (fun user => .ok (some user.account)) =
      (entryLines text).filterMap fun raw =>
        (parseLine raw).map fun line =>
          (.ok (some line.user.account) : Except UserError (Option Account)) := by
    rw [parseEtcUsers, userLines, map_map, map_filterMap, entryLines, filterMap_filter]
    congr 1
    funext raw
    rw [parseLine_eq]
    cases isBlank (trimSpace raw) <;> rfl
  rw [records, filterMap_eq_map_iff_forall_eq_some]
  refine forall₂_congr fun raw member => ?_
  obtain ⟨inside, entry⟩ := mem_filter.mp member
  obtain ⟨found, checked⟩ := checkLine_of_clean clean inside
  rw [Bool.not_eq_true'] at entry
  simp [parseLine_of_checkLine checked, entry]

theorem plain_users_kept : (parseEtcUsers (ascii "# staff\nadmin:0:s$ab:0x1fff\n\nguest:7::18")).map
        (fun user => .ok (some user.account)) =
      (entryLines (ascii "# staff\nadmin:0:s$ab:0x1fff\n\nguest:7::18")).map checkLine :=
  (clean_users_kept_iff (by decide +kernel)).mpr (by decide +kernel)

theorem capital_mask_loses_user : validateUsers (ascii "admin:0::0X1fff") = [] ∧
    (entryLines (ascii "admin:0::0X1fff")).map checkLine = [.ok (some ⟨ascii "admin", 0, 0x1fff⟩)] ∧
    parseEtcUsers (ascii "admin:0::0X1fff") = [] := by
  decide +kernel

end KernelLane.Login
