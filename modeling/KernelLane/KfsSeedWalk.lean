import KernelLane.KfsSeed

namespace KernelLane.Kfs

open Function List UInt32 Seeder Lays Listing Nat

/-!
# The records that seeding appends

Below directories that are known, the walk appends the records of the entries
numbered through.  The directories above the tree are made first, as a chain.
A component that is empty or spelled twice confuses the map of known
directories; then only the first records are described.
-/

/-! ## Directories on the way -/

def accOf (names : List Bytes) : Bytes :=
  if names = [] then [] else joinPath names

theorem pathJoin_accOf {names : List Bytes} (plain : ∀ name ∈ names, PlainName name)
    (part : Bytes) : pathJoin (accOf names) part = joinPath (names ++ [part]) := by
  unfold accOf
  split
  next empty =>
    rw [empty, nil_append, joinPath, relPath_singleton]
    rfl
  next nonempty => exact pathJoin_joinPath plain nonempty part

theorem accOf_snoc (names : List Bytes) (part : Bytes) :
    accOf (names ++ [part]) = joinPath (names ++ [part]) := by
  simp [accOf]

variable {rest : List Bytes}

theorem Lays.resolve_missing {mkdirs : Bytes → Option UInt32} {cur counter : UInt32}
    {acc part : Bytes} {puts : List Put} {result : Formatter → UInt32 × Seeder}
    (missing : mkdirs (pathJoin acc part) = none) (later : Lays (fun f =>
        resolveParts ⟨f, update mkdirs (pathJoin acc part) (some counter)⟩
          counter (pathJoin acc part) rest)
      (counter + 1) puts result) :
    Lays (fun f => resolveParts ⟨f, mkdirs⟩ cur acc (part :: rest)) counter
      (.inode ⟨counter, 0, kindDir, 0⟩ :: .dirent cur part counter :: puts)
      result := by
  have made : Lays (fun f => f.appendInode 0 kindDir 0 >>= fun inode =>
        inode.2.appendDirent cur part inode.1 >>= fun f =>
        resolveParts ⟨f, update mkdirs (pathJoin acc part) (some inode.1)⟩
          inode.1 (pathJoin acc part) rest)
      counter (.inode ⟨counter, 0, kindDir, 0⟩ :: .dirent cur part counter :: puts) result := by
    refine (appendInode counter 0 kindDir 0).bind ?_
    dsimp only
    exact (appendDirent (counter + 1) cur part counter).andThen rfl later
  intro f start
  dsimp only
  rw [resolveParts]
  simp only [missing]
  exact made f start

/-- The components lead through known directories to this number. -/
def Leads (mkdirs : Bytes → Option UInt32) : List Bytes → UInt32 → List Bytes → UInt32 → Prop
  | _, cur, [], final => cur = final
  | before, _, part :: rest, final =>
    ∃ ino, mkdirs (joinPath (before ++ [part])) = some ino ∧
      Leads mkdirs (before ++ [part]) ino rest final

theorem length_joinPath_le (first second : List Bytes) :
    (joinPath first).length ≤ (joinPath (first ++ second)).length := by
  by_cases noFirst : first = []
  · subst noFirst
    simp [joinPath]
  by_cases noSecond : second = []
  · subst noSecond
    rw [append_nil]
  · rw [joinPath, joinPath, relPath_append noFirst noSecond]
    simp

theorem length_joinPath_snoc (names : List Bytes) {name : Bytes} (nonempty : name ≠ []) :
    (joinPath names).length < (joinPath (names ++ [name])).length := by
  by_cases empty : names = []
  · subst empty
    rw [nil_append, joinPath, joinPath, relPath_singleton]
    have filled := length_pos_of_ne_nil nonempty
    simpa using filled
  · rw [joinPath_snoc empty]
    simp

namespace Leads

variable {mkdirs other : Bytes → Option UInt32} {before parts : List Bytes} {cur final : UInt32}
  (leads : Leads mkdirs before cur parts final)
include leads

theorem resolveParts (f : Formatter)
    (plainBefore : ∀ name ∈ before, PlainName name) (plainParts : ∀ name ∈ parts, PlainName name) :
    resolveParts ⟨f, mkdirs⟩ cur (accOf before) parts = .ok (final, ⟨f, mkdirs⟩) := by
  induction parts generalizing before cur with
  | nil =>
    rw [Leads] at leads
    rw [leads]
    rfl
  | cons part rest hypothesis =>
    obtain ⟨ino, known, later⟩ := leads
    rw [forall_mem_cons] at plainParts
    have plainHere : ∀ name ∈ before ++ [part], PlainName name :=
      forall_mem_append.mpr ⟨plainBefore, forall_mem_singleton.mpr plainParts.1⟩
    rw [resolveParts]
    simp only [pathJoin_accOf plainBefore, known]
    rw [← accOf_snoc]
    exact hypothesis later plainHere plainParts.2

theorem snoc {name : Bytes} {ino : UInt32}
    (known : mkdirs (joinPath (before ++ parts ++ [name])) = some ino) :
    Leads mkdirs before cur (parts ++ [name]) ino := by
  induction parts generalizing before cur with
  | nil =>
    rw [append_nil] at known
    exact ⟨ino, known, rfl⟩
  | cons part rest hypothesis =>
    obtain ⟨next, here, later⟩ := leads
    refine ⟨next, here, hypothesis later ?_⟩
    rwa [append_assoc before, singleton_append]

theorem congr (same : ∀ key, key.length ≤ (joinPath (before ++ parts)).length →
      other key = mkdirs key) : Leads other before cur parts final := by
  induction parts generalizing before cur with
  | nil => exact leads
  | cons part rest hypothesis =>
    obtain ⟨ino, known, later⟩ := leads
    have shape : before ++ part :: rest = before ++ [part] ++ rest := by simp
    rw [shape] at same
    refine ⟨ino, ?_, hypothesis later same⟩
    rw [same _ (length_joinPath_le _ _)]
    exact known

end Leads

theorem Seeder.parentOf_eq (s : Seeder) (path : Bytes) :
    s.parentOf path = s.resolveParts rootIno [] (pathParts path) := by
  unfold parentOf pathParts
  by_cases empty : trim path = []
  · rw [if_pos (by rw [empty]), if_pos empty]
    rfl
  · rw [if_neg (by simp [empty]), if_neg empty]

theorem childPath_relPath {names : List Bytes} (plain : ∀ name ∈ names, PlainName name)
    (name : Bytes) : childPath (relPath names) name = relPath (names ++ [name]) := by
  unfold childPath
  by_cases nonempty : names = []
  · subst nonempty
    simp
  · rw [if_neg (relPath_ne_nil plain nonempty),
      relPath_append nonempty (by simp), relPath_singleton]

theorem Lays.resolve (mkdirs : Bytes → Option UInt32) (cur counter : UInt32) (acc : Bytes)
    {parts : List Bytes} (short : ∀ part ∈ parts, part.length ≤ maxName) :
    ∃ puts final mkdirs', Lays (fun f => resolveParts ⟨f, mkdirs⟩ cur acc parts) counter
        puts (fun f => (final, ⟨f, mkdirs'⟩)) ∧
      ∀ put ∈ puts, put.Short := by
  induction parts generalizing mkdirs cur counter acc with
  | nil => exact ⟨[], cur, mkdirs, pure _ _, by simp⟩
  | cons part rest hypothesis =>
    rw [forall_mem_cons] at short
    cases found : mkdirs (pathJoin acc part) with
    | some ino =>
      obtain ⟨puts, final, after, lays, putsShort⟩ :=
        hypothesis mkdirs ino counter (pathJoin acc part) short.2
      refine ⟨puts, final, after, fun f start => ?_, putsShort⟩
      dsimp only
      rw [resolveParts]
      simp only [found]
      exact lays f start
    | none =>
      obtain ⟨puts, final, after, lays, putsShort⟩ :=
        hypothesis (update mkdirs (pathJoin acc part) (some counter))
          counter (counter + 1) (pathJoin acc part) short.2
      refine ⟨_, final, after, lays.resolve_missing found, ?_⟩
      exact forall_mem_cons.mpr ⟨trivial, forall_mem_cons.mpr ⟨short.1, putsShort⟩⟩

/-! ## The walk -/

theorem pathJoin_childPath (above : Bytes) {names : List Bytes}
    (plain : ∀ name ∈ names, PlainName name) (name : Bytes) :
    pathJoin above (childPath (relPath names) name) =
      joinPath (pathParts above ++ names ++ [name]) := by
  rw [childPath_relPath plain, pathJoin_relPath above (by simp), append_assoc]

section Walk

variable {mkdirs after : Bytes → Option UInt32} {above name : Bytes} {names : List Bytes}
  {counter parent ino : UInt32}
  {puts later : List Put}
  {result : Formatter → Seeder}

variable (plain : ∀ name ∈ names, PlainName name) (noSlash : slash ∉ name)
  (resolves : Lays (fun f => resolveParts ⟨f, mkdirs⟩ rootIno [] (pathParts above ++ names))
    counter puts (fun f => (parent, ⟨f, after⟩)))

include plain noSlash resolves

theorem Lays.parentOf_entry : Lays (fun f =>
        parentOf ⟨f, mkdirs⟩ (dirOf (pathJoin above (childPath (relPath names) name))))
      counter puts (fun f => (parent, ⟨f, after⟩)) := by
  rw [pathJoin_childPath above plain, dirOf_joinPath _ noSlash]
  simp only [parentOf_eq, pathParts_joinPath above plain]
  exact resolves

theorem Lays.walk_file {rest : Listing} (data : Bytes) (counted : counter + bumps puts = ino)
    (lays : Lays (fun f => walk above (relPath names) rest ⟨f, after⟩) (ino + 1) later result) :
    Lays (fun f => walk above (relPath names) (.file name data rest) ⟨f, mkdirs⟩) counter
      (puts ++ (.inode ⟨ino, 0, kindFile, ofNat data.length⟩ ::
        (chunkPuts ino data (data.length + 1) 0 ++ (.dirent parent name ino :: later))))
      result := by
  subst counted
  refine (parentOf_entry plain noSlash resolves).bind ?_
  dsimp only
  rw [pathJoin_childPath above plain, base_joinPath _ noSlash]
  refine (appendInode _ 0 kindFile _).bind ?_
  dsimp only
  refine (appendChunks _ _ _ _ (zero_mod _)).andThen (bumps_chunkPuts _ _ _ _) ?_
  exact (appendDirent _ _ _ _).andThen rfl lays

theorem Lays.walk_dir {contents rest : Listing} {below : List Put} {deeper : Bytes → Option UInt32}
    (counted : counter + bumps puts = ino) (inside : Lays (fun f =>
        walk above (relPath (names ++ [name])) contents ⟨f, update after
          (joinPath (pathParts above ++ names ++ [name])) (some ino)⟩)
      (ino + 1) below (fun f => ⟨f, deeper⟩))
    (lays : Lays (fun f => walk above (relPath names) rest ⟨f, deeper⟩)
      (ino + 1 + bumps below) later result) :
    Lays (fun f => walk above (relPath names) (.dir name contents rest) ⟨f, mkdirs⟩) counter
      (puts ++ (.inode ⟨ino, 0, kindDir, 0⟩ :: .dirent parent name ino :: (below ++ later)))
      result := by
  subst counted
  refine (parentOf_entry plain noSlash resolves).bind ?_
  dsimp only
  rw [pathJoin_childPath above plain, base_joinPath _ noSlash, childPath_relPath plain]
  refine (appendInode _ 0 kindDir _).bind ?_
  dsimp only
  refine (appendDirent _ _ _ _).andThen rfl ?_
  exact inside.bind lays

end Walk

/-- An entry that replay reads and whose size an inode can hold. -/
def SmallEntry (entry : Entry) : Prop := entry.name.length ≤ maxName ∧ entry.content.length < 2 ^ 32

instance (entry : Entry) : Decidable (SmallEntry entry) := inferInstanceAs (Decidable (_ ∧ _))

theorem short_chunkPuts {ino : UInt32} {data : Bytes} {fuel off : Nat}
    (small : data.length < 2 ^ 32) : ∀ put ∈ chunkPuts ino data fuel off, put.Short := by
  induction fuel generalizing off with
  | zero => simp [chunkPuts]
  | succ fuel hypothesis =>
    unfold chunkPuts
    split
    next more =>
      refine forall_mem_cons.mpr ⟨?_, hypothesis⟩
      have piece : ((data.drop off).take chunk).length = min chunk (data.length - off) := by simp
      have offset : (UInt64.ofNat off).toNat ≤ off := by
        rw [UInt64.toNat_ofNat']
        exact mod_le _ _
      constructor
      · rw [piece, chunk, maxWrite]
        omega
      · rw [piece]
        omega
    · simp

theorem Lays.walk (above : Bytes) {names : List Bytes} {listing : Listing} {parent number : Nat}
    (mkdirs : Bytes → Option UInt32) (counter : UInt32) (wellNamed : listing.WellNamed)
    (plain : ∀ name ∈ names, PlainName name)
    (short : ∀ part ∈ pathParts above ++ names, part.length ≤ maxName)
    (small : ∀ entry ∈ listing.entries parent number, SmallEntry entry) :
    ∃ puts after, Lays (fun f => walk above (relPath names) listing ⟨f, mkdirs⟩)
        counter puts (fun f => ⟨f, after⟩) ∧
      ∀ put ∈ puts, put.Short := by
  induction listing generalizing names parent number mkdirs counter with
  | nil => exact ⟨[], mkdirs, pure _ _, by simp⟩
  | file name data rest hypothesis =>
    obtain ⟨proper, _, restNamed⟩ := wellNamed
    simp only [entries, forall_mem_cons] at small
    obtain ⟨found, number, mkdirsAfter, resolves, foundShort⟩ :=
      resolve mkdirs rootIno counter [] short
    obtain ⟨later, after, lays, laterShort⟩ :=
      hypothesis mkdirsAfter (counter + bumps found + 1) restNamed plain short small.2
    refine ⟨_, after, walk_file plain proper.2.1 resolves data rfl lays, ?_⟩
    simp only [forall_mem_append, forall_mem_cons]
    exact ⟨foundShort, trivial, short_chunkPuts small.1.2, small.1.1, laterShort⟩
  | dir name contents rest contentsHypothesis restHypothesis =>
    obtain ⟨proper, _, contentsNamed, restNamed⟩ := wellNamed
    simp only [entries, forall_mem_cons, forall_mem_append] at small
    obtain ⟨found, number, mkdirsAfter, resolves, foundShort⟩ :=
      resolve mkdirs rootIno counter [] short
    have plainBelow : ∀ part ∈ names ++ [name], PlainName part :=
      forall_mem_append.mpr ⟨plain, forall_mem_singleton.mpr proper.plain⟩
    have shortBelow : ∀ part ∈ pathParts above ++ (names ++ [name]), part.length ≤ maxName := by
      rw [← append_assoc]
      exact forall_mem_append.mpr ⟨short, forall_mem_singleton.mpr small.1.1⟩
    obtain ⟨below, deeper, inside, belowShort⟩ :=
      contentsHypothesis (update mkdirsAfter
          (joinPath (pathParts above ++ names ++ [name])) (some (counter + bumps found)))
        (counter + bumps found + 1) contentsNamed plainBelow shortBelow
        small.2.1
    obtain ⟨later, after, lays, laterShort⟩ :=
      restHypothesis deeper (counter + bumps found + 1 + bumps below)
        restNamed plain short small.2.2
    refine ⟨_, after, walk_dir plain proper.2.1 resolves rfl inside lays, ?_⟩
    simp only [forall_mem_append, forall_mem_cons]
    exact ⟨foundShort, trivial, small.1.1, belowShort, laterShort⟩

/-! ## Trees at proper places -/

/-- The records of one entry. -/
def entryPuts (entry : Entry) : List Put :=
  match entry.content with
  | .file data =>
    .inode ⟨ofNat entry.number, 0, kindFile, ofNat data.length⟩ ::
      (chunkPuts (ofNat entry.number) data (data.length + 1) 0 ++
        [.dirent (ofNat entry.parent) entry.name (ofNat entry.number)])
  | .dir =>
    [.inode ⟨ofNat entry.number, 0, kindDir, 0⟩,
      .dirent (ofNat entry.parent) entry.name (ofNat entry.number)]

def seedPuts (entries : List Entry) : List Put := entries.flatMap entryPuts

theorem bumps_cons (put : Put) (rest : List Put) : bumps (put :: rest) = put.bump + bumps rest := by
  simp [bumps]

theorem bumps_append (first second : List Put) :
    bumps (first ++ second) = bumps first + bumps second := by
  simp [bumps]

theorem bumps_entryPuts (entry : Entry) : bumps (entryPuts entry) = 1 := by
  obtain ⟨parent, name, number, content⟩ := entry
  cases content with
  | dir => rfl
  | file data =>
    simp only [entryPuts]
    rw [bumps_cons, bumps_append, bumps_chunkPuts]
    rfl

theorem seedPuts_cons (entry : Entry) (rest : List Entry) :
    seedPuts (entry :: rest) = entryPuts entry ++ seedPuts rest := rfl

theorem seedPuts_append (first second : List Entry) :
    seedPuts (first ++ second) = seedPuts first ++ seedPuts second :=
  flatMap_append

theorem bumps_seedPuts (parent number : Nat) (listing : Listing) :
    bumps (seedPuts (listing.entries parent number)) = ofNat listing.count := by
  induction listing generalizing parent number with
  | nil => rfl
  | file name data rest hypothesis =>
    rw [entries, seedPuts_cons, bumps_append, bumps_entryPuts, hypothesis, Listing.count,
      add_comm, ofNat_add]
    rfl
  | dir name contents rest contentsHypothesis restHypothesis =>
    rw [entries, seedPuts_cons, bumps_append, bumps_entryPuts, seedPuts_append, bumps_append,
      contentsHypothesis, restHypothesis, Listing.count, add_comm (_ + _) 1, ofNat_add,
      ofNat_add]
    rfl

section Known

variable {above : Bytes} {names : List Bytes} {mkdirs : Bytes → Option UInt32} {parent : Nat}

/--
Under directories that are all known, the walk appends the records of the
entries, numbered through.
-/
theorem Lays.walk_known {listing : Listing} (number : Nat) (wellNamed : listing.WellNamed)
    (plainAbove : ∀ part ∈ pathParts above, PlainName part) (plain : ∀ name ∈ names, PlainName name)
    (leads : Leads mkdirs [] rootIno (pathParts above ++ names) (ofNat parent)) :
    ∃ after, Lays (fun f => Seeder.walk above (relPath names) listing ⟨f, mkdirs⟩)
        (ofNat number)
        (seedPuts (listing.entries parent number))
        (fun f => ⟨f, after⟩) ∧
      ∀ key, key.length ≤ (joinPath (pathParts above ++ names)).length →
        after key = mkdirs key := by
  have next (number : Nat) : ofNat (number + 1) = ofNat number + 1 := by
    simp [ofNat_add]
  have same (number : Nat) : ofNat number + bumps [] = ofNat number := by simp [bumps]
  have resolves {names : List Bytes} {parent : Nat} {mkdirs : Bytes → Option UInt32}
      (counter : UInt32) (plain : ∀ name ∈ names, PlainName name)
      (leads : Leads mkdirs [] rootIno (pathParts above ++ names) (ofNat parent)) :
      Lays (fun f => Seeder.resolveParts ⟨f, mkdirs⟩ rootIno [] (pathParts above ++ names))
        counter [] (fun f => (ofNat parent, ⟨f, mkdirs⟩)) :=
    fun f _ => leads.resolveParts f (by simp) (forall_mem_append.mpr ⟨plainAbove, plain⟩)
  induction listing generalizing names parent number mkdirs with
  | nil => exact ⟨mkdirs, Lays.pure _ _, fun _ _ => rfl⟩
  | file name data rest hypothesis =>
    obtain ⟨proper, _, restNamed⟩ := wellNamed
    obtain ⟨after, lays, kept⟩ := hypothesis (number + 1) restNamed plain leads
    refine ⟨after, ?_, kept⟩
    rw [next] at lays
    have whole := Lays.walk_file plain proper.2.1 (resolves _ plain leads) data (same number) lays
    simpa [entries, seedPuts_cons, entryPuts] using whole
  | dir name contents rest contentsHypothesis restHypothesis =>
    obtain ⟨proper, _, contentsNamed, restNamed⟩ := wellNamed
    have plainBelow : ∀ part ∈ names ++ [name], PlainName part :=
      forall_mem_append.mpr ⟨plain, forall_mem_singleton.mpr proper.plain⟩
    have longer := length_joinPath_snoc (pathParts above ++ names) proper.1
    have unmarked (key : Bytes) (short :
          key.length ≤ (joinPath (pathParts above ++ names)).length) :
        update mkdirs (joinPath (pathParts above ++ names ++ [name])) (some (ofNat number)) key =
          mkdirs key := by
      rw [update_of_ne]
      rintro rfl
      omega
    have leadsBelow : Leads (update mkdirs (joinPath (pathParts above ++ names ++ [name]))
          (some (ofNat number)))
        [] rootIno (pathParts above ++ (names ++ [name]))
        (ofNat number) := by
      rw [← append_assoc]
      exact (leads.congr unmarked).snoc (update_self _ _ _)
    obtain ⟨deeper, inside, sameInside⟩ :=
      contentsHypothesis (number + 1) contentsNamed plainBelow leadsBelow
    rw [← append_assoc] at sameInside
    have sameDeeper (key : Bytes) (short :
          key.length ≤ (joinPath (pathParts above ++ names)).length) :
        deeper key = mkdirs key := by
      rw [sameInside key (by omega), unmarked key short]
    have leadsAfter : Leads deeper [] rootIno (pathParts above ++ names) (ofNat parent) :=
      leads.congr sameDeeper
    obtain ⟨after, lays, sameAfter⟩ :=
      restHypothesis (number + 1 + contents.count) restNamed plain leadsAfter
    refine ⟨after, ?_, fun key short => ?_⟩
    · rw [next] at inside
      rw [ofNat_add, next, ← bumps_seedPuts number (number + 1)] at lays
      have whole :=
        Lays.walk_dir plain proper.2.1 (resolves _ plain leads) (same number) inside lays
      simpa [entries, seedPuts_cons, seedPuts_append, entryPuts] using whole
    · rw [sameAfter key short, sameDeeper key short]

end Known

/-! ## The directories above the tree -/

def chainEntries : Nat → Nat → List Bytes → List Entry
  | _, _, [] => []
  | parent, number, part :: rest =>
    ⟨parent, part, number, .dir⟩ :: chainEntries number (number + 1) rest

def chainEnd : Nat → Nat → List Bytes → Nat
  | parent, _, [] => parent
  | _, number, _ :: rest => chainEnd number (number + 1) rest

theorem entries_graft (host : Listing) (parts : List Bytes) (parent number : Nat) :
    (host.graft parts).entries parent number = chainEntries parent number parts ++
      host.entries (chainEnd parent number parts) (number + parts.length) := by
  induction parts generalizing parent number with
  | nil => rfl
  | cons part rest hypothesis =>
    rw [graft, entries, hypothesis]
    simp only [entries, append_nil, chainEntries, chainEnd, cons_append, length_cons]
    rw [add_assoc, add_comm 1]

theorem names_chainEntries (parts : List Bytes) (parent number : Nat) :
    (chainEntries parent number parts).map Entry.name = parts := by
  induction parts generalizing parent number with
  | nil => rfl
  | cons part rest hypothesis => rw [chainEntries, map_cons, hypothesis]

theorem chainEntries_snoc (parts : List Bytes) (part : Bytes) (parent number : Nat) :
    chainEntries parent number (parts ++ [part]) = chainEntries parent number parts ++
      [⟨chainEnd parent number parts, part, number + parts.length, .dir⟩] := by
  induction parts generalizing parent number with
  | nil => rfl
  | cons first rest hypothesis =>
    simp only [cons_append, chainEntries, chainEnd, length_cons]
    rw [hypothesis, add_assoc number, add_comm 1]

/--
The missing directories of a chain are made one below the other.  What follows
finds them, and nothing below the last of them.
-/
theorem Lays.resolve_chain {mkdirs : Bytes → Option UInt32} {before parts : List Bytes}
    (parent number : Nat) (plainBefore : ∀ part ∈ before, PlainName part)
    (plain : ∀ part ∈ parts, PlainName part)
    (unknown : ∀ key, (joinPath before).length < key.length → mkdirs key = none) :
    ∃ after, Leads after before (ofNat parent) parts (ofNat (chainEnd parent number parts)) ∧
      (∀ key, key.length ≤ (joinPath before).length → after key = mkdirs key) ∧
      (∀ key, (joinPath (before ++ parts)).length < key.length → after key = none) ∧
      ∀ {rest puts} {result : Formatter → UInt32 × Seeder}, Lays (fun f =>
          resolveParts ⟨f, after⟩ (ofNat (chainEnd parent number parts))
            (accOf (before ++ parts)) rest)
          (ofNat (number + parts.length)) puts result →
        Lays (fun f => resolveParts ⟨f, mkdirs⟩ (ofNat parent) (accOf before) (parts ++ rest))
          (ofNat number) (seedPuts (chainEntries parent number parts) ++ puts) result := by
  induction parts generalizing mkdirs before parent number with
  | nil =>
    rw [append_nil]
    exact ⟨mkdirs, rfl, fun _ _ => rfl, unknown, id⟩
  | cons part more hypothesis =>
    rw [forall_mem_cons] at plain
    have longer := length_joinPath_snoc before plain.1.1
    have plainHere : ∀ name ∈ before ++ [part], PlainName name :=
      forall_mem_append.mpr ⟨plainBefore, forall_mem_singleton.mpr plain.1⟩
    have outside (key : Bytes) (different : key.length ≠ (joinPath (before ++ [part])).length) :
        update mkdirs (joinPath (before ++ [part])) (some (ofNat number)) key = mkdirs key := by
      rw [update_of_ne]
      rintro rfl
      exact different rfl
    obtain ⟨after, leads, same, none, lays⟩ :=
      hypothesis number (number + 1) plainHere plain.2 fun key beyond =>
        (outside key (by omega)).trans (unknown key (by omega))
    have shape : before ++ part :: more = before ++ [part] ++ more := by simp
    rw [shape]
    refine ⟨after, ⟨ofNat number, ?_, leads⟩, fun key short => ?_, none, fun later => ?_⟩
    · rw [same _ (le_refl _), update_self]
    · rw [same key (by omega), outside key (by omega)]
    · have count : number + (part :: more).length = number + 1 + more.length := by
        rw [length_cons]
        omega
      have next : ofNat (number + 1) = ofNat number + 1 := by simp [ofNat_add]
      rw [count] at later
      have tail := lays later
      have missing := unknown _ longer
      rw [accOf_snoc, next] at tail
      rw [← pathJoin_accOf plainBefore] at tail missing
      exact tail.resolve_missing missing

theorem rootDirs_long (key : Bytes) (long : (joinPath []).length < key.length) :
    rootDirs key = none := by
  rw [rootDirs, update_of_ne]
  rintro rfl
  simp [joinPath] at long

theorem bumps_chainEntries (parent number : Nat) (parts : List Bytes) :
    bumps (seedPuts (chainEntries parent number parts)) = ofNat parts.length := by
  induction parts generalizing parent number with
  | nil => rfl
  | cons part rest hypothesis =>
    rw [chainEntries, seedPuts_cons, bumps_append, bumps_entryPuts, hypothesis, length_cons,
      add_comm, ofNat_add]
    rfl

theorem Lays.parentOf_root {above : Bytes} {parts : List Bytes}
    (split : pathParts above = parts ++ rest) (plain : ∀ part ∈ parts, PlainName part) :
    ∃ after, Leads after [] rootIno parts (ofNat (chainEnd rootNumber (rootNumber + 1) parts)) ∧
      (∀ key, (joinPath parts).length < key.length → after key = none) ∧
      ∀ {puts} {result : Formatter → UInt32 × Seeder}, Lays (fun f =>
          resolveParts ⟨f, after⟩
            (ofNat (chainEnd rootNumber (rootNumber + 1) parts)) (accOf parts) rest)
          (ofNat (rootNumber + 1 + parts.length)) puts result →
        Lays (fun f => parentOf ⟨f, rootDirs⟩ above) (ofNat (rootNumber + 1))
          (seedPuts (chainEntries rootNumber (rootNumber + 1) parts) ++ puts) result := by
  obtain ⟨after, leads, _, none, lays⟩ :=
    resolve_chain rootNumber (rootNumber + 1) (by simp) plain rootDirs_long
  refine ⟨after, leads, none, fun later => ?_⟩
  simp only [parentOf_eq, split]
  exact lays later

/-- Below plain components, seeding appends the entries of the whole tree. -/
theorem Lays.seedTree {above : Bytes} (host : HostTree)
    (plain : ∀ part ∈ pathParts above, PlainName part) :
    ∃ after, Lays (seedTree above host) (ofNat (rootNumber + 1))
      (seedPuts (host.listing.graft (pathParts above)).allEntries) (fun f => ⟨f, after⟩) := by
  obtain ⟨mkdirs, leads, _, directories⟩ := Lays.parentOf_root (append_nil _).symm plain
  have made := directories (Lays.pure _ _)
  rw [append_nil] at made
  obtain ⟨after, lays, _⟩ :=
    Lays.walk_known (rootNumber + 1 + (pathParts above).length) host.wellNamed plain
      (show ∀ name ∈ ([] : List Bytes), PlainName name by simp) (by rwa [append_nil])
  refine ⟨after, ?_⟩
  rw [ofNat_add, ← bumps_chainEntries rootNumber (rootNumber + 1)] at lays
  rw [allEntries, entries_graft, seedPuts_append]
  exact made.bind lays

/--
Whatever the components, the directories up to the first one that is not
plain are made first, and everything appended behind them replays.
-/
theorem Lays.seedTree_any {above : Bytes} {parts : List Bytes} {part : Bytes}
    {parent number : Nat} (host : HostTree) (split : pathParts above = parts ++ part :: rest)
    (plain : ∀ name ∈ parts, PlainName name) (started : parts = [] → part ≠ [])
    (short : ∀ name ∈ pathParts above, name.length ≤ maxName)
    (small : ∀ entry ∈ host.listing.entries parent number, SmallEntry entry) :
    ∃ puts after, Lays (Kfs.seedTree above host) (ofNat (rootNumber + 1)) (seedPuts
            (chainEntries rootNumber (rootNumber + 1) (parts ++ [part])) ++ puts)
        (fun f => ⟨f, after⟩) ∧
      ∀ put ∈ puts, put.Short := by
  have longer : (joinPath parts).length < (joinPath (parts ++ [part])).length := by
    by_cases empty : parts = []
    · exact length_joinPath_snoc parts (started empty)
    · rw [joinPath_snoc empty]
      simp
  obtain ⟨known, _, none, made⟩ := parentOf_root split plain
  have missing := none _ longer
  rw [← pathJoin_accOf plain] at missing
  have restShort : ∀ name ∈ rest, name.length ≤ maxName := by
    intro name member
    exact short name (by rw [split]; simp [member])
  obtain ⟨found, final, mkdirs, resolves, foundShort⟩ :=
    resolve (update known (pathJoin (accOf parts) part)
        (some (ofNat (rootNumber + 1 + parts.length))))
      (ofNat (rootNumber + 1 + parts.length))
      (ofNat (rootNumber + 1 + parts.length) + 1)
      (pathJoin (accOf parts) part) restShort
  have directories := made (resolves.resolve_missing missing)
  have chain : seedPuts (chainEntries rootNumber (rootNumber + 1) parts) ++ (.inode
          ⟨ofNat (rootNumber + 1 + parts.length), 0, kindDir, 0⟩ ::
        .dirent (ofNat (chainEnd rootNumber (rootNumber + 1) parts))
            part (ofNat (rootNumber + 1 + parts.length)) ::
          found) =
      seedPuts (chainEntries rootNumber (rootNumber + 1) (parts ++ [part])) ++ found := by
    rw [chainEntries_snoc, seedPuts_append]
    simp [seedPuts, entryPuts]
  rw [chain] at directories
  obtain ⟨walked, after, walks, walkedShort⟩ :=
    walk above mkdirs (ofNat (rootNumber + 1) + bumps (seedPuts
          (chainEntries rootNumber (rootNumber + 1) (parts ++ [part])) ++
        found))
      host.wellNamed
      (show ∀ name ∈ ([] : List Bytes), PlainName name by simp)
      (by rwa [append_nil]) small
  refine ⟨found ++ walked, after, ?_, ?_⟩
  · rw [← append_assoc]
    exact directories.bind walks
  · exact forall_mem_append.mpr ⟨foundShort, walkedShort⟩

end KernelLane.Kfs
