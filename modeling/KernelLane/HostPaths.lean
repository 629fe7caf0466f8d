import KernelLane.HostTree

namespace KernelLane

open List

/-!
# Paths of the image builder

The image builder joins and splits volume paths as byte strings.  This module
has its path functions, and what they are in terms of component lists.
-/

def relPath (names : List Bytes) : Bytes := [slash].intercalate names

def joinPath (names : List Bytes) : Bytes := slash :: relPath names

def trim (path : Bytes) : Bytes := (path.dropWhile (· = slash)).rdropWhile (· = slash)

def dirOf (path : Bytes) : Bytes :=
  let upTo := path.rdropWhile (· ≠ slash)
  if upTo.length ≤ 1 then [slash] else upTo.dropLast

def base (path : Bytes) : Bytes := path.rtakeWhile (· ≠ slash)

def pathJoin (above name : Bytes) : Bytes :=
  let whole := slash :: trim above
  if whole = [slash] then slash :: name else whole ++ slash :: name

def pathParts (path : Bytes) : List Bytes :=
  if trim path = [] then [] else (trim path).splitOn slash

example : pathParts [47, 97, 47, 47, 98, 47] = [[97], [], [98]] := by decide

/-! ## Joining -/

@[simp] theorem relPath_nil : relPath [] = [] := rfl

@[simp] theorem relPath_singleton (name : Bytes) : relPath [name] = name := by simp [relPath]

theorem relPath_cons (name : Bytes) {rest : List Bytes} (nonempty : rest ≠ []) :
    relPath (name :: rest) = name ++ slash :: relPath rest := by
  cases rest with
  | nil => exact absurd rfl nonempty
  | cons second more =>
    rw [relPath, intercalate_cons_cons]
    simp [relPath]

theorem relPath_append {first second : List Bytes} (firstNonempty : first ≠ [])
    (secondNonempty : second ≠ []) :
    relPath (first ++ second) = relPath first ++ slash :: relPath second := by
  induction first with
  | nil => exact absurd rfl firstNonempty
  | cons name rest hypothesis =>
    by_cases single : rest = []
    · subst single
      rw [singleton_append, relPath_cons name secondNonempty, relPath_singleton]
    rw [cons_append, relPath_cons name (append_ne_nil_of_left_ne_nil single _), hypothesis single,
      relPath_cons name single, append_assoc, cons_append]

theorem relPath_pathParts (path : Bytes) : relPath (pathParts path) = trim path := by
  unfold pathParts
  split
  next empty => rw [empty, relPath_nil]
  · exact intercalate_splitOn slash

/-! ## Trimming -/

/-- Nothing to trim. -/
def Trimmed (path : Bytes) : Prop := path.head? ≠ some slash ∧ path.getLast? ≠ some slash

variable {path name : Bytes} {names : List Bytes} {part : Bytes}

theorem trim_of_trimmed (trimmed : Trimmed path) : trim path = path := by
  have keepsFront : path.dropWhile (· = slash) = path := by
    rw [dropWhile_eq_self_iff]
    intro nonempty isSlash
    apply trimmed.1
    rw [head?_eq_getElem?, List.getElem?_eq_getElem nonempty]
    simpa using isSlash
  rw [trim, keepsFront, rdropWhile_eq_self_iff]
  intro nonempty isSlash
  apply trimmed.2
  rw [getLast?_eq_some_getLast nonempty]
  simpa using isSlash

theorem trimmed_trim (path : Bytes) : Trimmed (trim path) := by
  have inside : trim path <+: path.dropWhile (· = slash) := rdropWhile_prefix _ _
  constructor
  · intro front
    have nonempty : trim path ≠ [] := by
      rintro empty
      simp [empty] at front
    obtain ⟨rest, whole⟩ := inside
    have sameFront : (path.dropWhile (· = slash)).head? = some slash := by
      rw [← whole, head?_append, front]
      rfl
    have notSlash := head?_dropWhile_not (· = slash) path
    rw [sameFront] at notSlash
    simp at notSlash
  · intro back
    have nonempty : trim path ≠ [] := by
      rintro empty
      simp [empty] at back
    have notSlash := rdropWhile_last_not (· = slash) (path.dropWhile (· = slash)) nonempty
    rw [getLast?_eq_some_getLast nonempty, Option.some.injEq] at back
    exact notSlash (by simpa [trim] using back)

@[simp] theorem trim_slash_cons (path : Bytes) : trim (slash :: path) = trim path := by simp [trim]

theorem Trimmed.join {first second : Bytes} (left : Trimmed first) (right : Trimmed second)
    (firstNonempty : first ≠ []) (secondNonempty : second ≠ []) :
    Trimmed (first ++ slash :: second) := by
  constructor
  · rw [head?_append_of_ne_nil _ firstNonempty]
    exact left.1
  · rw [getLast?_append_cons, getLast?_cons_of_ne_nil secondNonempty]
    exact right.2

/-! ## Taking paths apart -/

variable (above : Bytes)

theorem rdropWhile_join (noSlash : slash ∉ name) :
    (above ++ slash :: name).rdropWhile (· ≠ slash) = above ++ [slash] := by
  have passes : ∀ byte ∈ name.reverse, decide (byte ≠ slash) = true := by
    intro byte member
    rw [mem_reverse] at member
    simp only [ne_eq, decide_eq_true_eq]
    rintro rfl
    exact noSlash member
  rw [rdropWhile, reverse_append, reverse_cons, append_assoc, dropWhile_append_of_pos passes]
  simp

theorem dirOf_join (noSlash : slash ∉ name) : dirOf (above ++ slash :: name) =
    if above = [] then [slash] else above := by
  rw [dirOf, rdropWhile_join above noSlash]
  cases above with
  | nil => rfl
  | cons first rest =>
    rw [dropLast_concat]
    simp

theorem base_join (noSlash : slash ∉ name) : base (above ++ slash :: name) = name := by
  have whole : (above ++ slash :: name).rdropWhile (· ≠ slash) ++ base (above ++ slash :: name) =
      above ++ slash :: name :=
    rdropWhile_append_rtakeWhile
  rw [rdropWhile_join above noSlash, append_assoc, singleton_append, append_cancel_left_eq,
    List.cons.injEq] at whole
  exact whole.2

/-! ## Paths of components -/

/-- A component that is neither empty nor contains a slash. -/
def PlainName (name : Bytes) : Prop := name ≠ [] ∧ slash ∉ name

theorem ProperName.plain (proper : ProperName name) : PlainName name := ⟨proper.1, proper.2.1⟩

theorem PlainName.trimmed (plain : PlainName name) : Trimmed name := by
  constructor
  · intro front
    exact plain.2 (mem_of_head? front)
  · intro back
    exact plain.2 (mem_of_getLast? back)

theorem relPath_ne_nil (plain : ∀ name ∈ names, PlainName name) (nonempty : names ≠ []) :
    relPath names ≠ [] := by
  cases names with
  | nil => exact absurd rfl nonempty
  | cons name rest =>
    have first := (plain name mem_cons_self).1
    by_cases single : rest = []
    · subst single
      rwa [relPath_singleton]
    · rw [relPath_cons name single]
      simp

theorem trimmed_relPath (plain : ∀ name ∈ names, PlainName name) : Trimmed (relPath names) := by
  induction names with
  | nil => exact ⟨by simp, by simp⟩
  | cons name rest hypothesis =>
    rw [forall_mem_cons] at plain
    by_cases single : rest = []
    · subst single
      rw [relPath_singleton]
      exact plain.1.trimmed
    rw [relPath_cons name single]
    exact plain.1.trimmed.join (hypothesis plain.2) plain.1.1 (relPath_ne_nil plain.2 single)

theorem joinPath_snoc (nonempty : names ≠ []) (name : Bytes) :
    joinPath (names ++ [name]) = joinPath names ++ slash :: name := by
  rw [joinPath, relPath_append nonempty (by simp), relPath_singleton]
  rfl

theorem pathParts_ne_nil (filled : trim path ≠ []) : pathParts path ≠ [] := by
  intro none
  have whole := relPath_pathParts path
  rw [none, relPath_nil] at whole
  exact filled whole.symm

theorem pathJoin_relPath (nonempty : names ≠ []) :
    pathJoin above (relPath names) = joinPath (pathParts above ++ names) := by
  unfold pathJoin
  by_cases empty : trim above = []
  · simp [empty, pathParts, joinPath]
  rw [joinPath, relPath_append (pathParts_ne_nil empty) nonempty, relPath_pathParts]
  simp [empty]

theorem dirOf_joinPath (names : List Bytes) (noSlash : slash ∉ name) :
    dirOf (joinPath (names ++ [name])) = joinPath names := by
  by_cases nonempty : names = []
  · subst nonempty
    rw [nil_append, joinPath, relPath_singleton]
    exact dirOf_join [] noSlash
  · rw [joinPath_snoc nonempty, dirOf_join _ noSlash]
    simp [joinPath]

theorem base_joinPath (names : List Bytes) (noSlash : slash ∉ name) :
    base (joinPath (names ++ [name])) = name := by
  by_cases nonempty : names = []
  · subst nonempty
    rw [nil_append, joinPath, relPath_singleton]
    exact base_join [] noSlash
  · rw [joinPath_snoc nonempty, base_join _ noSlash]

theorem pathParts_joinPath (plain : ∀ name ∈ names, PlainName name) :
    pathParts (joinPath (pathParts above ++ names)) = pathParts above ++ names := by
  have split (nonempty : names ≠ []) : (relPath names).splitOn slash = names :=
    splitOn_intercalate slash (fun name member => (plain name member).2) nonempty
  have trimmedNames := trimmed_relPath plain
  by_cases noNames : names = []
  · subst noNames
    rw [append_nil, pathParts, joinPath, relPath_pathParts,
      trim_slash_cons, trim_of_trimmed (trimmed_trim above)]
    rfl
  · have filled := relPath_ne_nil plain noNames
    by_cases empty : trim above = []
    · have noParts : pathParts above = [] := if_pos empty
      rw [noParts, nil_append, pathParts, joinPath, trim_slash_cons,
        trim_of_trimmed trimmedNames, if_neg filled, split noNames]
    have parts : pathParts above = (trim above).splitOn slash := if_neg empty
    have joined : joinPath (pathParts above ++ names) =
        slash :: (trim above ++ slash :: relPath names) := by
      rw [joinPath, relPath_append (pathParts_ne_nil empty) noNames, relPath_pathParts]
    have trimmed : Trimmed (trim above ++ slash :: relPath names) :=
      (trimmed_trim above).join trimmedNames empty filled
    rw [joined, pathParts, trim_slash_cons, trim_of_trimmed trimmed,
      if_neg (by simp), splitOn_append_cons_self, split noNames, parts]

theorem pathJoin_joinPath (plain : ∀ name ∈ names, PlainName name) (nonempty : names ≠ [])
    (name : Bytes) : pathJoin (joinPath names) name = joinPath (names ++ [name]) := by
  have filled := relPath_ne_nil plain nonempty
  rw [joinPath_snoc nonempty, pathJoin, joinPath, trim_slash_cons,
    trim_of_trimmed (trimmed_relPath plain)]
  simp [filled]

theorem cleanParts_of_proper (proper : ∀ name ∈ names, ProperName name) :
    cleanParts names = some names := by
  induction names with
  | nil => rfl
  | cons name rest hypothesis =>
    rw [forall_mem_cons] at proper
    obtain ⟨⟨nonempty, _, notDot, notDotDot⟩, later⟩ := proper
    simp [cleanParts, nonempty, notDot, notDotDot, hypothesis later]

theorem splitPath_joinPath (proper : ∀ name ∈ names, ProperName name) :
    splitPath (joinPath names) = .ok names := by
  by_cases nonempty : names = []
  · subst nonempty
    decide
  have split : (relPath names).splitOn slash = names :=
    splitOn_intercalate slash (fun name member => (proper name member).2.1) nonempty
  simp [splitPath, joinPath, split, cleanParts_of_proper proper]

/-! ## Components that path resolution drops -/

theorem not_mem_of_splitOn (member : part ∈ path.splitOn slash) : slash ∉ part := by
  induction path generalizing part with
  | nil =>
    simp only [splitOn_nil, mem_singleton] at member
    simp [member]
  | cons byte rest hypothesis =>
    rw [splitOn_cons_eq_if_modifyHead] at member
    split at member
    · rcases mem_cons.mp member with rfl | later
      · simp
      · exact hypothesis later
    next notSlash =>
      cases parts : rest.splitOn slash with
      | nil =>
        rw [parts] at member
        cases member
      | cons first more =>
        rw [parts] at member hypothesis
        rcases mem_cons.mp member with rfl | later
        · rw [mem_cons, not_or]
          exact ⟨fun same => notSlash (beq_iff_eq.mpr same.symm), hypothesis mem_cons_self⟩
        · exact hypothesis (mem_cons_of_mem _ later)

theorem not_mem_of_pathParts (member : part ∈ pathParts path) : slash ∉ part := by
  unfold pathParts at member
  split at member
  · cases member
  · exact not_mem_of_splitOn member

theorem pathParts_head {rest : List Bytes} (parts : pathParts path = part :: rest) : part ≠ [] := by
  rintro rfl
  have whole := relPath_pathParts path
  rw [parts] at whole
  by_cases single : rest = []
  · subst single
    rw [relPath_singleton] at whole
    rw [pathParts, if_pos whole.symm] at parts
    cases parts
  · rw [relPath_cons [] single, nil_append] at whole
    have trimmed := (trimmed_trim path).1
    rw [← whole] at trimmed
    exact trimmed rfl

theorem splitPath_trim (path : Bytes) : splitPath (slash :: trim path) =
    match cleanParts (pathParts path) with
    | none => .error .badName
    | some parts => .ok parts := by
  unfold splitPath pathParts
  by_cases empty : trim path = []
  · rw [empty]
    rfl
  · rw [if_neg empty]
    exact if_neg (not_not.mpr rfl)

theorem proper_of_cleanParts {parts : List Bytes} (noSlash : ∀ part ∈ parts, slash ∉ part)
    (cleaned : cleanParts parts = some names) : ∀ name ∈ names, ProperName name := by
  induction parts generalizing names with
  | nil =>
    cases cleaned
    simp
  | cons part rest hypothesis =>
    rw [forall_mem_cons] at noSlash
    rw [cleanParts] at cleaned
    split at cleaned
    · exact hypothesis noSlash.2 cleaned
    next kept =>
      split at cleaned
      · cases cleaned
      next notDotDot =>
        obtain ⟨later, cleanRest, rfl⟩ := Option.map_eq_some_iff.mp cleaned
        rw [not_or] at kept
        exact forall_mem_cons.mpr ⟨⟨kept.1, noSlash.1, kept.2, notDotDot⟩,
          hypothesis noSlash.2 cleanRest⟩

theorem mem_of_cleanParts {parts : List Bytes} (cleaned : cleanParts parts = some names)
    (member : part ∈ parts) : part = [] ∨ part = dotName ∨ part ∈ names := by
  induction parts generalizing names with
  | nil => cases member
  | cons first rest hypothesis =>
    rw [cleanParts] at cleaned
    split at cleaned
    next dropped =>
      rcases mem_cons.mp member with rfl | later
      · exact dropped.elim .inl fun isDot => .inr (.inl isDot)
      · exact hypothesis cleaned later
    · split at cleaned
      · cases cleaned
      obtain ⟨kept, cleanRest, rfl⟩ := Option.map_eq_some_iff.mp cleaned
      rcases mem_cons.mp member with rfl | later
      · exact .inr (.inr mem_cons_self)
      · rcases hypothesis cleanRest later with
          isEmpty | isDot | inside
        · exact .inl isEmpty
        · exact .inr (.inl isDot)
        · exact .inr (.inr (mem_cons_of_mem _ inside))

theorem cleanParts_append {good : List Bytes} (proper : ∀ name ∈ good, ProperName name)
    (rest : List Bytes) : cleanParts (good ++ rest) = (cleanParts rest).map (good ++ ·) := by
  induction good with
  | nil => simp
  | cons name more hypothesis =>
    rw [forall_mem_cons] at proper
    obtain ⟨⟨nonempty, _, notDot, notDotDot⟩, later⟩ := proper
    rw [cons_append, cleanParts, if_neg (by simp [nonempty, notDot]),
      if_neg notDotDot, hypothesis later, Option.map_map]
    rfl

end KernelLane
