import KernelLane.HostPaths
import KernelLane.PkgVerify

namespace KernelLane.Pkg

open List

/-!
# Installing, updating and removing modules

The package manager stores a module under its own name below the modules
directory.  The name is bytes of the module, or an argument, and goes through
Go's `path.Join`, which resolves `..` components.  Storing truncates the file
and then writes it in as many calls as the file system takes.

The file system is a map of files with a behaviour: what it answers to each
call, and how much of a failed write lands.  Under every behaviour the calls
go to one path only, which lies in the modules directory exactly when the
directory part of the name leads back to it (`confined_iff`).  The old module
survives a failed request exactly when the behaviour stops it before the
file is touched, or with the old bytes in it (`failure_keeps_old_iff`).
-/

/-! ## Joining paths -/

def cleanStep (rooted : Bool) (kept : List Bytes) (part : Bytes) : List Bytes :=
  if part = [] ∨ part = dotName then kept
  else if part = dotDotName then
    match kept.getLast? with
    | none => if rooted then kept else kept ++ [dotDotName]
    | some last =>
      if last = dotDotName then kept ++ [dotDotName] else kept.dropLast
  else kept ++ [part]

def cleanComponents (rooted : Bool) (parts : List Bytes) : List Bytes :=
  parts.foldl (cleanStep rooted) []

def isRooted (path : Bytes) : Bool := path.head? = some slash

def clean (path : Bytes) : Bytes :=
  let kept := cleanComponents (isRooted path) (path.splitOn slash)
  if isRooted path then joinPath kept
  else if kept = [] then dotName
  else relPath kept

def join (first second : Bytes) : Bytes :=
  if first = [] then
    if second = [] then [] else clean second
  else if second = [] then clean first
  else clean (first ++ slash :: second)

example : join (ascii "/boot/modules") (ascii "../../etc/x.wasm") = ascii "/etc/x.wasm" := by decide

/-! ## The file system -/

/-- What the file system does with a call to create or truncate a file. -/
inductive CreateAnswer (E : Type)
  | done
  | failed (truncated : Bool) (cause : E)

/--
What the file system does with a write: take so many bytes, or fail with so
many bytes of the data in the file.
-/
inductive WriteAnswer (E : Type)
  | taken (count : Nat)
  | failed (landed : Nat) (cause : E)

/-- The answers of the file system during one request. -/
structure Behaviour (E : Type) where
  stat : Option E
  create : CreateAnswer E
  write : Nat → WriteAnswer E
  delete : Option E

/-- The files by path, and the paths that calls have changed or tried to. -/
structure Disk where
  files : Bytes → Option Bytes
  touched : List Bytes

/-- Errors of the package manager, around those of the file system. -/
inductive PkgError (E : Type)
  | verify (reason : String)
  | noName
  | notInstalled (name : Bytes)
  | create (dst : Bytes) (cause : E)
  | write (dst : Bytes) (cause : E)
  | zeroProgress (dst : Bytes)
  | delete (cause : E)

def overwrite (content : Bytes) (offset : Nat) (data : Bytes) : Bytes :=
  content.take offset ++ replicate (offset - content.length) 0 ++ data ++
    content.drop (offset + data.length)

def Disk.truncate (disk : Disk) (path : Bytes) : Disk :=
  { disk with files := Function.update disk.files path (some []) }

def Disk.land (disk : Disk) (path : Bytes) (offset : Nat) (data : Bytes) : Disk :=
  { disk with
    files := Function.update disk.files path
      (some (overwrite ((disk.files path).getD []) offset data)) }

def Disk.touch (disk : Disk) (path : Bytes) : Disk :=
  { disk with touched := disk.touched ++ [path] }

section Requests

variable {E : Type} (behaviour : Behaviour E)

/-- The loop of writes behind a truncation; `call` numbers the writes. -/
def writeLoop (dst wasm : Bytes) : Nat → Nat → Nat → Disk → Except (PkgError E) Unit × Disk
  | 0, _, _, disk => (.ok (), disk)
  | fuel + 1, written, call, disk =>
    if written < wasm.length then
      match behaviour.write call with
      | .failed landed cause =>
        (.error (.write dst cause), (disk.touch dst).land dst written
          ((wasm.drop written).take landed))
      | .taken count =>
        if count = 0 then (.error (.zeroProgress dst), disk.touch dst)
        else
          writeLoop dst wasm fuel (written + min count (wasm.length - written)) (call + 1)
            ((disk.touch dst).land dst written ((wasm.drop written).take count))
    else (.ok (), disk)

def store (dst wasm : Bytes) (disk : Disk) : Except (PkgError E) Unit × Disk :=
  match behaviour.create with
  | .failed truncated cause =>
    (.error (.create dst cause),
      if truncated then (disk.touch dst).truncate dst else disk.touch dst)
  | .done => writeLoop behaviour dst wasm wasm.length 0 0 ((disk.touch dst).truncate dst)

/-- The package manager; its modules directory is an absolute path. -/
structure Manager where
  trusted : List PublicKey
  modulesDir : Bytes
  rooted : isRooted modulesDir = true

def Manager.dst (manager : Manager) (name : Bytes) : Bytes :=
  join manager.modulesDir (name ++ ascii ".wasm")

variable (checks : PublicKey → Bytes → Bytes → Bool)

/-- Verify a module and store it under its name. -/
def install (manager : Manager) (wasm : Bytes) (disk : Disk) : Except (PkgError E) Bytes × Disk :=
  match verify checks manager.trusted wasm with
  | .error reason => (.error (.verify reason), disk)
  | .ok () =>
    if moduleName wasm = [] then (.error .noName, disk)
    else
      let outcome := store behaviour (manager.dst (moduleName wasm)) wasm disk
      (outcome.1.map fun _ => moduleName wasm, outcome.2)

/-- Verify a module and store it in the place of the one of its name. -/
def update (manager : Manager) (wasm : Bytes) (disk : Disk) : Except (PkgError E) Bytes × Disk :=
  match verify checks manager.trusted wasm with
  | .error reason => (.error (.verify reason), disk)
  | .ok () =>
    if moduleName wasm = [] then (.error .noName, disk)
    else if behaviour.stat.isSome ∨ disk.files (manager.dst (moduleName wasm)) = none then
      (.error (.notInstalled (moduleName wasm)), disk)
    else
      let outcome := store behaviour (manager.dst (moduleName wasm)) wasm disk
      (outcome.1.map fun _ => moduleName wasm, outcome.2)

def remove (manager : Manager) (name : Bytes) (disk : Disk) : Except (PkgError E) Unit × Disk :=
  match behaviour.delete with
  | some cause => (.error (.delete cause), disk.touch (manager.dst name))
  | none =>
    (.ok (), { disk.touch (manager.dst name) with
        files := Function.update disk.files (manager.dst name) none })

end Requests

/-! ## Where a name leads -/

def dirParts (dir : Bytes) : List Bytes := cleanComponents true (dir.splitOn slash)

def landing (dir name : Bytes) : List Bytes :=
  (name.splitOn slash).dropLast.foldl (cleanStep true) (dirParts dir)

/-- A path is a file directly inside a directory. -/
def Confined (dir path : Bytes) : Prop := ∃ leaf, ProperName leaf ∧ path = join dir leaf

variable {rooted : Bool} {dst : Bytes}

theorem plain_cleanStep {kept : List Bytes} {part : Bytes} (plain : ∀ name ∈ kept, PlainName name)
    (noSlash : slash ∉ part) : ∀ name ∈ cleanStep rooted kept part, PlainName name := by
  have dotDotPlain : PlainName dotDotName := ⟨by decide, by decide⟩
  have withDotDot : ∀ name ∈ kept ++ [dotDotName], PlainName name := by
    rw [forall_mem_append, forall_mem_singleton]
    exact ⟨plain, dotDotPlain⟩
  unfold cleanStep
  split
  · exact plain
  next visible =>
    split
    · split
      · split
        · exact plain
        · exact withDotDot
      · split
        · exact withDotDot
        · intro name member
          exact plain name (dropLast_subset _ member)
    · rw [forall_mem_append, forall_mem_singleton]
      rw [not_or] at visible
      exact ⟨plain, visible.1, noSlash⟩

theorem plain_foldl_cleanStep {kept parts : List Bytes} (plain : ∀ name ∈ kept, PlainName name)
    (noSlash : ∀ part ∈ parts, slash ∉ part) :
    ∀ name ∈ parts.foldl (cleanStep rooted) kept, PlainName name := by
  induction parts generalizing kept with
  | nil => exact plain
  | cons part rest hypothesis =>
    rw [forall_mem_cons] at noSlash
    exact hypothesis (plain_cleanStep plain noSlash.1) noSlash.2

theorem plain_dirParts (dir : Bytes) : ∀ name ∈ dirParts dir, PlainName name :=
  plain_foldl_cleanStep (by simp) fun _ member => not_mem_of_splitOn member

theorem plain_landing (dir name : Bytes) : ∀ part ∈ landing dir name, PlainName part :=
  plain_foldl_cleanStep (plain_dirParts dir) fun _ member =>
    not_mem_of_splitOn (dropLast_subset _ member)

theorem cleanStep_proper {part : Bytes} (proper : ProperName part) (kept : List Bytes) :
    cleanStep rooted kept part = kept ++ [part] := by
  obtain ⟨nonempty, _, notDot, notDotDot⟩ := proper
  rw [cleanStep, if_neg (by simp [nonempty, notDot]), if_neg notDotDot]

theorem join_rooted {dir leaf : Bytes} (rooted : isRooted dir = true) (nonempty : leaf ≠ []) :
    join dir leaf = joinPath ((leaf.splitOn slash).foldl (cleanStep true) (dirParts dir)) := by
  have dirNonempty : dir ≠ [] := by
    rintro rfl
    cases rooted
  have wholeRooted : isRooted (dir ++ slash :: leaf) = true := by
    unfold isRooted at rooted ⊢
    rw [List.head?_append_of_ne_nil _ dirNonempty]
    exact rooted
  rw [join, if_neg dirNonempty, if_neg nonempty, clean, wholeRooted,
    cleanComponents, splitOn_append_cons_self, foldl_append]
  rfl

theorem splitOn_suffix (name suffix : Bytes) (noSlash : slash ∉ suffix) : ∃ last,
    (name ++ suffix).splitOn slash = (name.splitOn slash).dropLast ++ [last ++ suffix] ∧
    slash ∉ last := by
  have whole : relPath (name.splitOn slash) = name := intercalate_splitOn slash
  have noSlashes : ∀ part ∈ name.splitOn slash, slash ∉ part :=
    fun _ member => not_mem_of_splitOn member
  rcases eq_nil_or_concat (name.splitOn slash) with
    empty | ⟨front, last, parts⟩
  · exact absurd empty (splitOn_ne_nil slash name)
  · rw [parts, concat_eq_append] at whole noSlashes
    rw [forall_mem_append, forall_mem_singleton] at noSlashes
    have joined : relPath (front ++ [last ++ suffix]) = name ++ suffix := by
      by_cases single : front = []
      · subst single
        rw [nil_append, relPath_singleton] at whole ⊢
        rw [whole]
      · rw [relPath_append single (by simp), relPath_singleton] at whole ⊢
        rw [← whole, append_assoc, cons_append]
    have behindNoSlash : slash ∉ last ++ suffix := by
      rw [mem_append, not_or]
      exact ⟨noSlashes.2, noSlash⟩
    refine ⟨last, ?_, noSlashes.2⟩
    rw [parts, concat_eq_append, dropLast_concat, ← joined]
    apply splitOn_intercalate
    · rw [forall_mem_append, forall_mem_singleton]
      exact ⟨noSlashes.1, behindNoSlash⟩
    · simp

theorem proper_wasm {last : Bytes} (noSlash : slash ∉ last) :
    ProperName (last ++ ascii ".wasm") := by
  have differs (short : Bytes) (few : short.length < 5) : last ++ ascii ".wasm" ≠ short := by
    rintro rfl
    rw [length_append] at few
    exact absurd (Nat.le_add_left 5 last.length) (Nat.not_le.mpr few)
  refine ⟨differs [] (by decide), ?_, differs dotName (by decide), differs dotDotName (by decide)⟩
  rw [mem_append, not_or]
  exact ⟨noSlash, by decide⟩

theorem Manager.dst_eq (manager : Manager) (name : Bytes) : ∃ leaf, ProperName leaf ∧
    manager.dst name = joinPath (landing manager.modulesDir name ++ [leaf]) := by
  obtain ⟨last, parts, noSlash⟩ := splitOn_suffix name (ascii ".wasm") (by decide)
  have proper := proper_wasm noSlash
  have nonempty : name ++ ascii ".wasm" ≠ [] := append_ne_nil_of_right_ne_nil name (by decide)
  refine ⟨last ++ ascii ".wasm", proper, ?_⟩
  rw [Manager.dst, join_rooted manager.rooted nonempty, parts, foldl_append, foldl_cons,
    cleanStep_proper proper]
  rfl

theorem joinPath_injective {first second : List Bytes} (firstPlain : ∀ name ∈ first, PlainName name)
    (secondPlain : ∀ name ∈ second, PlainName name) (same : joinPath first = joinPath second) :
    first = second := by
  have back {names : List Bytes} (plain : ∀ name ∈ names, PlainName name) :
      pathParts (joinPath names) = names :=
    pathParts_joinPath [] plain
  rw [← back firstPlain, same, back secondPlain]

theorem Manager.confined_dst_iff (manager : Manager) (name : Bytes) :
    Confined manager.modulesDir (manager.dst name) ↔
      landing manager.modulesDir name = dirParts manager.modulesDir := by
  obtain ⟨leaf, proper, target⟩ := manager.dst_eq name
  have inside {other : Bytes} (otherProper : ProperName other) : join manager.modulesDir other =
      joinPath (dirParts manager.modulesDir ++ [other]) := by
    have single : other.splitOn slash = [other] := by
      have plain : ∀ part ∈ [other], slash ∉ part := by simpa using otherProper.2.1
      have split := splitOn_intercalate slash plain (by simp)
      simpa using split
    rw [join_rooted manager.rooted otherProper.1, single, foldl_cons,
      foldl_nil, cleanStep_proper otherProper]
  constructor
  · rintro ⟨other, otherProper, same⟩
    rw [target, inside otherProper] at same
    have parts := joinPath_injective (forall_mem_append.mpr ⟨plain_landing _ name,
        forall_mem_singleton.mpr proper.plain⟩)
      (forall_mem_append.mpr ⟨plain_dirParts _, forall_mem_singleton.mpr otherProper.plain⟩) same
    exact (append_inj' parts rfl).1
  · intro leadsBack
    exact ⟨leaf, proper, by rw [target, leadsBack, inside proper]⟩

/-! ## The paths that requests change -/

section Touched

variable {E : Type} (behaviour : Behaviour E)

theorem writeLoop_touched (dst wasm : Bytes) (fuel written call : Nat) (disk : Disk) : ∃ count,
    (writeLoop behaviour dst wasm fuel written call disk).2.touched =
      disk.touched ++ replicate count dst := by
  induction fuel generalizing written call disk with
  | zero => exact ⟨0, by simp [writeLoop]⟩
  | succ fuel hypothesis =>
    unfold writeLoop
    split
    · split
      · exact ⟨1, rfl⟩
      split
      · exact ⟨1, rfl⟩
      next taken _ _ =>
        obtain ⟨count, later⟩ := hypothesis
          (written + min taken (wasm.length - written)) (call + 1)
          ((disk.touch dst).land dst written ((wasm.drop written).take taken))
        refine ⟨count + 1, ?_⟩
        rw [later, Nat.add_comm count 1, replicate_add, ← append_assoc]
        rfl
    · exact ⟨0, by simp⟩

theorem store_touched (dst wasm : Bytes) (disk : Disk) : ∃ count,
    (store behaviour dst wasm disk).2.touched = disk.touched ++ replicate (count + 1) dst := by
  unfold store
  split
  next truncated _ _ =>
    refine ⟨0, ?_⟩
    cases truncated with
    | true => rfl
    | false => rfl
  · obtain ⟨count, later⟩ := writeLoop_touched behaviour dst wasm
      wasm.length 0 0 ((disk.touch dst).truncate dst)
    refine ⟨count, ?_⟩
    rw [later, Nat.add_comm count 1, replicate_add, ← append_assoc]
    rfl

end Touched

/-! ## How far a request gets -/

/-- The two requests that store a module. -/
inductive Way
  | install
  | update
  deriving Repr, DecidableEq

/-- A module that is accepted and has a name. -/
def Accepted (checks : PublicKey → Bytes → Bytes → Bool) (manager : Manager) (wasm : Bytes) :
    Prop :=
  verify checks manager.trusted wasm = .ok () ∧ moduleName wasm ≠ []

namespace Way

section

variable {E : Type} (behaviour : Behaviour E)
  (checks : PublicKey → Bytes → Bytes → Bool) (manager : Manager)
  (wasm : Bytes) (disk : Disk)

def run : Way → Except (PkgError E) Bytes × Disk
  | .install => Pkg.install behaviour checks manager wasm disk
  | .update => Pkg.update behaviour checks manager wasm disk

/-- The request gets as far as the file of the module. -/
def Reaches (way : Way) : Prop :=
  Accepted checks manager wasm ∧ (way = .update → behaviour.stat = none ∧
    disk.files (manager.dst (moduleName wasm)) ≠ none)

end

variable {E : Type} {behaviour : Behaviour E}
  {checks : PublicKey → Bytes → Bytes → Bool} {manager : Manager}
  {wasm : Bytes} {disk : Disk} {way : Way}

theorem run_of_not_reaches (stops : ¬way.Reaches behaviour checks manager wasm disk) : ∃ failure,
    way.run behaviour checks manager wasm disk = (.error failure, disk) := by
  cases checked : verify checks manager.trusted wasm with
  | error reason =>
    refine ⟨.verify reason, ?_⟩
    cases way with
    | install => simp [run, Pkg.install, checked]
    | update => simp [run, Pkg.update, checked]
  | ok =>
    by_cases noName : moduleName wasm = []
    · refine ⟨.noName, ?_⟩
      cases way with
      | install => simp [run, Pkg.install, checked, noName]
      | update => simp [run, Pkg.update, checked, noName]
    · cases way with
      | install => exact absurd ⟨⟨checked, noName⟩, fun other => by cases other⟩ stops
      | update =>
        have missing : behaviour.stat.isSome ∨
            disk.files (manager.dst (moduleName wasm)) = none := by
          by_contra present
          rw [not_or, Bool.not_eq_true, Option.isSome_eq_false_iff,
            Option.isNone_iff_eq_none] at present
          exact stops ⟨⟨checked, noName⟩, fun _ => present⟩
        refine ⟨.notInstalled (moduleName wasm), ?_⟩
        simp [run, Pkg.update, checked, if_neg noName, if_pos missing]

theorem run_of_reaches (reaches : way.Reaches behaviour checks manager wasm disk) :
    way.run behaviour checks manager wasm disk =
      ((store behaviour (manager.dst (moduleName wasm)) wasm disk).1.map fun _ => moduleName wasm,
        (store behaviour (manager.dst (moduleName wasm)) wasm disk).2) := by
  obtain ⟨⟨checked, named⟩, installed⟩ := reaches
  cases way with
  | install => simp only [run, Pkg.install, checked, if_neg named]
  | update =>
    obtain ⟨works, present⟩ := installed rfl
    have found : ¬(behaviour.stat.isSome ∨ disk.files (manager.dst (moduleName wasm)) = none) := by
      simp [works, present]
    simp [run, Pkg.update, checked, if_neg named, if_neg found]

end Way

/-- What a user may ask of the package manager. -/
inductive Request
  | replace (way : Way) (wasm : Bytes)
  | remove (name : Bytes)

namespace Request

section

variable {E : Type} (behaviour : Behaviour E)
  (checks : PublicKey → Bytes → Bytes → Bool) (manager : Manager)

def perform (disk : Disk) : Request → Disk
  | .replace way wasm => (way.run behaviour checks manager wasm disk).2
  | .remove name => (Pkg.remove behaviour manager name disk).2

/-- The request is about a name: that of an accepted module, or any. -/
def About (name : Bytes) : Request → Prop
  | .replace _ wasm => Accepted checks manager wasm ∧ name = moduleName wasm
  | .remove asked => name = asked

end

variable {E : Type} {behaviour : Behaviour E}
  {checks : PublicKey → Bytes → Bytes → Bool} {manager : Manager}

theorem touched_perform {files : Bytes → Option Bytes} {request : Request} {path : Bytes} (touched :
      path ∈ (request.perform behaviour checks manager ⟨files, []⟩).touched) :
    ∃ name, request.About checks manager name ∧ path = manager.dst name := by
  cases request with
  | replace way wasm =>
    rw [perform] at touched
    by_cases reaches : way.Reaches behaviour checks manager wasm ⟨files, []⟩
    · obtain ⟨count, trace⟩ := store_touched behaviour
        (manager.dst (moduleName wasm)) wasm ⟨files, []⟩
      rw [Way.run_of_reaches reaches, trace] at touched
      exact ⟨moduleName wasm, ⟨reaches.1, rfl⟩, eq_of_mem_replicate touched⟩
    · obtain ⟨failure, unchanged⟩ := Way.run_of_not_reaches reaches
      rw [unchanged] at touched
      cases touched
  | remove name =>
    refine ⟨name, rfl, ?_⟩
    rw [perform, Pkg.remove] at touched
    split at touched
    · exact mem_singleton.mp touched
    · exact mem_singleton.mp touched

def willing (E : Type) : Behaviour E where
  stat := none
  create := .done
  write := fun _ => .taken 1
  delete := none

/-- With a willing file system a request does change the file of its name. -/
theorem dst_mem_touched {request : Request} {name : Bytes}
    (about : request.About checks manager name) :
    manager.dst name ∈ (request.perform (willing E) checks manager
      ⟨fun _ => some [], []⟩).touched := by
  cases request with
  | replace way wasm =>
    obtain ⟨accepted, rfl⟩ := about
    have reaches : way.Reaches (willing E) checks manager wasm ⟨fun _ => some [], []⟩ :=
      ⟨accepted, fun _ => ⟨rfl, Option.some_ne_none []⟩⟩
    obtain ⟨count, trace⟩ := store_touched (willing E)
      (manager.dst (moduleName wasm)) wasm ⟨fun _ => some [], []⟩
    rw [perform, Way.run_of_reaches reaches, trace]
    simp
  | remove asked =>
    cases about
    exact mem_singleton.mpr rfl

/--
The requests about a name change only files directly inside the modules
directory exactly when the directory part of the name leads back to it.
-/
theorem confined_iff (E : Type) (checks : PublicKey → Bytes → Bytes → Bool) (manager : Manager)
    (request : Request) : (∀ (behaviour : Behaviour E) (files : Bytes → Option Bytes), ∀ path ∈
          (request.perform behaviour checks manager ⟨files, []⟩).touched,
        Confined manager.modulesDir path) ↔ ∀ name, request.About checks manager name →
        landing manager.modulesDir name = dirParts manager.modulesDir := by
  constructor
  · intro confined name about
    rw [← manager.confined_dst_iff name]
    exact confined (willing E) (fun _ => some []) _ (dst_mem_touched about)
  · intro leadsBack behaviour files path touched
    obtain ⟨name, about, rfl⟩ := touched_perform touched
    rw [manager.confined_dst_iff]
    exact leadsBack name about

def shellManager : Manager where
  trusted := [⟨replicate 32 0, by decide⟩]
  modulesDir := ascii "/boot/modules"
  rooted := by decide

def climbingModule : Bytes :=
  wasmMagic ++ [1, 0, 0, 0] ++ [0, 9, 7] ++ abiVerName ++ [2] ++
    [0, 16, 11] ++ moduleNameName ++ ascii "../m" ++ oneByteSig

/-- Installing that module writes a file beside the modules directory. -/
theorem install_climbs : ascii "/boot/m.wasm" ∈
      ((Request.replace .install climbingModule).perform (willing Unit)
        (fun _ _ _ => true) shellManager ⟨fun _ => none, []⟩).touched ∧
    ¬Confined shellManager.modulesDir (ascii "/boot/m.wasm") := by
  have target : shellManager.dst (moduleName climbingModule) = ascii "/boot/m.wasm" := by decide
  constructor
  · decide +kernel
  · rw [← target, Manager.confined_dst_iff]
    decide

end Request

/-! ## What a failed request leaves -/

/--
The writes from a call on stop short of the whole length, with so many bytes
in the file.
-/
inductive Stops {E : Type} (behaviour : Behaviour E) (length : Nat) : Nat → Nat → Nat → Prop
  | failed {call written landed : Nat} {cause : E} (short : written < length)
    (answer : behaviour.write call = .failed landed cause) :
    Stops behaviour length call written (written + min landed (length - written))
  | stuck {call written : Nat} (short : written < length)
    (answer : behaviour.write call = .taken 0) :
    Stops behaviour length call written written
  | later {call written count stop : Nat} (short : written < length)
    (answer : behaviour.write call = .taken count) (progress : count ≠ 0)
    (rest : Stops behaviour length (call + 1) (written + min count (length - written)) stop) :
    Stops behaviour length call written stop

namespace Stops

variable {E : Type} {behaviour : Behaviour E} {length call written : Nat}

theorem iff_step (short : written < length) (stop : Nat) :
    Stops behaviour length call written stop ↔
      match behaviour.write call with
      | .failed landed _ => stop = written + min landed (length - written)
      | .taken count =>
        if count = 0 then stop = written
        else Stops behaviour length (call + 1) (written + min count (length - written)) stop := by
  constructor
  · intro stops
    cases stops with
    | failed _ answer | stuck _ answer => simp [answer]
    | later _ answer progress rest => simpa [answer, progress] using rest
  · intro reached
    split at reached
    next landed cause answer =>
      subst reached
      exact .failed short answer
    next count answer =>
      split at reached
      next stuck =>
        subst stuck reached
        exact .stuck short answer
      next progress => exact .later short answer progress reached

theorem not_of_whole (whole : ¬written < length) (stop : Nat) :
    ¬Stops behaviour length call written stop := by
  intro stops
  cases stops with
  | failed short | stuck short | later short => exact whole short

end Stops

theorem Disk.files_land_self (disk : Disk) (path : Bytes) (offset : Nat) (data : Bytes) :
    (disk.land path offset data).files path =
      some (overwrite ((disk.files path).getD []) offset data) := by
  simp [Disk.land]

theorem Disk.files_land_behind (disk : Disk) {wasm : Bytes} {written : Nat}
    (inside : written ≤ wasm.length) (content : disk.files dst = some (wasm.take written))
    (count : Nat) : (disk.land dst written ((wasm.drop written).take count)).files dst =
      some (wasm.take (written + min count (wasm.length - written))) := by
  have length : (wasm.take written).length = written := by
    rw [length_take]
    omega
  have clipped : (wasm.drop written).take count =
      (wasm.drop written).take (min count (wasm.length - written)) := by
    rw [← length_drop, take_eq_take_min]
  have tail : (wasm.take written).drop
      (written + ((wasm.drop written).take count).length) = [] := by
    rw [drop_eq_nil_iff]
    omega
  have head : (wasm.take written).take written = wasm.take written := take_of_length_le length.le
  rw [disk.files_land_self, content, Option.getD_some, overwrite, head, length, Nat.sub_self,
    replicate_zero, append_nil, tail, append_nil, clipped, take_add]

/--
How a sequence of writes ends: with the whole module in the file, or with an
error and the bytes in the file where the writes stop.
-/
def WritesEnd {E : Type} (dst wasm : Bytes) (Stop : Nat → Prop)
    (outcome : Except (PkgError E) Unit × Disk) :
    Prop :=
  (outcome.1 = .ok () ∧ ∀ stop, ¬Stop stop) ∨ ∃ failure stop, outcome.1 = .error failure ∧
    outcome.2.files dst = some (wasm.take stop) ∧
    ∀ other, Stop other ↔ other = stop

theorem writeLoop_ends {E : Type} {behaviour : Behaviour E} {wasm : Bytes} {fuel written : Nat}
    (call : Nat) {disk : Disk} (enough : wasm.length - written ≤ fuel)
    (inside : written ≤ wasm.length) (content : disk.files dst = some (wasm.take written)) :
    WritesEnd dst wasm (Stops behaviour wasm.length call written)
      (writeLoop behaviour dst wasm fuel written call disk) := by
  induction fuel generalizing written call disk with
  | zero => exact .inl ⟨rfl, Stops.not_of_whole (by omega)⟩
  | succ fuel hypothesis =>
    unfold writeLoop
    split
    next short =>
      have step : Stops behaviour wasm.length call written = _ :=
        funext fun stop => propext (Stops.iff_step short stop)
      rw [step]
      cases behaviour.write call with
      | failed landed cause =>
        exact .inr ⟨_, _, rfl, (disk.touch dst).files_land_behind inside content landed,
          fun _ => Iff.rfl⟩
      | taken count =>
        dsimp only
        split
        · exact .inr ⟨_, _, rfl, content, fun _ => Iff.rfl⟩
        · exact hypothesis (call + 1) (by omega) (by omega)
            ((disk.touch dst).files_land_behind inside content count)
    next whole => exact .inl ⟨rfl, Stops.not_of_whole whole⟩

/--
The behaviour spares the old bytes: whenever creation fails with the file
truncated, or the writes stop, the old bytes stand in the file.
-/
def Spares {E : Type} (behaviour : Behaviour E) (wasm old : Bytes) : Prop :=
  match behaviour.create with
  | .failed truncated _ => truncated = true → old = []
  | .done => ∀ stop, Stops behaviour wasm.length 0 0 stop → wasm.take stop = old

/-- Storing a module keeps the old one if it fails, in the spared cases. -/
theorem store_keeps_iff {E : Type} {behaviour : Behaviour E} {wasm old : Bytes} {disk : Disk}
    (stored : disk.files dst = some old) :
    ((∃ failure, (store behaviour dst wasm disk).1 = .error failure) →
      (store behaviour dst wasm disk).2.files dst = some old) ↔ Spares behaviour wasm old := by
  unfold store Spares
  split
  next truncated cause _ =>
    cases truncated with
    | false => simpa [Disk.touch] using stored
    | true => simp [Disk.truncate]
  have empty : ((disk.touch dst).truncate dst).files dst = some (wasm.take 0) := by
    simp [Disk.truncate]
  have ends : WritesEnd dst wasm (Stops behaviour wasm.length 0 0)
      (writeLoop behaviour dst wasm wasm.length 0 0 ((disk.touch dst).truncate dst)) :=
    writeLoop_ends 0 (by omega) (by omega) empty
  rcases ends with
    ⟨worked, never⟩ | ⟨failure, stop, failed, content, only⟩
  · simp [worked, never]
  · simp [failed, content, only]

/--
When a request to store a module fails, the module that was stored under the
name keeps its bytes exactly if the request does not get to the file, or the
file system spares the old bytes.
-/
theorem failure_keeps_old_iff {E : Type} (behaviour : Behaviour E)
    (checks : PublicKey → Bytes → Bytes → Bool) (manager : Manager) (way : Way) (wasm old : Bytes)
    (disk : Disk) (stored : disk.files (manager.dst (moduleName wasm)) = some old) :
    ((∃ failure, (way.run behaviour checks manager wasm disk).1 = .error failure) →
      (way.run behaviour checks manager wasm disk).2.files
        (manager.dst (moduleName wasm)) = some old) ↔
      (way.Reaches behaviour checks manager wasm disk → Spares behaviour wasm old) := by
  by_cases reaches : way.Reaches behaviour checks manager wasm disk
  · rw [Way.run_of_reaches reaches, forall_prop_of_true reaches, ← store_keeps_iff stored]
    cases (store behaviour (manager.dst (moduleName wasm)) wasm disk).1 with
    | error | ok => simp [Except.map]
  · obtain ⟨failure, unchanged⟩ := Way.run_of_not_reaches reaches
    simp [unchanged, stored, reaches]

def failing : Behaviour Unit where
  stat := none
  create := .done
  write := fun _ => .failed 0 ()
  delete := none

def oneByteDisk : Disk := ⟨fun _ => some [7], []⟩

/-- An update whose first write fails leaves an empty file. -/
theorem update_loses_old : ¬((∃ failure,
      (Way.update.run failing (fun _ _ _ => true) Request.shellManager
        (unsignedModule ++ oneByteSig) oneByteDisk).1 = .error failure) →
    (Way.update.run failing (fun _ _ _ => true) Request.shellManager
        (unsignedModule ++ oneByteSig) oneByteDisk).2.files
      (Request.shellManager.dst (moduleName (unsignedModule ++ oneByteSig))) = some [7]) := by
  intro keeps
  exact absurd (keeps ⟨_, rfl⟩) (by decide +kernel)

def refusing : Behaviour Unit where
  stat := none
  create := .failed false ()
  write := fun _ => .taken 1
  delete := none

theorem failure_keeps_old_iff_refusing : ((∃ failure,
      (Way.update.run refusing (fun _ _ _ => true) Request.shellManager
        (unsignedModule ++ oneByteSig) oneByteDisk).1 = .error failure) →
    (Way.update.run refusing (fun _ _ _ => true) Request.shellManager
        (unsignedModule ++ oneByteSig) oneByteDisk).2.files
      (Request.shellManager.dst (moduleName (unsignedModule ++ oneByteSig))) = some [7]) ↔
    (Way.update.Reaches refusing (fun _ _ _ => true) Request.shellManager
        (unsignedModule ++ oneByteSig) oneByteDisk →
      Spares refusing (unsignedModule ++ oneByteSig) [7]) :=
  failure_keeps_old_iff refusing (fun _ _ _ => true) Request.shellManager
    .update (unsignedModule ++ oneByteSig) [7] oneByteDisk rfl

end KernelLane.Pkg
