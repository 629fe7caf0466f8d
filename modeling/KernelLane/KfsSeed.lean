import KernelLane.HostPaths
import KernelLane.KfsFormatter

namespace KernelLane.Kfs

open Function Formatter UInt64

/-!
# Seeding a volume from a host directory

`seedKFS` formats a volume and walks a host directory.  It keeps a map from
volume paths to the inode numbers of the directories it has made, and makes a
missing directory on the way to an entry.  Whatever it does ends in a
sequence of appended records, so each of its functions is described below by
the records that it appends.
-/

/-- The state of the walk. -/
structure Seeder where
  f : Formatter
  mkdirs : Bytes → Option UInt32

def chunk : Nat := 32 * 1024

def Formatter.appendChunks (ino : UInt32) (data : Bytes) :
    Nat → Nat → Formatter → Except FsError Formatter
  | 0, _, f => .ok f
  | fuel + 1, off, f =>
    if off < data.length ∨ data.length = 0 ∧ off = 0 then do
      let next ← f.appendData ino (ofNat off) ((data.drop off).take chunk)
      appendChunks ino data fuel (off + chunk) next
    else .ok f

namespace Seeder

/-- The component loop of `parentOf`. -/
def resolveParts (s : Seeder) (cur : UInt32) (acc : Bytes) :
    List Bytes → Except FsError (UInt32 × Seeder)
  | [] => .ok (cur, s)
  | part :: rest =>
    let here := pathJoin acc part
    match s.mkdirs here with
    | some ino => resolveParts s ino here rest
    | none => do
      let (ino, f) ← s.f.appendInode 0 kindDir 0
      let f ← f.appendDirent cur part ino
      resolveParts ⟨f, update s.mkdirs here (some ino)⟩ ino here rest

def parentOf (s : Seeder) (path : Bytes) : Except FsError (UInt32 × Seeder) :=
  if slash :: trim path = [slash] then .ok (rootIno, s)
  else s.resolveParts rootIno [] ((trim path).splitOn slash)

def childPath (rel name : Bytes) : Bytes :=
  if rel = [] then name else rel ++ slash :: name

/-- Copy the entries of a host directory, each before those below it. -/
def walk (above : Bytes) : Bytes → Listing → Seeder → Except FsError Seeder
  | _, .nil, s => .ok s
  | rel, .file name data rest, s => do
    let volPath := pathJoin above (childPath rel name)
    let (parent, s) ← s.parentOf (dirOf volPath)
    let (ino, f) ← s.f.appendInode 0 kindFile (UInt32.ofNat data.length)
    let f ← f.appendChunks ino data (data.length + 1) 0
    let f ← f.appendDirent parent (base volPath) ino
    walk above rel rest ⟨f, s.mkdirs⟩
  | rel, .dir name contents rest, s => do
    let child := childPath rel name
    let volPath := pathJoin above child
    let (parent, s) ← s.parentOf (dirOf volPath)
    let (ino, f) ← s.f.appendInode 0 kindDir 0
    let f ← f.appendDirent parent (base volPath) ino
    let s ← walk above child contents ⟨f, update s.mkdirs volPath (some ino)⟩
    walk above rel rest s

end Seeder

def rootDirs : Bytes → Option UInt32 := update (fun _ => none) [slash] (some rootIno)

def seedTree (above : Bytes) (host : HostTree) (f : Formatter) : Except FsError Seeder := do
  let (_, s) ← Seeder.parentOf ⟨f, rootDirs⟩ above
  s.walk above [] host.listing

def seedKFS (vol : BlockDev) (above : Bytes) (host : HostTree) : Except FsError BlockDev := do
  let device ← format vol
  let f ← newFormatter device
  let s ← seedTree above host f
  let f ← s.f.appendCheckpoint
  return f.dev

/-! ## Runs as sequences of appends -/

/--
A run of the image builder appends these records, from this inode counter on,
and returns this function of the writer.
-/
def Lays {Result : Type} (run : Formatter → Except FsError Result) (counter : UInt32)
    (puts : List Put)
    (result : Formatter → Result) : Prop :=
  ∀ f, f.nextIno = counter → run f = (f.putAll puts).map result

def bumps (puts : List Put) : UInt32 := (puts.map Put.bump).sum

namespace Lays

variable {Result Next : Type} {counter : UInt32} {puts later : List Put}

theorem pure (counter : UInt32) (result : Formatter → Result) :
    Lays (fun f => .ok (result f)) counter [] result := by
  intro f _
  rfl

variable {run : Formatter → Except FsError Result} {next : Result → Except FsError Next}
  {middle : Formatter → Result} {result : Formatter → Next}

theorem bind (first : Lays run counter puts middle)
    (second : Lays (fun f => next (middle f)) (counter + bumps puts) later result) :
    Lays (fun f => run f >>= next) counter (puts ++ later) result := by
  intro f start
  dsimp only
  rw [first f start, putAll_append]
  cases appended : f.putAll puts with
  | error failure => rfl
  | ok between =>
    have counted := putAll_nextIno appended
    rw [start] at counted
    exact second between counted

theorem andThen (first : Lays run counter puts middle) (quiet : bumps puts = 0)
    (second : Lays (fun f => next (middle f)) counter later result) :
    Lays (fun f => run f >>= next) counter (puts ++ later) result := by
  refine first.bind ?_
  rwa [quiet, UInt32.add_zero]

theorem appendInode (counter uid : UInt32) (kind : UInt8) (size : UInt32) :
    Lays (fun f => f.appendInode uid kind size) counter
      [.inode ⟨counter, uid, kind, size⟩] (fun f => (counter, f)) := by
  intro f start
  subst start
  simp only [Formatter.appendInode, Formatter.putAll, Formatter.put, Put.record]
  cases f.append (inodeRecord ⟨f.nextIno, uid, kind, size⟩) with
  | error | ok => rfl

theorem append (counter : UInt32) (put : Put) (quiet : put.bump = 0) :
    Lays (fun f => f.append put.record) counter [put] id := by
  intro f _
  simp only [Formatter.putAll, Formatter.put, quiet, UInt32.add_zero]
  cases f.append put.record with
  | error | ok => rfl

theorem appendDirent (counter parent : UInt32) (name : Bytes) (ino : UInt32) :
    Lays (fun f => f.appendDirent parent name ino) counter [.dirent parent name ino] id :=
  Lays.append counter (.dirent parent name ino) rfl

theorem appendData (counter ino : UInt32) {off : UInt64} (data : Bytes)
    (notSentinel : off ≠ truncSent) :
    Lays (fun f => f.appendData ino off data) counter [.data ino off data] id := by
  have laid := Lays.append counter (.data ino off data) rfl
  intro f start
  rw [← laid f start]
  exact if_neg notSentinel

end Lays

def chunkPuts (ino : UInt32) (data : Bytes) : Nat → Nat → List Put
  | 0, _ => []
  | fuel + 1, off =>
    if off < data.length ∨ data.length = 0 ∧ off = 0 then
      .data ino (ofNat off) ((data.drop off).take chunk) ::
        chunkPuts ino data fuel (off + chunk)
    else []

theorem chunk_ne_truncSent {off : Nat} (aligned : off % chunk = 0) :
    ofNat off ≠ truncSent := by
  intro same
  have numbers := congrArg toNat same
  rw [toNat_ofNat'] at numbers
  have mark : truncSent.toNat = 2 ^ 64 - 1 := by decide
  rw [mark] at numbers
  simp only [chunk] at aligned
  omega

theorem bumps_chunkPuts (ino : UInt32) (data : Bytes) (fuel off : Nat) :
    bumps (chunkPuts ino data fuel off) = 0 := by
  induction fuel generalizing off with
  | zero => rfl
  | succ fuel hypothesis =>
    unfold chunkPuts
    split
    · exact (UInt32.zero_add _).trans (hypothesis _)
    · rfl

theorem Lays.appendChunks (counter ino : UInt32) (data : Bytes) (fuel : Nat) {off : Nat}
    (aligned : off % chunk = 0) :
    Lays (appendChunks ino data fuel off) counter (chunkPuts ino data fuel off) id := by
  induction fuel generalizing off with
  | zero => exact Lays.pure counter id
  | succ fuel hypothesis =>
    unfold chunkPuts
    have nextAligned : (off + chunk) % chunk = 0 := by
      rw [Nat.add_mod_right]
      exact aligned
    split
    next more =>
      have first :=
        Lays.appendData counter ino ((data.drop off).take chunk) (chunk_ne_truncSent aligned)
      have whole := first.andThen rfl (hypothesis nextAligned)
      intro f start
      rw [← List.singleton_append, ← whole f start]
      exact if_pos more
    next done =>
      intro f start
      exact if_neg done

end KernelLane.Kfs
