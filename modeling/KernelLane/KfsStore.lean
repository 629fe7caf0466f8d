import KernelLane.BlockDevice
import KernelLane.Effects
import KernelLane.FsPaths
import KernelLane.GuestFrame
import KernelLane.LogScan

namespace KernelLane.Kfs

open GuestFrame Function

/-!
# The KFS1 store

The log of a volume is a byte stream of framed records: a 32-bit payload
length, the CRC-32 of the payload, a type byte, and the payload.  The store
keeps a tree of inodes and directory entries in memory and appends a record
for every change; mounting replays the log from its start.  The tree is a
structure of its own because replay rebuilds exactly that part.

Go maps are total functions here: a missing inode is `none`, and a missing
child list or data buffer is the empty list, which is how every reader of
those maps treats it.  `int` and `int64` are 64 bits wide.
-/

/-! ## The record format -/

def crcBit (crc : Nat) : Nat :=
  if crc % 2 = 1 then (crc / 2) ^^^ 0xEDB88320 else crc / 2

def crcByte (crc : Nat) (byte : UInt8) : Nat := crcBit^[8] (crc ^^^ byte.toNat)

def checksumIEEE (bytes : Bytes) : UInt32 :=
  UInt32.ofNat (bytes.foldl crcByte 0xFFFFFFFF ^^^ 0xFFFFFFFF)

example : checksumIEEE [49, 50, 51, 52, 53, 54, 55, 56, 57] = 0xCBF43926 := by decide +kernel

def recInode : UInt8 := 1

def recDirent : UInt8 := 2

def recData : UInt8 := 3

def recCheckpoint : UInt8 := 4

def hdrLen : Nat := 9

def cpEvery : Nat := 64

def truncSent : UInt64 := 0xFFFFFFFFFFFFFFFF

def rootIno : UInt32 := 1

def kindFile : UInt8 := 0

def kindDir : UInt8 := 1

def maxPayload : Nat := 65536

def sectorSize : Nat := 512

def logStart : Nat := 512

/-- One inode as the log and the live tree record it. -/
structure Inode where
  ino : UInt32
  uid : UInt32
  kind : UInt8
  size : UInt32
  deriving Repr, DecidableEq

/-- A record of the log, before framing. -/
structure Record where
  type : UInt8
  payload : Bytes
  deriving Repr, DecidableEq

def Record.frame (record : Record) : Bytes :=
  put32 (UInt32.ofNat record.payload.length) ++ (put32 (checksumIEEE record.payload) ++
    ([record.type] ++ record.payload))

def Record.size (record : Record) : Nat := hdrLen + record.payload.length

@[simp] theorem Record.length_frame (record : Record) : record.frame.length = record.size := by
  simp [Record.frame, Record.size, hdrLen]
  omega

def inodePayload (node : Inode) : Bytes :=
  put32 node.ino ++ (put32 node.uid ++ ([node.kind] ++ put32 node.size))

def direntPayload (parent : UInt32) (name : Bytes) (ino : UInt32) : Bytes :=
  put32 parent ++ ([0] ++ (appendLStr name ++ put32 ino))

def direntDeletePayload (parent : UInt32) (name : Bytes) : Bytes :=
  put32 parent ++ ([1] ++ appendLStr name)

def dataPayload (ino : UInt32) (offset : UInt64) (data : Bytes) : Bytes :=
  put32 ino ++ (put64 offset ++ (put32 (UInt32.ofNat data.length) ++ data))

def truncatePayload (ino : UInt32) : Bytes := put32 ino ++ (put64 truncSent ++ put32 0)

def checkpointPayload (nextIno : UInt32) : Bytes := put32 nextIno

def inodeRecord (node : Inode) : Record := ⟨recInode, inodePayload node⟩

def direntRecord (parent : UInt32) (name : Bytes) (ino : UInt32) : Record :=
  ⟨recDirent, direntPayload parent name ino⟩

def direntDeleteRecord (parent : UInt32) (name : Bytes) : Record :=
  ⟨recDirent, direntDeletePayload parent name⟩

def dataRecord (ino : UInt32) (offset : UInt64) (data : Bytes) : Record :=
  ⟨recData, dataPayload ino offset data⟩

def truncateRecord (ino : UInt32) : Record := ⟨recData, truncatePayload ino⟩

def checkpointRecord (nextIno : UInt32) : Record := ⟨recCheckpoint, checkpointPayload nextIno⟩

/-! ## The store -/

/-- A directory entry; deletion only marks it. -/
structure Dirent where
  parent : UInt32
  name : Bytes
  ino : UInt32
  dead : Bool
  deriving Repr, DecidableEq

/-- The part of the store that replay rebuilds. -/
structure Tree where
  inodes : UInt32 → Option Inode
  children : UInt32 → List Nat
  dirents : List Dirent
  data : UInt32 → Bytes
  nextIno : UInt32

def Tree.empty : Tree :=
  { inodes := fun _ => none
    children := fun _ => []
    dirents := []
    data := fun _ => []
    nextIno := 0 }

/-- A mounted KFS1 volume. -/
structure KFS extends Tree where
  dev : BlockDev
  logData : Bytes
  wOff : Nat
  recs : Nat
  logEnd : Nat

/-- Metadata of one path, as the stores report it. -/
structure StatInfo where
  name : Bytes
  attr : UInt8
  size : UInt32
  cluster : UInt32
  deriving Repr, DecidableEq

def attrDir : UInt8 := 0x10

/-! ## Directory lookups -/

namespace Tree

def findDirent (tree : Tree) (parent : UInt32) (name : Bytes) : Option Nat :=
  (tree.children parent).find? fun index =>
    match tree.dirents[index]? with
    | none => false
    | some entry => !entry.dead && entry.name == name

def direntIno (tree : Tree) (index : Nat) : UInt32 :=
  match tree.dirents[index]? with
  | none => 0
  | some entry => entry.ino

def lookup (tree : Tree) (parent : UInt32) (name : Bytes) : Option UInt32 :=
  (tree.findDirent parent name).map tree.direntIno

def isDir (tree : Tree) (ino : UInt32) : Bool :=
  match tree.inodes ino with
  | none => false
  | some node => node.kind == kindDir

def removeDirent (tree : Tree) (parent : UInt32) (name : Bytes) : Tree :=
  match tree.findDirent parent name with
  | none => tree
  | some index =>
    { tree with
      dirents := tree.dirents.modify index fun entry => { entry with dead := true } }

def addDirent (tree : Tree) (parent : UInt32) (name : Bytes) (ino : UInt32) : Tree :=
  { tree with
    dirents := tree.dirents ++ [⟨parent, name, ino, false⟩]
    children := update tree.children parent (tree.children parent ++ [tree.dirents.length]) }

def liveChildren (tree : Tree) (parent : UInt32) : List Nat :=
  (tree.children parent).filter fun index =>
    match tree.dirents[index]? with
    | none => false
    | some entry => !entry.dead

def walkFrom (tree : Tree) : UInt32 → List Bytes → Option UInt32
  | current, [] => some current
  | current, part :: rest =>
    match tree.lookup current part with
    | none => none
    | some next => walkFrom tree next rest

def walk (tree : Tree) (path : Bytes) : Except FsError (Option UInt32) := do
  let parts ← splitPath path
  return tree.walkFrom rootIno parts

def walkDirs (tree : Tree) : UInt32 → List Bytes → Except FsError UInt32
  | current, [] => .ok current
  | current, part :: rest =>
    match tree.lookup current part with
    | none => .error .noEntry
    | some next =>
      if tree.isDir next then walkDirs tree next rest else .error .notDir

def walkParent (tree : Tree) (path : Bytes) : Except FsError (UInt32 × Bytes) :=
  match splitPath path with
  | .error _ => .error .badName
  | .ok [] => .error .badName
  | .ok (first :: rest) =>
    match tree.walkDirs rootIno (first :: rest).dropLast with
    | .error failure => .error failure
    | .ok parent => .ok (parent, (first :: rest).getLastD [])

/-! ## Applying one replayed record -/

/-- Apply an inode record's payload. -/
def applyInode (tree : Tree) (payload : Bytes) : LogScan.Step Tree :=
  if payload.length < 13 then .rejected
  else
    let ino := get32 payload 0
    let node : Inode := ⟨ino, get32 payload 4, payload.getD 8 0, get32 payload 9⟩
    -- A directory's missing child list becomes an empty one, which is the
    -- value a missing list already has here.
    .applied
      { tree with
        inodes := update tree.inodes ino (some node)
        nextIno := if tree.nextIno ≤ ino then ino + 1 else tree.nextIno }

/-- Apply a directory-entry record's payload. -/
def applyDirent (tree : Tree) (payload : Bytes) : LogScan.Step Tree :=
  if payload.length < 7 then .rejected
  else
    let parent := get32 payload 0
    let op := payload.getD 4 0
    match lStr payload 5 with
    | none => .rejected
    | some (name, next) =>
      if payload.length < next + 4 then .rejected
      else if op = 1 then .applied (tree.removeDirent parent name)
      else .applied (tree.addDirent parent name (get32 payload next))

/--
Apply a data record's payload.  The slice `buf[off:]` panics when the offset
lies beyond the padded buffer, which happens when the end position does not
fit a signed 64-bit integer.
-/
def applyData (tree : Tree) (payload : Bytes) : LogScan.Step Tree :=
  if payload.length < 16 then .rejected
  else
    let ino := get32 payload 0
    let off := get64 payload 4
    let dlen := (get32 payload 12).toNat
    if payload.length < 16 + dlen then .rejected
    else
      let buf := tree.data ino
      if off = truncSent then .applied { tree with data := update tree.data ino [] }
      else
        let stop := (Int.bmod (off.toNat + dlen) (2 ^ 64)).toNat
        let grown := buf ++ List.replicate (stop - buf.length) 0
        if grown.length < off.toNat then .crashed
        else
          let copied :=
            Image.overlay grown off.toNat ((payload.drop 16).take (grown.length - off.toNat))
          .applied { tree with data := update tree.data ino copied }

def applyCheckpoint (tree : Tree) (payload : Bytes) : LogScan.Step Tree :=
  if payload.length < 4 then .applied tree
  else
    let saved := get32 payload 0
    .applied
      { tree with
        nextIno := if tree.nextIno < saved then saved else tree.nextIno }

def apply (tree : Tree) (record : Record) : LogScan.Step Tree :=
  if record.type = recInode then tree.applyInode record.payload
  else if record.type = recDirent then tree.applyDirent record.payload
  else if record.type = recData then tree.applyData record.payload
  else if record.type = recCheckpoint then tree.applyCheckpoint record.payload
  else .rejected

end Tree

/-! ## Log mechanics -/

/-- The read-modify-write loop of `append`, one sector at a time. -/
def spliceSectors : Nat → BlockDev → Nat → Bytes → Option BlockDev
  | _, device, _, [] => some device
  | 0, _, _, _ :: _ => none
  | fuel + 1, device, address, byte :: rest => do
    let pending := byte :: rest
    let off := address % sectorSize
    let take := min (sectorSize - off) pending.length
    let sector ← device.read (address / sectorSize) sectorSize
    let written ← device.write (address / sectorSize) (Image.overlay sector off (pending.take take))
    spliceSectors fuel written (address + take) (pending.drop take)

def writeRaw (device : BlockDev) (start : Nat) (raw : Bytes) : Option BlockDev :=
  if start % sectorSize = 0 ∧ raw.length % sectorSize = 0 then device.write (start / sectorSize) raw
  else spliceSectors raw.length device start raw

/-- The sector loop of `readAt`. -/
def readSectors (device : BlockDev) : Nat → Nat → Nat → Option Bytes
  | _, _, 0 => some []
  | 0, _, _ + 1 => none
  | fuel + 1, address, wanted + 1 => do
    let sector ← device.read (address / sectorSize) sectorSize
    let take := min (sectorSize - address % sectorSize) (wanted + 1)
    let rest ← readSectors device fuel (address + take) (wanted + 1 - take)
    return (sector.drop (address % sectorSize)).take take ++ rest

namespace KFS

def readAt (volume : KFS) (off count : Nat) : Except FsError Bytes :=
  if volume.dev.numBlocks.toNat ≤ off / sectorSize then .error .beyondDevice
  else if off + count ≤ volume.logData.length then .ok ((volume.logData.drop off).take count)
  else
    match readSectors volume.dev count off count with
    | none => .error .device
    | some bytes => .ok bytes

/--
Read the record at a log position.  The result is an error when the device
fails and nothing when the framing is violated or the bound is passed.
-/
def readRecord (volume : KFS) (bound position : Nat) : Except FsError (Option Record) :=
  if bound < position + hdrLen then .ok none
  else
    match volume.readAt position hdrLen with
    | .error failure => .error failure
    | .ok hdr =>
      let plen := (get32 hdr 0).toNat
      let crc := get32 hdr 4
      if maxPayload < plen ∨ bound < position + hdrLen + plen then .ok none
      else
        match volume.readAt (position + hdrLen) plen with
        | .error failure => .error failure
        | .ok payload =>
          if checksumIEEE payload ≠ crc then .ok none
          else .ok (some ⟨hdr.getD 8 0, payload⟩)

def recordAt (volume : KFS) (position : Nat) : Option (Record × Nat) :=
  match volume.readRecord volume.logEnd position with
  | .ok (some record) => some (record, record.size)
  | .ok none => none
  | .error _ => none

/--
Scan the whole log from the cursor, applying valid records in order.  The
result is nothing when applying a record panics.  A record takes at least
`hdrLen` bytes, so the scan makes fewer than `logEnd` steps.
-/
def replay (volume : KFS) : Option KFS :=
  match LogScan.scan volume.recordAt Tree.apply volume.logEnd volume.toTree volume.wOff
  with
  | none => none
  | some (tree, position) => some { volume with toTree := tree, wOff := position }

end KFS

/-! ## Format and mount -/

@[irreducible] def logLimit (numBlocks : UInt64) : Nat :=
  (Int.bmod (numBlocks.toNat * 512) (2 ^ 64)).toNat

def superblock (blockSize : UInt32) (numBlocks : UInt64) : Bytes :=
  [75, 70, 83, 49] ++ (put32 blockSize ++ (put64 numBlocks ++
    (put32 1 ++ (put32 1 ++ List.replicate 488 0))))

def magic : Bytes := [75, 70, 83, 49]

/-- The result of mounting a device. -/
inductive MountOutcome where
  | mounted : KFS → MountOutcome
  | failed : FsError → MountOutcome
  | panicked : MountOutcome

def MountOutcome.ofReplay : Option KFS → MountOutcome
  | none => .panicked
  | some recovered => .mounted recovered

def mountVolume (device : BlockDev) (sb : Bytes) : KFS :=
  { toTree := Tree.empty
    dev := device
    logData := sb
    wOff := logStart
    recs := 0
    logEnd := logLimit device.numBlocks }

def mountKFS (device : BlockDev) : MountOutcome :=
  match device.read 0 512 with
  | none => .failed .device
  | some sb =>
    if sb.take 4 ≠ magic ∨ get32 sb 4 ≠ device.geometry.1 then .failed .kfsBadSB
    else if get32 sb 16 ≠ UInt32.ofNat (logStart / 512) then .failed .kfsBadSB
    else .ofReplay (mountVolume device sb).replay

/-! ## Store operations -/

/-- A store operation; it may fail after part of its work is done. -/
abbrev Action (α : Type) := Effect KFS FsError α

namespace KFS

open Effect

def writeRecord (record : Record) : Action Unit := fun volume =>
  if volume.logEnd < volume.wOff + record.size then (.error .noSpace, volume)
  else
    match writeRaw volume.dev volume.wOff record.frame with
    | none => (.error .device, volume)
    | some device =>
      (.ok (), { volume with dev := device, wOff := volume.wOff + record.size })

def appendCheckpoint : Action Unit := fun volume =>
  writeRecord (checkpointRecord volume.nextIno) volume

def append (record : Record) : Action Unit := do
  writeRecord record
  change fun volume => { volume with recs := volume.recs + 1 }
  let volume ← look
  if volume.recs % cpEvery = 0 then appendCheckpoint

def allocIno : Action UInt32 := fun volume =>
  (.ok volume.nextIno, { volume with nextIno := volume.nextIno + 1 })

def appendDirent (parent : UInt32) (name : Bytes) (ino : UInt32) : Action Unit := do
  append (direntRecord parent name ino)
  change fun volume => { volume with toTree := volume.toTree.addDirent parent name ino }

def appendDirentDelete (parent : UInt32) (name : Bytes) : Action Unit := do
  append (direntDeleteRecord parent name)
  change fun volume => { volume with toTree := volume.toTree.removeDirent parent name }

def appendData (ino : UInt32) (off : UInt64) (data : Bytes) : Action Unit :=
  append (dataRecord ino off data)

def setInode (ino : UInt32) (node : Inode) : Action Unit :=
  change fun volume => { volume with inodes := update volume.inodes ino (some node) }

def setData (ino : UInt32) (bytes : Bytes) : Action Unit :=
  change fun volume => { volume with data := update volume.data ino bytes }

def truncate (ino : UInt32) : Action Unit := do
  append (truncateRecord ino)
  let volume ← look
  match volume.inodes ino with
  | none => pure ()
  | some node =>
    if node.size ≠ 0 then
      append (inodeRecord ⟨ino, node.uid, node.kind, 0⟩)
      setInode ino { node with size := 0 }
  setData ino []

def create (path : Bytes) : Action Unit := do
  let volume ← look
  let (parent, leaf) ← ofExcept (volume.walkParent path)
  match volume.lookup parent leaf with
  | some ino =>
    if volume.isDir ino then fail .isDir else truncate ino
  | none =>
    let ino ← allocIno
    append (inodeRecord ⟨ino, 0, kindFile, 0⟩)
    appendDirent parent leaf ino
    setInode ino ⟨ino, 0, kindFile, 0⟩
    setData ino []

/-- Create a directory whose parent exists. -/
def mkdir (path : Bytes) : Action Unit := do
  let volume ← look
  let (parent, leaf) ← ofExcept (volume.walkParent path)
  match volume.lookup parent leaf with
  | some _ => fail .exists
  | none =>
    let ino ← allocIno
    append (inodeRecord ⟨ino, 0, kindDir, 0⟩)
    appendDirent parent leaf ino
    setInode ino ⟨ino, 0, kindDir, 0⟩
    change fun volume => { volume with children := update volume.children ino [] }

def delete (path : Bytes) : Action Unit := do
  let volume ← look
  let (parent, leaf) ← ofExcept (volume.walkParent path)
  match volume.lookup parent leaf with
  | none => fail .noEntry
  | some ino =>
    if volume.isDir ino ∧ volume.liveChildren ino ≠ [] then fail .notEmpt
    else
      appendDirentDelete parent leaf
      setData ino []

def grownSize (size : UInt32) (off : UInt64) (count : Nat) : UInt32 :=
  let end64 := off + UInt64.ofNat count
  if size.toUInt64 < end64 then end64.toUInt32 else size

/-- Write bytes at an offset, growing the file as needed. -/
def writeFile (path : Bytes) (off : UInt64) (data : Bytes) : Action Unit := do
  let volume ← look
  let (parent, leaf) ← ofExcept (volume.walkParent path)
  match volume.lookup parent leaf with
  | none => fail .noEntry
  | some ino =>
    match volume.inodes ino with
    | none => fail .isDir
    | some node =>
      if node.kind = kindDir then fail .isDir
      else
        appendData ino off data
        let newSize := grownSize node.size off data.length
        if newSize ≠ node.size then
          append (inodeRecord ⟨ino, node.uid, node.kind, newSize⟩)
          setInode ino { node with size := newSize }
        setData ino []

def setUID (path : Bytes) (uid : UInt32) : Action Unit := do
  let volume ← look
  let (parent, leaf) ← ofExcept (volume.walkParent path)
  match volume.lookup parent leaf with
  | none => fail .noEntry
  | some ino =>
    match volume.inodes ino with
    | none => fail .noEntry
    | some node =>
      append (inodeRecord ⟨node.ino, uid, node.kind, node.size⟩)
      setInode ino { node with uid := uid }

/-! ### Queries -/

def uid (volume : KFS) (path : Bytes) : Except FsError UInt32 := do
  let (parent, leaf) ← volume.walkParent path
  match (volume.lookup parent leaf).bind volume.inodes with
  | none => .error .noEntry
  | some node => .ok node.uid

def statOf (volume : KFS) (name : Bytes) (ino : UInt32) : StatInfo :=
  match volume.inodes ino with
  | none => ⟨name, 0, 0, ino⟩
  | some node => ⟨name, if node.kind = kindDir then attrDir else 0, node.size, ino⟩

def stat (volume : KFS) (path : Bytes) : Except FsError StatInfo := do
  if path = [slash] then return ⟨[], attrDir, 0, 0⟩
  let parts ← splitPath path
  let (parent, leaf) ← volume.walkParent path
  match volume.lookup parent leaf with
  | none => .error .noEntry
  | some ino =>
    if (volume.inodes ino).isNone ∧ parts ≠ [] then .error .noEntry
    else .ok (volume.statOf leaf ino)

def entries (volume : KFS) (parent : UInt32) : List StatInfo :=
  (volume.children parent).filterMap fun index =>
    match volume.dirents[index]? with
    | none => none
    | some entry =>
      if entry.dead then none
      else some (volume.statOf entry.name entry.ino)

def list (volume : KFS) (path : Bytes) : Except FsError (List StatInfo) := do
  if path = [slash] then return volume.entries rootIno
  match ← volume.walk path with
  | none => .error .noEntry
  | some ino =>
    if volume.isDir ino then .ok (volume.entries ino)
    else .error .notDir

/--
One step of `replayData`: the part of a data record that falls into the
requested range lands in the output.
-/
def copySegment (ino : UInt32) (off : Nat) (out : Bytes) (record : Record) : Bytes :=
  let payload := record.payload
  if record.type ≠ recData ∨ payload.length < 16 ∨ get32 payload 0 ≠ ino then out
  else
    let doff := get64 payload 4
    let dlen := (get32 payload 12).toNat
    if doff = truncSent then List.replicate out.length 0
    else if payload.length < 16 + dlen then out
    else
      let segStart : Int := Int.bmod doff.toNat (2 ^ 64)
      let segEnd : Int := Int.bmod (segStart + dlen) (2 ^ 64)
      let reqStart : Int := off
      let reqEnd : Int := off + out.length
      if reqEnd ≤ segStart ∨ segEnd ≤ reqStart then out
      else
        let ovStart := max segStart reqStart
        let ovEnd := min segEnd reqEnd
        Image.overlay out (ovStart - reqStart).toNat
          ((payload.drop (16 + (ovStart - segStart).toNat)).take (ovEnd - ovStart).toNat)

def replayDataFrom (volume : KFS) (ino : UInt32) (off : Nat) :
    Nat → Nat → Bytes → Except FsError Bytes
  | 0, _, out => .ok out
  | fuel + 1, position, out =>
    match volume.readRecord volume.wOff position with
    | .error failure => .error failure
    | .ok none => .ok out
    | .ok (some record) =>
      replayDataFrom volume ino off fuel (position + record.size) (copySegment ino off out record)

def replayData (volume : KFS) (ino : UInt32) (off want : Nat) : Except FsError Bytes :=
  volume.replayDataFrom ino off volume.wOff logStart (List.replicate want 0)

/-- The end of `readFile`, once the file's inode number is known. -/
def readInode (ino : UInt32) (off : UInt64) (count : Nat) : Action Bytes := do
  let volume ← look
  let size := ((volume.inodes ino).elim 0 Inode.size).toNat
  if size ≤ off.toNat then return []
  else
    let want := min (size - off.toNat) count
    let cached := volume.data ino
    if size ≤ cached.length then return (cached.drop off.toNat).take want
    else
      let replayed ← ofExcept (volume.replayData ino 0 size)
      setData ino replayed
      return (replayed.drop off.toNat).take want

def readFile (path : Bytes) (off : UInt64) (count : Nat) : Action Bytes := do
  if count = 0 then return []
  else
    let volume ← look
    let (parent, leaf) ← ofExcept (volume.walkParent path)
    match volume.lookup parent leaf with
    | none => fail .noEntry
    | some ino =>
      if volume.isDir ino then fail .isDir
      else readInode ino off count

end KFS

def formatVolume (device : BlockDev) : KFS :=
  { toTree := { Tree.empty with nextIno := rootIno + 1 }
    dev := device
    logData := []
    wOff := logStart
    recs := 0
    logEnd := logLimit device.numBlocks }

def formatLog : Action Unit := do
  KFS.append (inodeRecord ⟨rootIno, 0, kindDir, 0⟩)
  KFS.appendCheckpoint

def formatResult : Except FsError Unit × KFS → Except FsError BlockDev
  | (.error failure, _) => .error failure
  | (.ok _, volume) => .ok volume.dev

def formatKFS (device : BlockDev) : Except FsError BlockDev :=
  if device.geometry.1 ≠ 512 ∨ device.geometry.2 < 16 then .error .kfsBadSB
  else
    match device.write 0 (superblock 512 device.geometry.2) with
    | none => .error .device
    | some started => formatResult (formatLog (formatVolume started))

end KernelLane.Kfs
