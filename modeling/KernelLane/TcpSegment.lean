import KernelLane.Words

namespace KernelLane.Tcp

open Words List

/-!
# TCP segments

A segment is a twenty-byte header without options and a payload; fields are
big-endian.  Sequence numbers live on a circle of 32 bits and are compared by
the sign of their difference.
-/

/-! ## Big-endian fields -/

def bePut16 (value : UInt16) : Bytes := putBE 2 value.toNat
def bePut32 (value : UInt32) : Bytes := putBE 4 value.toNat

def beGet16 (bytes : Bytes) (offset : Nat) : UInt16 :=
  UInt16.ofNat (getBE ((bytes.drop offset).take 2))

def beGet32 (bytes : Bytes) (offset : Nat) : UInt32 :=
  UInt32.ofNat (getBE ((bytes.drop offset).take 4))

variable {offset : Nat}

theorem take_drop_field {leading field rest : Bytes} {width : Nat}
    (start : leading.length = offset) (size : field.length = width) :
    ((leading ++ (field ++ rest)).drop offset).take width = field := by
  rw [drop_left' start, take_left' size]

theorem beGet16_bePut16 (leading : Bytes) (start : leading.length = offset) (value : UInt16)
    (rest : Bytes) : beGet16 (leading ++ (bePut16 value ++ rest)) offset = value := by
  have bound := value.toNat_lt
  rw [beGet16, bePut16, take_drop_field start (length_putBE 2 _),
    getBE_putBE, Nat.mod_eq_of_lt (by omega), UInt16.ofNat_toNat]

theorem beGet32_bePut32 (leading : Bytes) (start : leading.length = offset) (value : UInt32)
    (rest : Bytes) : beGet32 (leading ++ (bePut32 value ++ rest)) offset = value := by
  have bound := value.toNat_lt
  rw [beGet32, bePut32, take_drop_field start (length_putBE 4 _),
    getBE_putBE, Nat.mod_eq_of_lt (by omega), UInt32.ofNat_toNat]

/-! ## Segments -/

def tcpHdrLen : Nat := 20

def tcpFin : UInt8 := (1 : UInt8) <<< 0
def tcpSyn : UInt8 := (1 : UInt8) <<< 1
def tcpRst : UInt8 := (1 : UInt8) <<< 2
def tcpPsh : UInt8 := (1 : UInt8) <<< 3
def tcpAck : UInt8 := (1 : UInt8) <<< 4

def flagBits : UInt8 := 0x1f

/-- One segment. -/
structure TCPSegment where
  srcPort : UInt16
  dstPort : UInt16
  seq : UInt32
  ack : UInt32
  flags : UInt8
  window : UInt16
  payload : Bytes
  deriving DecidableEq, Repr

open TCPSegment

def TCPSegment.has (seg : TCPSegment) (flag : UInt8) : Bool := seg.flags &&& flag ≠ 0

/-- Take a segment apart; it may have options, which are skipped. -/
def parseTCP (bytes : Bytes) : Option TCPSegment :=
  if bytes.length < tcpHdrLen then none
  else
    let off := (bytes.getD 12 0 >>> 4).toNat * 4
    if off < tcpHdrLen ∨ bytes.length < off then none
    else
      some
        { srcPort := beGet16 bytes 0
          dstPort := beGet16 bytes 2
          seq := beGet32 bytes 4
          ack := beGet32 bytes 8
          flags := bytes.getD 13 0 &&& flagBits
          window := beGet16 bytes 14
          payload := bytes.drop off }

def TCPSegment.build (seg : TCPSegment) : Bytes :=
  bePut16 seg.srcPort ++ bePut16 seg.dstPort ++ bePut32 seg.seq ++
    bePut32 seg.ack ++ [(5 : UInt8) <<< 4, seg.flags &&& flagBits] ++
    bePut16 seg.window ++ [0, 0, 0, 0] ++ seg.payload

theorem build_header (seg : TCPSegment) : tcpHdrLen ≤ seg.build.length ∧
    seg.build.getD 12 0 = (5 : UInt8) <<< 4 ∧ seg.build.getD 13 0 = seg.flags &&& flagBits ∧
    seg.build.drop 20 = seg.payload := by
  refine ⟨?_, ?_, ?_, ?_⟩
  · simp only [build, bePut16, bePut32, length_append,
      length_putBE, length_cons, length_nil, tcpHdrLen]
    omega
  · simp [build, bePut16, bePut32, putBE]
  · simp [build, bePut16, bePut32, putBE]
  · simp [build, bePut16, bePut32, putBE]

theorem parseTCP_build (seg : TCPSegment) : parseTCP seg.build =
    some { seg with flags := seg.flags &&& flagBits } := by
  obtain ⟨long, offset, flags, payload⟩ := build_header seg
  have srcPort : beGet16 seg.build 0 = seg.srcPort := by
    simp only [build, append_assoc]
    exact beGet16_bePut16 [] rfl _ _
  have dstPort : beGet16 seg.build 2 = seg.dstPort := by
    simp only [build, append_assoc]
    exact beGet16_bePut16 (bePut16 seg.srcPort) (length_putBE 2 _) _ _
  have seq : beGet32 seg.build 4 = seg.seq := by
    have field := beGet32_bePut32
      (bePut16 seg.srcPort ++ bePut16 seg.dstPort) (show _ = 4 by simp [bePut16])
      seg.seq
      (bePut32 seg.ack ++ [(5 : UInt8) <<< 4, seg.flags &&& flagBits] ++
        bePut16 seg.window ++ [0, 0, 0, 0] ++ seg.payload)
    simpa only [build, append_assoc] using field
  have ack : beGet32 seg.build 8 = seg.ack := by
    have field := beGet32_bePut32 (bePut16 seg.srcPort ++ bePut16 seg.dstPort ++ bePut32 seg.seq)
      (show _ = 8 by simp [bePut16, bePut32]) seg.ack
      ([(5 : UInt8) <<< 4, seg.flags &&& flagBits] ++
        bePut16 seg.window ++ [0, 0, 0, 0] ++ seg.payload)
    simpa only [build, append_assoc] using field
  have window : beGet16 seg.build 14 = seg.window := by
    have field := beGet16_bePut16 (bePut16 seg.srcPort ++ bePut16 seg.dstPort ++ bePut32 seg.seq ++
        bePut32 seg.ack ++ [(5 : UInt8) <<< 4, seg.flags &&& flagBits])
      (show _ = 14 by simp [bePut16, bePut32]) seg.window
      ([0, 0, 0, 0] ++ seg.payload)
    simpa only [build, append_assoc] using field
  have within : flagBits &&& flagBits = flagBits := by decide
  unfold parseTCP
  rw [if_neg (Nat.not_lt.mpr long)]
  simp only [offset, flags, srcPort, dstPort, seq, ack, window, UInt8.and_assoc, within]
  rw [if_neg (by simp [tcpHdrLen] at long ⊢; exact long)]
  exact congrArg some (by rw [← payload]; rfl)

/-! ## Sequence numbers -/

def seqGT (a b : UInt32) : Bool := 0 < (a - b).toNat && (a - b).toNat < 2 ^ 31

def seqGE (a b : UInt32) : Bool := a = b || seqGT a b

end KernelLane.Tcp
