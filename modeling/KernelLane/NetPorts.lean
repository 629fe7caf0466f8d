import KernelLane.NetRecv
import KernelLane.Runs

namespace KernelLane.Tcp

open UInt16

/-!
# Ports and sockets of the net service

`Dial` takes the next port that no endpoint of the stack holds, counting in
sixteen bits without regard to the range of the ephemeral ports.  The service
numbers its sockets by such a counter too, and does not look at the table.
-/

namespace TCPStack

def newTCPStack : TCPStack := ⟨fun _ => none, 49152⟩

/-- A call into the stack. -/
inductive Call where
  | listen (port : UInt16)
  | dial (raddr : IP4) (rport : UInt16)

/-- The call returns and leaves the second stack; a failed `Listen` changes nothing. -/
def Returns (t : TCPStack) : Call → TCPStack → Prop
  | .listen port, after => (t.listen port).getD t = after
  | .dial raddr rport, after => ∃ port, t.dial raddr rport = some (port, after)

/-- No endpoint holds the port, and counting from the start reaches no free port before it. -/
def Nearest (t : TCPStack) (start port : UInt16) : Prop :=
  t.conns port = none ∧ ∀ other, t.conns other = none → port - start ≤ other - start

variable {t : TCPStack} {start port next : UInt16}

theorem nearest_of_ephemeral {tries : Nat} (found : t.ephemeral tries start = some (port, next)) :
    t.Nearest start port := by
  induction tries generalizing start with
  | zero => cases found
  | succ tries hypothesis =>
    rw [ephemeral] at found
    cases held : t.conns start with
    | none =>
      rw [held] at found
      cases found
      refine ⟨held, fun other _ => ?_⟩
      rw [UInt16.sub_self]
      exact UInt16.zero_le
    | some conn =>
      rw [held] at found
      obtain ⟨free, nearest⟩ := hypothesis found
      have apart {other : UInt16} (otherFree : t.conns other = none) : other ≠ start := by
        rintro rfl
        rw [held] at otherFree
        cases otherFree
      refine ⟨free, fun other otherFree => ?_⟩
      have later := le_iff_toNat_le.mp (nearest other otherFree)
      rw [le_iff_toNat_le, Words.distance_succ (apart free), Words.distance_succ (apart otherFree)]
      omega

theorem taken_of_ephemeral {tries : Nat} (missed : t.ephemeral tries start = none)
    (within : (port - start).toNat < tries) : t.conns port ≠ none := by
  induction tries generalizing start with
  | zero => omega
  | succ tries hypothesis =>
    rw [ephemeral] at missed
    cases held : t.conns start with
    | none =>
      rw [held] at missed
      cases missed
    | some conn =>
      rw [held] at missed
      by_cases same : port = start
      · rw [same, held]
        exact Option.some_ne_none conn
      · rw [Words.distance_succ same] at within
        exact hypothesis missed (by omega)

/--
`Dial` has no error to report; it returns with an ephemeral port that was free
exactly if the first free port that the counter comes to is one.
-/
theorem dial_ephemeral_iff (t : TCPStack) (raddr : IP4) (rport : UInt16) :
    (∃ port after, t.dial raddr rport = some (port, after) ∧ 49152 ≤ port ∧ t.conns port = none) ↔
      ∃ port, 49152 ≤ port ∧ t.Nearest t.nextEphemeral port := by
  unfold dial
  constructor
  · rintro ⟨port, after, dialed, range, -⟩
    obtain ⟨⟨found, next⟩, searched, same⟩ := Option.map_eq_some_iff.mp dialed
    obtain ⟨rfl, -⟩ := Prod.mk.inj same
    exact ⟨found, range, nearest_of_ephemeral searched⟩
  · rintro ⟨port, range, free, nearest⟩
    cases searched : t.ephemeral 65536 t.nextEphemeral with
    | none => exact absurd free (taken_of_ephemeral searched (toNat_lt _))
    | some result =>
      obtain ⟨found, next⟩ := result
      obtain ⟨foundFree, first⟩ := nearest_of_ephemeral searched
      have same : found = port := by
        have distance := UInt16.le_antisymm (first port free) (nearest found foundFree)
        exact (UInt16.sub_left_inj t.nextEphemeral).mp distance
      subst same
      exact ⟨found, _, rfl, range, free⟩

theorem dial_of_free (free : t.conns t.nextEphemeral = none) (raddr : IP4) (rport : UInt16) :
    t.dial raddr rport = some (t.nextEphemeral, { t with nextEphemeral := t.nextEphemeral + 1
      }.setConn t.nextEphemeral (.dialed t.nextEphemeral raddr rport)) := by
  have searched : t.ephemeral (65535 + 1) t.nextEphemeral =
      some (t.nextEphemeral, t.nextEphemeral + 1) := by
    rw [ephemeral, free]
  rw [dial, searched]
  rfl

theorem counter_after_dials {count : Nat} (short : count < 65536)
    (counter : t.nextEphemeral = ofNat (65536 - count))
    (free : ∀ port : UInt16, port = 0 ∨ 65536 - count ≤ port.toNat → t.conns port = none) :
    ∃ after, Run Returns t (List.replicate count (.dial 0 80)) after ∧ after.nextEphemeral = 0 ∧
      after.conns 0 = none := by
  induction count generalizing t with
  | zero => exact ⟨t, .nil t, counter, free 0 (.inl rfl)⟩
  | succ count hypothesis =>
    have place : t.nextEphemeral.toNat = 65536 - (count + 1) := by
      rw [counter]
      exact toNat_ofNat_of_lt' (by unfold size; omega)
    have dialed := dial_of_free (free t.nextEphemeral (.inr place.ge)) 0 80
    have counted : t.nextEphemeral + 1 = ofNat (65536 - count) := by
      rw [← UInt16.toNat_inj, UInt16.toNat_add, place, UInt16.toNat_ofNat']
      have one : (1 : UInt16).toNat = 1 := rfl
      omega
    have others : ∀ port : UInt16, port = 0 ∨ 65536 - count ≤ port.toNat →
        Function.update t.conns t.nextEphemeral (some (.dialed t.nextEphemeral 0 80)) port =
          none := by
      intro port late
      have other : port ≠ t.nextEphemeral := by
        rintro rfl
        rcases late with zero | late
        · rw [zero] at place
          have none : (0 : UInt16).toNat = 0 := rfl
          omega
        · omega
      rw [Function.update_of_ne other]
      exact free port (late.imp id (by omega))
    obtain ⟨after, run, wrapped, zero⟩ := hypothesis (t := ⟨Function.update t.conns
      t.nextEphemeral (some (.dialed t.nextEphemeral 0 80)), t.nextEphemeral + 1⟩)
      (by omega) counted others
    exact ⟨after, .cons ⟨_, dialed⟩ run, wrapped, zero⟩

/-- After a dial for each ephemeral port the next one takes port 0. -/
theorem dial_takes_port_zero : ∃ t, Run Returns newTCPStack (List.replicate 16384 (.dial 0 80)) t ∧
    ∃ after, t.dial 0 80 = some (0, after) := by
  have dials : 16384 < 65536 := by decide
  obtain ⟨t, run, counter, free⟩ := counter_after_dials (t := newTCPStack) dials rfl fun _ _ => rfl
  rw [← counter] at free
  have dialed := dial_of_free free 0 80
  rw [counter] at dialed
  exact ⟨t, run, _, dialed⟩

end TCPStack

end KernelLane.Tcp

namespace KernelLane.Net

open Function GuestFrame List Tcp

/-! ## The table of sockets -/

def netKindTCP : UInt16 := 0
def netKindUDP : UInt16 := 1
def errState : UInt32 := UInt32.ofInt (-3)

/-- A socket of the table; its connection and its queue are known by their ports. -/
structure TableSocket where
  kind : UInt16
  tcp : Option UInt16
  listen : Option UInt16
  udpPort : UInt16
  deriving DecidableEq, Repr

/-- The queues of the UDP ports. -/
abbrev UDPDemux := UInt16 → Option (List Bytes)

/-- Port 0 asks for a free high port, and is bound itself if there is none. -/
def UDPDemux.bind (ports : UDPDemux) (port : UInt16) : UInt16 × UDPDemux :=
  let high := (List.range 16384).map fun place => UInt16.ofNat (49152 + place)
  let bound := if port = 0 then (high.find? fun other => (ports other).isNone).getD 0 else port
  (bound, update ports bound (some ((ports bound).getD [])))

structure NetServer where
  tcp : TCPStack
  udp : UDPDemux
  sockets : UInt16 → Option TableSocket
  nextID : UInt16

namespace NetServer

/-- A new socket of a kind, with the port it asks for. -/
def newSocket (ns : NetServer) (kind port : UInt16) :
    Except UInt32 (TCPStack × UDPDemux × TableSocket) :=
  if kind = netKindTCP then
    if port ≠ 0 then
      match ns.tcp.listen port with
      | none => .error errState
      | some tcp => .ok (tcp, ns.udp, ⟨kind, none, some port, 0⟩)
    else .ok (ns.tcp, ns.udp, ⟨kind, none, none, 0⟩)
  else if kind = netKindUDP then
    let (bound, udp) := ns.udp.bind port
    .ok (ns.tcp, udp, ⟨kind, none, none, bound⟩)
  else .error errBadOp

/-- Open a socket: its number, or the status of a failure. -/
def dispatchOpen (ns : NetServer) (payload : Bytes) : Except UInt32 UInt16 × NetServer :=
  if payload.length < 4 then (.error errBadOp, ns)
  else
    match ns.newSocket (get16 payload 0) (get16 payload 2) with
    | .error status => (.error status, ns)
    | .ok (tcp, udp, sk) =>
      let id := ns.nextID + 1
      (.ok id, ⟨tcp, udp, update ns.sockets id (some sk), id⟩)

/-- Close the connection of a socket, if it has one. -/
def closeConn (tcp : TCPStack) (sk : TableSocket) : TCPStack :=
  match sk.tcp with
  | none => tcp
  | some port =>
    match (tcp.conns port).bind TCPConn.close with
    | none => tcp
    | some conn => tcp.setConn port conn

def dispatchClose (ns : NetServer) (payload : Bytes) : UInt32 × NetServer :=
  if payload.length < 2 then (errBadOp, ns)
  else
    let id := get16 payload 0
    match ns.sockets id with
    | none => (errNoSuchSock, ns)
    | some sk =>
      (netStatusOK, { ns with
        sockets := update ns.sockets id none
        tcp := if sk.kind = netKindTCP then closeConn ns.tcp sk else ns.tcp })

inductive Request where
  | opens (payload : Bytes)
  | closes (payload : Bytes)

def next (ns : NetServer) : Request → NetServer
  | .opens payload => (ns.dispatchOpen payload).2
  | .closes payload => (ns.dispatchClose payload).2

/-- The numbers of the open sockets have been counted. -/
def Counted (ns : NetServer) : Prop := ∀ id sk, ns.sockets id = some sk → id ≤ ns.nextID

variable {ns : NetServer}

theorem Counted.next_free (counted : ns.Counted) (last : ns.nextID ≠ 65535) :
    ns.nextID < ns.nextID + 1 ∧ ns.sockets (ns.nextID + 1) = none := by
  have larger : ns.nextID < ns.nextID + 1 := by
    have below := ns.nextID.toNat_lt
    have notLast : ns.nextID.toNat ≠ 65535 := fun same => last (UInt16.toNat_inj.mp same)
    have one : (1 : UInt16).toNat = 1 := rfl
    rw [UInt16.lt_iff_toNat_lt, UInt16.toNat_add, one]
    omega
  refine ⟨larger, Option.eq_none_iff_forall_ne_some.mpr fun sk found => ?_⟩
  exact UInt16.lt_irrefl _ (UInt16.lt_of_lt_of_le larger (counted _ sk found))

theorem Counted.next (counted : ns.Counted) (last : ns.nextID ≠ 65535) (request : Request) :
    (ns.next request).Counted := by
  cases request with
  | opens payload =>
    rw [NetServer.next, dispatchOpen]
    split
    · exact counted
    split
    · exact counted
    intro id other found
    dsimp only at found ⊢
    rw [update_apply] at found
    split at found
    next new => exact new ▸ UInt16.le_refl _
    · exact UInt16.le_trans (counted id other found) (UInt16.le_of_lt (counted.next_free last).1)
  | closes payload =>
    rw [NetServer.next, dispatchClose]
    split
    · exact counted
    dsimp only
    split
    · exact counted
    intro id other found
    dsimp only at found
    rw [update_apply] at found
    split at found
    · cases found
    · exact counted id other found

end NetServer

end KernelLane.Net
