import KernelLane.KernFresh
import KernelLane.KernRequests

namespace KernelLane.Kern

open GuestFrame Ports Function List GuestOp

/-!
# The owner field of datagrams

The kernel writes the owner of the sending session into the header of a
datagram when it dispatches it to an endpoint or queues it on a port, but hands
it to a waiting routed call as it came.  Its own answers carry the owner 0 and
go where the request's reply name says.  The machine is run here together with
the origin of every stored datagram.  As long as answers to routed calls carry
their sender's owner already and requests to endpoints name no reply port,
whatever is received carries its sender's owner, and the kernel's own datagrams
lie in the queues of its endpoints and of the console only.
-/

/-! ## Origins -/

/-- Who sent a datagram, and the owner the registry had for it then. -/
inductive Origin where
  | kernel
  | session (sid uid : UInt32)
  deriving DecidableEq, Repr

/-- The origins of the datagrams in the queues and of the routed replies. -/
structure Origins where
  queued : Nat → Nat → Origin
  replied : Nat → Origin

def Origins.record (origins : Origins) (origin : Origin) : Option Place → Origins
  | none => origins
  | some (.queue index slot) =>
    { origins with
      queued := update origins.queued index (update (origins.queued index) slot origin) }
  | some (.reply entry) =>
    { origins with replied := update origins.replied entry origin }

/-- The header carries the owner of the sending session. -/
def Origin.Signs : Origin → Bytes → Prop
  | .kernel, _ => True
  | .session _ uid, data => 8 ≤ data.length → get32 data 4 = uid

/-- The port is one that the kernel itself writes to. -/
def Port.KernelWrites (port : Port) : Prop :=
  port.kernelEndpoint = true ∨ port.name = ascii "console"

/--
Stored datagrams carry their senders' owners, and those of the kernel lie
where the kernel writes.
-/
structure Origins.Honest (origins : Origins) (state : Ports) : Prop where
  unused : ∀ index slot, (state.ports index).used = false → (state.ports index).ring slot = none
  queued : ∀ index slot msg, (state.ports index).ring slot = some msg →
    (origins.queued index slot).Signs msg.data ∧ (origins.queued index slot = .kernel →
      (state.ports index).KernelWrites)
  replied : ∀ entry, (state.tab entry).used = true → (state.tab entry).done = true →
    (origins.replied entry).Signs (state.tab entry).resp ∧ (origins.replied entry = .kernel →
      (state.tab entry).name = ascii "console")

/-- What makes an operation of this origin an honest one. -/
def PortOp.Fair (state : Ports) (origin : Origin) : PortOp → Prop
  | .send uid _ sid h data =>
    origin = .session sid uid ∧ sid ≠ 0 ∧ ∀ index, state.portOf sid h = some index →
      (state.ports index).kernelEndpoint = false →
      (state.awaitedBy (state.ports index).name data).isSome = true →
      origin.Signs data
  | .enqueueByName _ name data => origin.Signs data ∧ (origin = .kernel → name = ascii "console")
  | .kernelEnqueue _ sid h _ =>
    origin = .kernel ∧ ∀ index, state.portOf sid h = some index →
      (state.ports index).kernelEndpoint = true
  | _ => True

variable {data : Bytes} {sid : UInt32} {who : PortOp → Origin} {machine : Machine}

theorem get32_take {count offset : Nat} (inside : offset + 4 ≤ count) :
    get32 (data.take count) offset = get32 data offset := by
  unfold get32 Words.getAt
  rw [drop_take, take_take, Nat.min_eq_left (by omega)]

theorem Origin.Signs.take {origin : Origin} (signs : origin.Signs data) {count : Nat}
    (behind : 8 ≤ count) : origin.Signs (data.take count) := by
  cases origin with
  | kernel => trivial
  | session sid uid =>
    intro long
    rw [get32_take behind]
    refine signs ?_
    rw [length_take] at long
    omega

theorem signs_stampUid (sid uid : UInt32) (data : Bytes) :
    (Origin.session sid uid).Signs (stampUid uid data) := by
  intro long
  unfold stampUid at long ⊢
  split
  next framed =>
    rw [append_assoc]
    refine get32_put32 _ _ _ _ ?_
    rw [length_take]
    omega
  next short =>
    rw [if_neg short] at long
    exact absurd long short

variable {msg : Msg}

theorem Ports.drainSession_ring {state : Ports} {index slot : Nat}
    (stored : ((state.drainSession sid).ports index).ring slot = some msg) :
    (state.ports index).ring slot = some msg := by
  simp only [drainSession] at stored
  split at stored
  · simp only [Port.drain] at stored
    split at stored
    · cases stored
    · exact stored
  · exact stored

theorem Ports.drainSession_endpoint (state : Ports) (sid : UInt32) (index : Nat) :
    ((state.drainSession sid).ports index).kernelEndpoint = (state.ports index).kernelEndpoint := by
  simp only [drainSession]
  split <;> rfl

namespace Origins.Honest

variable {origins : Origins} {state : Ports} {origin : Origin} {index : Nat}

variable (honest : origins.Honest state)

include honest

theorem of_same {after : Ports} (ports : after.ports = state.ports) (tab : after.tab = state.tab) :
    origins.Honest after := by
  refine ⟨?_, ?_, ?_⟩
  · rw [ports]
    exact honest.unused
  · rw [ports]
    exact honest.queued
  · rw [tab]
    exact honest.replied

theorem setPort {port : Port} (unused : port.used = false → (state.ports index).used = false)
    (ring : ∀ slot msg, port.ring slot = some msg → (state.ports index).ring slot = some msg)
    (writes : (state.ports index).used = true → (state.ports index).KernelWrites →
      port.KernelWrites) : origins.Honest (state.setPort index port) := by
  refine ⟨?_, ?_, honest.replied⟩
  · intro other slot isUnused
    by_cases same : other = index
    · subst same
      simp only [Ports.setPort, update_self] at isUnused ⊢
      by_contra filled
      obtain ⟨msg, stored⟩ := Option.ne_none_iff_exists'.mp filled
      have empty := honest.unused other slot (unused isUnused)
      rw [ring slot msg stored] at empty
      cases empty
    · simp only [Ports.setPort, update_of_ne same] at isUnused ⊢
      exact honest.unused other slot isUnused
  · intro other slot msg stored
    by_cases same : other = index
    · subst same
      simp only [Ports.setPort, update_self] at stored ⊢
      have kept := ring slot msg stored
      obtain ⟨signs, own⟩ := honest.queued other slot msg kept
      refine ⟨signs, fun isKernel => writes ?_ (own isKernel)⟩
      by_contra isUnused
      rw [Bool.not_eq_true] at isUnused
      rw [honest.unused other slot isUnused] at kept
      cases kept
    · simp only [Ports.setPort, update_of_ne same] at stored ⊢
      exact honest.queued other slot msg stored

theorem enqueue (used : (state.ports index).used = true) (signs : origin.Signs msg.data)
    (own : origin = .kernel → (state.ports index).KernelWrites) :
    (origins.record origin (some (.queue index (state.ports index).qt))).Honest
      (state.setPort index ((state.ports index).enqueue msg)) := by
  refine ⟨?_, ?_, honest.replied⟩
  · intro other slot isUnused
    by_cases same : other = index
    · subst same
      have stillUsed : (state.ports other).used = false := by
        simpa [Ports.setPort, Port.enqueue] using isUnused
      exact absurd (used.symm.trans stillUsed) (by decide)
    · simp only [Ports.setPort, update_of_ne same] at isUnused ⊢
      exact honest.unused other slot isUnused
  · intro other slot stored filled
    dsimp only [Origins.record]
    by_cases same : other = index
    · subst same
      simp only [Ports.setPort, update_self, Port.enqueue] at filled ⊢
      by_cases atTail : slot = (state.ports other).qt
      · subst atTail
        rw [update_self] at filled ⊢
        cases filled
        exact ⟨signs, own⟩
      · rw [update_of_ne atTail] at filled ⊢
        exact honest.queued other slot stored filled
    · simp only [Ports.setPort, update_of_ne same] at filled ⊢
      exact honest.queued other slot stored filled

variable {entry : Nat}

theorem reply {name : Bytes}
    (awaited : state.awaitedBy name data = some entry) (signs : origin.Signs data)
    (own : origin = .kernel → name = ascii "console") :
    (origins.record origin (some (.reply entry))).Honest (state.reply entry data) := by
  have matched := List.find?_some awaited
  simp only [Bool.and_eq_true, decide_eq_true_eq] at matched
  refine ⟨honest.unused, honest.queued, ?_⟩
  intro other used finished
  dsimp only [Origins.record, Ports.reply] at used finished ⊢
  by_cases same : other = entry
  · subst same
    simp only [update_self]
    exact ⟨signs.take (by decide), fun isKernel => matched.1.2.trans (own isKernel)⟩
  · simp only [update_of_ne same] at used finished ⊢
    exact honest.replied other used finished

theorem setPending {pending : Pending}
    (unfinished : ¬ (pending.used = true ∧ pending.done = true)) :
    origins.Honest { state with tab := update state.tab entry pending } := by
  refine ⟨honest.unused, honest.queued, ?_⟩
  intro other used finished
  by_cases same : other = entry
  · subst same
    simp only [update_self] at used finished
    exact absurd ⟨used, finished⟩ unfinished
  · simp only [update_of_ne same] at used finished ⊢
    exact honest.replied other used finished

theorem dequeue : origins.Honest (state.setPort index (state.ports index).dequeue) := by
  refine honest.setPort id ?_ fun _ => id
  intro slot stored filled
  by_cases atHead : slot = (state.ports index).qh
  · subst atHead
    simp [Port.dequeue] at filled
  · simpa [Port.dequeue, atHead] using filled

theorem renamed (free : state.freePort = some index) (used : Bool) (sid : UInt32) (name : Bytes) :
    origins.Honest (state.setPort index ((state.ports index).renamed used sid name)) := by
  have unused := (freePort_spec free).2
  refine honest.setPort (fun _ => unused) (fun _ _ stored => stored) fun isUsed => ?_
  exact absurd (isUsed.symm.trans unused) (by decide)

theorem kill (sid : UInt32) :
    origins.Honest ((state.drainSession sid).clearSessionHandles sid) := by
  have drained : origins.Honest (state.drainSession sid) := by
    have header := state.drainSession_header sid
    refine ⟨?_, ?_, honest.replied⟩
    · intro index slot unused
      rw [(header index).1] at unused
      by_contra filled
      obtain ⟨msg, stored⟩ := Option.ne_none_iff_exists'.mp filled
      have kept := drainSession_ring stored
      rw [honest.unused index slot unused] at kept
      cases kept
    · intro index slot msg stored
      obtain ⟨signs, own⟩ := honest.queued index slot msg (drainSession_ring stored)
      refine ⟨signs, fun isKernel => ?_⟩
      unfold Port.KernelWrites
      rw [drainSession_endpoint, (header index).2.1]
      exact own isKernel
  unfold clearSessionHandles
  split
  · exact drained
  · exact drained.of_same rfl rfl

end Origins.Honest

namespace PortOp

variable {state : Ports} {op : PortOp} {origin : Origin}

theorem Fair.signs {index : Nat} (fair : op.Fair state origin)
    (addressed : op.Addresses state index msg) :
    origin.Signs msg.data ∧ (origin = .kernel → (state.ports index).KernelWrites) := by
  cases op with
  | send uid allocOk sid h data =>
    obtain ⟨rfl, notKernel, _⟩ := fair
    obtain ⟨_, _, rfl⟩ := addressed
    rw [if_pos notKernel]
    exact ⟨signs_stampUid sid uid data, nofun⟩
  | enqueueByName allocOk name data =>
    obtain ⟨found, rfl⟩ := addressed
    refine ⟨fair.1.take (by decide), fun isKernel => .inr ?_⟩
    exact (portByName_spec found).2.2.trans (fair.2 isKernel)
  | kernelEnqueue allocOk sid h data =>
    obtain ⟨rfl, endpoint⟩ := fair
    exact ⟨trivial, fun _ => .inl (endpoint index addressed.1)⟩
  | _ => cases addressed

theorem Fair.answers {name : Bytes} (fair : op.Fair state origin)
    (answers : op.Answers state name data) (awaited : (state.awaitedBy name data).isSome = true) :
    origin.Signs data ∧ (origin = .kernel → name = ascii "console") := by
  cases op with
  | send uid allocOk sid h sentData =>
    obtain ⟨rfl, notKernel, signs⟩ := fair
    obtain ⟨rfl, index, found, kernelOnly, rfl⟩ := answers
    refine ⟨signs index found ?_ awaited, nofun⟩
    exact Bool.eq_false_iff.mpr fun endpoint => notKernel (kernelOnly endpoint)
  | enqueueByName =>
    obtain ⟨rfl, rfl⟩ := answers
    exact fair
  | _ => cases answers

end PortOp

theorem PortOp.run_honest {origins : Origins} {state : Ports} {origin : Origin} (op : PortOp)
    (honest : origins.Honest state) (fair : op.Fair state origin) :
    (origins.record origin (op.landing state)).Honest (op.run state).2 := by
  have change := op.change state
  generalize op.run state = result at change ⊢
  obtain ⟨event, after⟩ := result
  cases change with
  | kept _ unplaced =>
    rw [unplaced]
    exact honest
  | queued placed addressed =>
    obtain ⟨signs, own⟩ := fair.signs addressed
    rw [placed]
    exact honest.enqueue (used_of_addresses addressed) signs own
  | answered placed answers _ awaited =>
    obtain ⟨signs, own⟩ := fair.answers answers (Option.isSome_of_eq_some awaited)
    rw [placed]
    exact honest.reply awaited signs own
  | taken => exact honest.dequeue
  | opened _ _ free => exact (honest.renamed free true _ _).of_same rfl rfl
  | reset free => exact honest.renamed free false _ _
  | bound => exact honest.of_same rfl rfl
  | killed sid => exact honest.kill sid
  | @turned op entry pending turns unfinished =>
    have unplaced : op.landing state = none := by cases op <;> first | rfl | cases turns
    rw [unplaced]
    exact honest.setPending unfinished

/-! ## The traced machine -/

def Origins.after (origins : Origins) (state : Ports)
    (who : PortOp → Origin) : List PortOp → Origins
  | [] => origins
  | op :: rest => (origins.record (who op) (op.landing state)).after (op.run state).2 who rest

/-- Every operation of a list is fair where it is run. -/
def FairAll (state : Ports) (who : PortOp → Origin) : List PortOp → Prop
  | [] => True
  | op :: rest => op.Fair state (who op) ∧ FairAll (op.run state).2 who rest

theorem Origins.Honest.after {origins : Origins} {state : Ports} {ops : List PortOp}
    (honest : origins.Honest state) (fair : FairAll state who ops) :
    (origins.after state who ops).Honest (stateAfter state ops) := by
  induction ops generalizing origins state with
  | nil => exact honest
  | cons op rest hypothesis =>
    exact hypothesis (op.run_honest honest fair.1) fair.2

/--
Who sends the datagram of a port operation: a session its own sends and its
routed requests, and the kernel its answers and its log.
-/
def GuestOp.origin (machine : Machine) : GuestOp → PortOp → Origin
  | .send _ sid _ _, .send _ _ _ _ _ => .session sid (machine.sched.uidOf sid)
  | .request _ sid _ _ _, _ => .session sid (machine.sched.uidOf sid)
  | _, _ => .kernel

/-- The machine with the origins of the stored datagrams. -/
structure Traced where
  machine : Machine
  origins : Origins

def Traced.next (traced : Traced) (op : GuestOp) : Traced where
  machine := op.run traced.machine
  origins :=
    if op.Runs traced.machine then
      traced.origins.after traced.machine.ports (op.origin traced.machine)
        (op.portOps traced.machine)
    else traced.origins

def Traced.boot : Traced where
  machine := .boot
  origins := ⟨fun _ _ => .kernel, fun _ => .kernel⟩

/--
A request to a kernel endpoint names no reply port, and a datagram that
answers a waiting routed call carries its sender's owner.
-/
def GuestOp.Plain (machine : Machine) : GuestOp → Prop
  | .send _ sid h data =>
    ∀ index, machine.ports.portOf sid h = some index →
      ((machine.ports.ports index).kernelEndpoint = true → 24 ≤ data.length →
        cstr ((data.drop 8).take 16) = []) ∧
      ((machine.ports.ports index).kernelEndpoint = false →
        (machine.ports.awaitedBy (machine.ports.ports index).name data).isSome = true →
        8 ≤ data.length →
        get32 data 4 = machine.sched.uidOf sid)
  | _ => True

/-- A plain step of the traced machine. -/
def Traced.PlainStep (before : Traced) (op : GuestOp) (after : Traced) : Prop :=
  op.Plain before.machine ∧ before.next op = after

theorem stampUid_drop (uid : UInt32) (data : Bytes) : (stampUid uid data).drop 8 = data.drop 8 := by
  unfold stampUid
  split
  next framed =>
    have header : (data.take 4 ++ put32 uid).length = 8 := by
      simp
      omega
    rw [← header, drop_left]
  · rfl

theorem length_stampUid (uid : UInt32) (data : Bytes) :
    (stampUid uid data).length = data.length := by
  unfold stampUid
  split
  next framed =>
    simp
    omega
  · rfl

variable {env : SvcEnv}

/-- An answer without a reply name goes back behind the sender's handle. -/
theorem fairAll_replyOps {state : Ports} {route : ReplyRoute} (unnamed : route.rname = [])
    (kernelSends : ∀ answer, who (.kernelEnqueue env.allocOk route.fromSid route.replyH answer) =
        .kernel) (endpoint : ∀ index, state.portOf route.fromSid route.replyH = some index →
      (state.ports index).kernelEndpoint = true) (answer : Option Bytes) :
    FairAll state who (replyOps env route answer) := by
  unfold replyOps
  split
  · trivial
  rw [if_neg (not_not.mpr unnamed)]
  split
  · exact ⟨⟨kernelSends _, endpoint⟩, trivial⟩
  · trivial

theorem Machine.signs_nextRequest (machine : Machine) (sid : UInt32) (op : UInt16)
    (path payload : Bytes) : (Origin.session sid (machine.sched.uidOf sid)).Signs
      (machine.nextRequest sid op path payload) := by
  intro long
  unfold nextRequest requestFrame at long ⊢
  split
  next tooLong =>
    rw [if_pos tooLong] at long
    exact absurd long (by decide)
  simp only [append_assoc]
  exact get32_put32 _ _ _ _ rfl

theorem GuestOp.fairAll_send {h : Int} (runs : (send env sid h data).Runs machine)
    (plain : (send env sid h data).Plain machine) :
    FairAll machine.ports ((send env sid h data).origin machine)
      ((send env sid h data).portOps machine) := by
  have alive : machine.sched.alive sid = true := runs.2.1
  have notKernel : sid ≠ 0 := by
    rintro rfl
    exact absurd ((Sched.alive_iff _ _).mp alive).1 (by decide)
  dsimp only [portOps, KernOp.portOps]
  rw [if_neg (by simp [runs.1])]
  split
  next endpoint frame sent =>
    obtain ⟨index, found, isEndpoint, rfl⟩ := Kernel.portSend_dispatched sent
    unfold Kernel.dispatchOps
    split
    · trivial
    next framed =>
    rw [length_stampUid, Nat.not_lt] at framed
    have unnamed : (routeOf sid h (stampUid (machine.sched.uidOf sid) data)).rname = [] := by
      dsimp only [routeOf]
      rw [stampUid_drop]
      exact (plain index found).1 isEndpoint.2 framed
    unfold Kernel.serveOps
    split
    · refine ⟨trivial, fairAll_replyOps unnamed (fun _ => rfl) ?_ _⟩
      intro other stillFound
      have before := ((portOf_kill _ _ _ _).mp stillFound).1
      have same : other = index := by simpa using before.symm.trans found
      subst same
      exact ((isEndpoint_kill _ _).mpr isEndpoint).2
    · refine fairAll_replyOps unnamed (fun _ => rfl) ?_ _
      intro other again
      have same : other = index := by simpa using again.symm.trans found
      subst same
      exact isEndpoint.2
  · refine ⟨⟨rfl, notKernel, ?_⟩, trivial⟩
    intro index found guest awaited
    exact (plain index found).2 guest awaited

theorem GuestOp.fairAll {op : GuestOp} (runs : op.Runs machine) (plain : op.Plain machine) :
    FairAll machine.ports (op.origin machine) (op.portOps machine) := by
  cases op with
  | create | recv =>
    dsimp only [portOps, KernOp.portOps]
    split
    · trivial
    · exact ⟨trivial, trivial⟩
  | bind sid name =>
    dsimp only [portOps, KernOp.portOps]
    split
    · split
      · trivial
      · exact ⟨trivial, trivial⟩
    · trivial
  | focusSet allocOk sid h =>
    dsimp only [portOps]
    split
    · split
      · trivial
      · exact ⟨⟨trivial, fun _ => rfl⟩, trivial⟩
    · trivial
  | collect | giveUp =>
    dsimp only [portOps]
    split
    · exact ⟨trivial, trivial⟩
    · trivial
  | request allocOk sid request path payload =>
    dsimp only [portOps]
    split
    · trivial
    · refine ⟨trivial, ⟨?_, nofun⟩, trivial⟩
      exact machine.signs_nextRequest sid request path payload
  | send env sid h data => exact fairAll_send runs plain
  | _ => trivial

/-- What the machine has stored is honest. -/
def Traced.Honest (traced : Traced) : Prop := traced.origins.Honest traced.machine.ports

theorem Traced.boot_honest : Traced.boot.Honest := by
  have empty : ∀ index slot, (portsInit.ports index).ring slot = none := by
    intro index slot
    dsimp only [portsInit]
    split <;> rfl
  refine ⟨fun index slot _ => empty index slot, ?_, ?_⟩
  · intro index slot msg stored
    have nothing := (empty index slot).symm.trans stored
    cases nothing
  · rintro entry ⟨⟩

theorem Traced.Honest.next {before after : Traced} {op : GuestOp} (honest : before.Honest)
    (step : before.PlainStep op after) : after.Honest := by
  obtain ⟨plain, rfl⟩ := step
  dsimp only [Traced.Honest, Traced.next]
  by_cases runs : op.Runs before.machine
  · rw [if_pos runs, run_ports runs]
    exact Origins.Honest.after honest (op.fairAll runs plain)
  rw [if_neg runs]
  unfold run
  rw [if_neg runs]
  exact honest

theorem Ports.stored_of_received {state : Ports} {h : Int} {index : Nat}
    (received : (state.portRecv sid h).1 = .received index msg) :
    (state.ports index).ring (state.ports index).qh = some msg := by
  unfold portRecv at received
  split at received
  · cases received
  split at received
  · cases received
  split at received
  · cases received
  next stored =>
    cases received
    exact stored

theorem Machine.finished_of_collect {resp : Bytes}
    (collected : (machine.collect sid).1 = some resp) :
    ∃ entry, (machine.ports.tab entry).used = true ∧ (machine.ports.tab entry).done = true ∧
      (machine.ports.tab entry).seq = (machine.wasi sid.toNat).fsRtSeq ∧
      (machine.ports.tab entry).resp = resp := by
  unfold collect at collected
  dsimp only at collected
  split at collected
  · split at collected
    · cases collected
    next polled =>
      cases collected
      unfold fsroutePoll at polled
      split at polled
      · cases polled
      next entry found =>
        cases polled
        have finished := List.find?_some found
        simp only [Bool.and_eq_true, decide_eq_true_eq] at finished
        exact ⟨entry, finished.1.1, finished.1.2, finished.2, rfl⟩
  · cases collected

/--
Over every history of plain operations, a datagram that a session receives and
a reply that a routed call collects carry the owner of the session that sent
them, and the kernel's own come from its endpoints and through the console
only; a request that reaches an endpoint carries its sender's owner.
-/
theorem received_carries_owner {ops : List GuestOp} {final : Traced}
    (run : Run Traced.PlainStep .boot ops final) :
    (∀ sid h index msg, (final.machine.ports.portRecv sid h).1 = .received index msg →
      (final.origins.queued index (final.machine.ports.ports index).qh).Signs msg.data ∧
      (final.origins.queued index (final.machine.ports.ports index).qh = .kernel →
        (final.machine.ports.ports index).KernelWrites)) ∧
    (∀ sid resp, (final.machine.collect sid).1 = some resp → ∃ entry,
      (final.machine.ports.tab entry).seq = (final.machine.wasi sid.toNat).fsRtSeq ∧
        (final.machine.ports.tab entry).resp = resp ∧ (final.origins.replied entry).Signs resp ∧
        (final.origins.replied entry = .kernel →
          (final.machine.ports.tab entry).name = ascii "console")) ∧
    (∀ allocOk sid h data endpoint frame,
      (final.machine.ports.portSend (final.machine.sched.uidOf sid) allocOk
        sid h data).1 = .dispatched endpoint frame →
      (Origin.session sid (final.machine.sched.uidOf sid)).Signs frame) := by
  have honest : final.Honest :=
    run.invariant (fun honest step => honest.next step) Traced.boot_honest
  refine ⟨?_, ?_, ?_⟩
  · intro sid h index msg received
    exact honest.queued index _ msg (stored_of_received received)
  · intro sid resp collected
    obtain ⟨entry, used, finished, number, rfl⟩ := Machine.finished_of_collect collected
    obtain ⟨signs, own⟩ := honest.replied entry used finished
    exact ⟨entry, number, rfl, signs, own⟩
  · intro allocOk sid h data endpoint frame sent
    obtain ⟨_, _, _, rfl⟩ := Kernel.portSend_dispatched sent
    exact signs_stampUid sid _ data

/-! ## A forged reply and a redirected answer -/

def callingOps : List GuestOp :=
  [startOp (ascii "fs") 0, startOp (ascii "app") 0, startOp (ascii "evil") 0,
    .create 1 (ascii "fs"), .create 2 (ascii "app"), .bind 1 (ascii "app"),
    .bind 3 (ascii "app"), .request true 2 1 (ascii "/a") []]

def routedAnswer (uid : UInt32) : Bytes := put16 1 ++ put16 1 ++ put32 uid ++ replicate 16 0

def forgedOps : List GuestOp := callingOps ++ [.send plainEnv 3 0 (routedAnswer 0)]

def redirectedOps : List GuestOp :=
  [startOp (ascii "shell") capPortbind, startOp (ascii "victim") 0,
    .create 2 (ascii "victim"), .bind 1 (ascii "registry"),
    .send plainEnv 1 0 (put16 1 ++ put16 1 ++ put32 0 ++ rnameField (ascii "victim"))]

/--
A routed call collects a datagram with the owner 0 that a session of owner 1
sent, and the kernel queues a datagram of its own, with the owner 0, on the
port that a request names.
-/
theorem forged_and_redirected : ((machineAfter forgedOps).sched.uidOf 3 = 1 ∧
      ((machineAfter forgedOps).collect 2).1 = some (routedAnswer 0) ∧
      get32 (routedAnswer 0) 4 = 0) ∧
    ((machineAfter redirectedOps).ports.ports 3).name = ascii "victim" ∧
    (((machineAfter redirectedOps).ports.ports 3).ring 0).map
      (fun msg => (msg.fromSid, get32 msg.data 4)) = some (0, 0) := by
  decide +kernel

def answeredOps : List GuestOp := callingOps ++ [.send plainEnv 1 1 (routedAnswer 1)]

/-- The call collects the answer with the service's owner. -/
theorem received_carries_owner_of_answer :
    ((answeredOps.foldl Traced.next .boot).machine.collect 2).1 = some (routedAnswer 1) ∧ ∃ entry,
      ((answeredOps.foldl Traced.next .boot).origins.replied entry).Signs (routedAnswer 1) := by
  have run : Run Traced.PlainStep .boot answeredOps (answeredOps.foldl Traced.next .boot) := by
    iterate 8 refine .cons ⟨trivial, rfl⟩ ?_
    refine .cons ⟨?_, rfl⟩ (.nil _)
    intro index found
    have port : (callingOps.foldl Traced.next .boot).machine.ports.portOf 1 1 = some 4 := by
      decide +kernel
    obtain rfl : 4 = index := by simpa using port.symm.trans found
    refine ⟨fun endpoint => absurd endpoint (by decide +kernel), ?_⟩
    intro _ _ _
    decide +kernel
  have collected : ((answeredOps.foldl Traced.next .boot).machine.collect 2).1 =
      some (routedAnswer 1) := by
    decide +kernel
  obtain ⟨entry, _, _, signs, _⟩ := (received_carries_owner run).2.1 2 _ collected
  exact ⟨collected, entry, signs⟩

end KernelLane.Kern
