import KernelLane.BitMasks
import KernelLane.KernServices
import KernelLane.Runs

namespace KernelLane.Kern

open BitMasks GuestFrame Sched KernOp

/-!
# Who can give capabilities to whom

Masks enter the session table through three registry operations.  SPAWN gives
a new session a mask within the caller's.  CHCAPS sets arbitrary bits, but
only for a caller that holds the power capability.  LOGIN sets an arbitrary
mask for the owner of the login port.  Bits that no session holds besides init
therefore stay unheld unless init, a wide LOGIN or a CHCAPS brings them in.
-/

/-! ## Sessions that hold none of some bits -/

namespace Sched

/-- No session besides init holds any of these bits. -/
def HeldByNone (bits : UInt64) (sched : Sched) : Prop :=
  ∀ sid, sched.isInit sid = false → Apart (sched.capmaskOf sid) bits

variable {sched : Sched} {bits : UInt64}

variable {next : Sched} {sid : UInt32} {mask : UInt64}

section

variable (same : next.sessions sid.toNat = sched.sessions sid.toNat)
include same

theorem occupied_congr : next.occupied sid = sched.occupied sid := by rw [occupied, occupied, same]

theorem capmaskOf_congr : next.capmaskOf sid = sched.capmaskOf sid := by
  rw [capmaskOf, capmaskOf, occupied_congr same, same]

theorem isInit_congr : next.isInit sid = sched.isInit sid := by
  rw [isInit, isInit, occupied_congr same, same]

end

theorem sessions_setSession_of_ne (sched : Sched) (session : Session) {slot other : Nat}
    (different : other ≠ slot) :
    (sched.setSession slot session).sessions other = sched.sessions other := by
  simp [setSession, different]

theorem sessions_setSession_self (sched : Sched) (session : Session) (slot : Nat) :
    (sched.setSession slot session).sessions slot = session := by
  simp [setSession]

theorem status_of_occupied (occupied : sched.occupied sid = true) :
    (sched.sessions sid.toNat).status ≠ .free := by
  exact of_decide_eq_true (Bool.and_eq_true_iff.mp occupied).2

section

variable (held : sched.HeldByNone bits)
include held

theorem HeldByNone.apart_of_occupied
    (occupied : sched.occupied sid = true) (name : (sched.sessions sid.toNat).name ≠ ascii "init") :
    Apart (sched.sessions sid.toNat).capmask bits := by
  have apart := held sid (by simp [isInit, name])
  rwa [capmaskOf, if_pos occupied] at apart

theorem HeldByNone.setSession {slot : Nat} {session : Session}
    (lacks : session.status ≠ .free → session.name ≠ ascii "init" → Apart session.capmask bits) :
    (sched.setSession slot session).HeldByNone bits := by
  intro sid notInit
  by_cases same : sid.toNat = slot
  · subst same
    have written := sessions_setSession_self sched session sid.toNat
    unfold capmaskOf
    split
    next occupied =>
      have status := status_of_occupied occupied
      rw [written] at status ⊢
      refine lacks status fun init => ?_
      simp [isInit, occupied, written, init] at notInit
    next => exact apart_zero bits
  · have kept := sessions_setSession_of_ne sched session same
    rw [capmaskOf_congr kept]
    exact held sid (isInit_congr kept ▸ notInit)

theorem HeldByNone.of_sessions (same : next.sessions = sched.sessions) : next.HeldByNone bits := by
  intro sid notInit
  have kept := congrFun same sid.toNat
  rw [capmaskOf_congr kept]
  exact held sid (isInit_congr kept ▸ notInit)

theorem HeldByNone.setIdentity (sid uid : UInt32) (apart : Apart mask bits) :
    (sched.setIdentity sid uid mask).HeldByNone bits := by
  unfold Sched.setIdentity
  split
  · exact held.setSession fun _ _ => apart
  · exact held

theorem HeldByNone.setCapmask (sid : UInt32) (clear : UInt64)
    {set : UInt64} (apart : Apart set bits) (source : UInt8) :
    (sched.setCapmask sid clear set source).2.HeldByNone bits := by
  unfold Sched.setCapmask
  split
  next occupied =>
    refine held.setSession fun _ name => ?_
    exact (held.apart_of_occupied occupied name).clear_set apart clear
  next => exact held

theorem HeldByNone.spawned {name : Bytes} {argv : List Bytes} {result : Option Nat × Sched}
    (spawned : sched.Spawned name mask argv result) (apart : Apart mask bits) :
    result.2.HeldByNone bits := by
  cases spawned with
  | kept => exact held
  | idle _ _ given | started _ _ _ _ given => exact held.setSession fun _ _ => given ▸ apart

end

theorem Spawned.within {name : Bytes} {argv : List Bytes} {result : Option Nat × Sched}
    (spawned : sched.Spawned name mask argv result) (sid : UInt32) :
    Within (result.2.capmaskOf sid) (sched.capmaskOf sid ||| mask) := by
  have written (slot : Nat) (session : Session) (new : session.capmask = mask) :
      Within ((sched.setSession slot session).capmaskOf sid) (sched.capmaskOf sid ||| mask) := by
    by_cases same : sid.toNat = slot
    · subst same
      unfold capmaskOf
      rw [sessions_setSession_self, new]
      split
      · exact within_or_right _ _
      · simp [Within]
    · rw [capmaskOf_congr (sessions_setSession_of_ne sched session same)]
      exact within_or_left _ _
  cases spawned with
  | kept => exact within_or_left _ _
  | idle _ _ given | started _ _ _ _ given => exact written _ _ given

theorem HeldByNone.exitSession (held : sched.HeldByNone bits)
    (occupied : sched.occupied sid = true) : (sched.exitSession sid.toNat).HeldByNone bits :=
  held.setSession fun _ name => held.apart_of_occupied occupied name

theorem HeldByNone.reapZombies (held : sched.HeldByNone bits) :
    sched.reapZombies.HeldByNone bits := by
  intro sid notInit
  by_cases reaped : sid.toNat ∈ slots ∧ (sched.sessions sid.toNat).status = .zombie
  · have free : sched.reapZombies.occupied sid = false := by
      simp [occupied, Sched.reapZombies, reaped]
    rw [capmaskOf, if_neg (by simp [free])]
    exact apart_zero bits
  · have same : sched.reapZombies.sessions sid.toNat = sched.sessions sid.toNat := if_neg reaped
    rw [capmaskOf_congr same]
    exact held sid (isInit_congr same ▸ notInit)

end Sched

/-! ## Requests -/

def loginMask (payload : Bytes) : UInt64 := (get32 payload 20).toUInt64

def chcapsSet (payload : Bytes) : UInt64 := (get32 payload 8).toUInt64

/--
A registry request that cannot bring in bits nobody holds: SPAWN and LOGIN do
not come from init, LOGIN asks for a mask within its sender's, and CHCAPS of a
session with the power capability sets none of the bits.
-/
def Kernel.Guarded (bits : UInt64) (kernel : Kernel) (sid : UInt32) (op : UInt16)
    (payload : Bytes) : Prop :=
  (op = 4 → kernel.sched.isInit sid = false) ∧ (op = 5 → kernel.sched.isInit sid = false ∧
      Within (loginMask payload) (kernel.sched.capmaskOf sid)) ∧
    (op = 10 → kernel.sched.capmaskOf sid &&& capPower ≠ 0 → Apart (chcapsSet payload) bits)

def KernOp.registryRequest (kernel : Kernel) : KernOp → Option (UInt32 × UInt16 × Bytes)
  | .send env sid h data =>
    match (kernel.ports.portSend (kernel.sched.uidOf sid) env.allocOk sid h data).1 with
    | .dispatched endpoint frame =>
      if endpoint = ascii "registry" ∧ 24 ≤ frame.length then
        some (sid, get16 frame 0, frame.drop 24)
      else none
    | _ => none
  | _ => none

/-- An operation of the kernel whose registry request, if any, is guarded. -/
def KernOp.GuardedStep (bits : UInt64) (before : Kernel) (op : KernOp) (after : Kernel) : Prop :=
  (∀ sid request payload, op.registryRequest before = some (sid, request, payload) →
    before.Guarded bits sid request payload) ∧
  op.run before = after

namespace Kernel

variable {kernel : Kernel} {bits : UInt64}

theorem schedKill_heldByNone (held : kernel.sched.HeldByNone bits) (sid fromSid : UInt32) :
    (kernel.schedKill sid fromSid).2.sched.HeldByNone bits := by
  unfold schedKill
  split
  next => exact held
  next alive =>
    split
    next => exact held
    next =>
      refine held.exitSession ?_
      simp only [Sched.alive, Bool.not_eq_false, Bool.and_eq_true] at alive
      exact alive.1.2

variable {sid : UInt32} {payload : Bytes}

/-- What a session holds after a spawn it held before, or the caller did. -/
theorem registrySpawn_within (kernel : Kernel) (env : SvcEnv) (sid : UInt32) (payload : Bytes)
    (target : UInt32) : Within ((kernel.registrySpawn env sid payload).2.sched.capmaskOf target)
      (kernel.sched.capmaskOf target ||| kernel.sched.capmaskOf sid) := by
  rcases registrySpawn_cases kernel env sid payload with same | ⟨_, _, _, _, within, started⟩
  · rw [same]
    exact within_or_left _ _
  · rw [started]
    have wanted := Within.or_mono (kernel.sched.capmaskOf target) within
    exact Within.trans ((spawnImage_spawned ..).within target) wanted

theorem registryChcaps_of_powerless (powerless : kernel.sched.capmaskOf sid &&& capPower = 0)
    (payload : Bytes) : kernel.registryChcaps sid payload = (.knack, kernel) :=
  if_pos powerless

theorem registry_heldByNone (held : kernel.sched.HeldByNone bits) (env : SvcEnv) {op : UInt16}
    (guarded : kernel.Guarded bits sid op payload) :
    (kernel.registry env sid op payload).2.sched.HeldByNone bits := by
  obtain ⟨spawn, login, chcaps⟩ := guarded
  have registered := kernel.registry_registered env sid op payload
  generalize (kernel.registry env sid op payload).2 = after at registered ⊢
  cases registered with
  | kept => exact held
  | killed => exact schedKill_heldByNone held _ _
  | spawned spawns within =>
    exact held.spawned (spawnImage_spawned ..) (Within.apart within (held sid (spawn spawns)))
  | labelled logs =>
    obtain ⟨notInit, within⟩ := login logs
    exact held.setIdentity _ _ (within.apart (held sid notInit))
  | minted logs =>
    obtain ⟨notInit, within⟩ := login logs
    have apart := within.apart (held sid notInit)
    exact (held.setIdentity _ _ apart).setCapmask _ 0 apart capSrcInit
  | tuned => exact held.of_sessions (knobSet_sessions _ _)
  | recapped changes powerful => exact held.setCapmask _ _ (chcaps changes powerful) capSrcChcaps

theorem kernsvcDispatch_sched (env : SvcEnv) (endpoint : Bytes) (sid : UInt32) (h : Int)
    (data : Bytes) : (kernel.kernsvcDispatch env endpoint sid h data).sched =
      if endpoint = ascii "registry" ∧ 24 ≤ data.length then
        (kernel.registry env sid (get16 data 0) (data.drop 24)).2.sched
      else kernel.sched := by
  have replied (served : Kernel) (route : ReplyRoute) (answer : Bytes) :
      (served.kernsvcReply env route answer).sched = served.sched := by
    unfold kernsvcReply
    split
    · rfl
    · split <;> rfl
  unfold kernsvcDispatch
  by_cases short : data.length < 24
  · rw [if_pos short, if_neg fun both => absurd short (Nat.not_lt.mpr both.2)]
  have served : (kernel.serve env endpoint sid (get16 data 0) (data.drop 24)).2.sched =
      if endpoint = ascii "registry" ∧ 24 ≤ data.length then
        (kernel.registry env sid (get16 data 0) (data.drop 24)).2.sched
      else kernel.sched := by
    unfold serve power
    split
    next registered => rw [if_pos ⟨registered, Nat.le_of_not_lt short⟩]
    next other =>
      have elsewhere : ¬(endpoint = ascii "registry" ∧ 24 ≤ data.length) := fun both => other both.1
      simp only [elsewhere, if_false]
      split_ifs <;> rfl
  rw [if_neg short, ← served]
  dsimp only
  split
  · rfl
  · exact replied _ _ _

end Kernel

/-! ## Whole histories -/

theorem registryRequest_of_dispatched {kernel : Kernel} {env : SvcEnv} {sid : UInt32} {h : Int}
    {data endpoint frame : Bytes} {ports : Ports}
    (sent : kernel.ports.portSend (kernel.sched.uidOf sid) env.allocOk sid h data =
      (.dispatched endpoint frame, ports)) : (send env sid h data).registryRequest kernel =
      if endpoint = ascii "registry" ∧ 24 ≤ frame.length then
        some (sid, get16 frame 0, frame.drop 24)
      else none := by
  simp [registryRequest, sent]

theorem KernOp.GuardedStep.heldByNone {before after : Kernel} {op : KernOp} {bits : UInt64}
    (held : before.sched.HeldByNone bits) (step : KernOp.GuardedStep bits before op after) :
    after.sched.HeldByNone bits := by
  obtain ⟨guarded, rfl⟩ := step
  unfold run
  split
  · exact held
  cases op with
  | send env sid h data =>
    dsimp only [Kernel.send]
    split
    next endpoint frame ports sent =>
      rw [Kernel.kernsvcDispatch_sched]
      split
      next registered =>
        refine Kernel.registry_heldByNone held env ?_
        refine guarded _ _ _ ?_
        rw [registryRequest_of_dispatched sent, if_pos registered]
      next => exact held
    next => exact held
  | exit sid =>
    dsimp only
    split
    next occupied => exact held.exitSession occupied
    next => exact held
  | reap => exact held.reapZombies
  | preload name =>
    refine held.of_sessions ?_
    dsimp only [preloadImage]
    split <;> rfl
  | create | bind | recv | expect | poll | reclaim => exact held

/--
A SPAWN request gives no session a bit that its sender lacks, CHCAPS is
refused without the power capability, and over every history bits that nobody
besides init holds stay unheld: grants of init, logins beyond the sender's
mask and CHCAPS requests for these bits are the only ways in.
-/
theorem unheld_bits_stay_unheld {bits : UInt64} {initial final : Kernel} {ops : List KernOp}
    (held : initial.sched.HeldByNone bits) (run : Run (KernOp.GuardedStep bits) initial ops final) :
    final.sched.HeldByNone bits ∧ (∀ (kernel : Kernel) env sid payload target, Within
        ((kernel.registrySpawn env sid payload).2.sched.capmaskOf target)
        (kernel.sched.capmaskOf target ||| kernel.sched.capmaskOf sid)) ∧
      (∀ (kernel : Kernel) sid payload, kernel.sched.capmaskOf sid &&& capPower = 0 →
        kernel.registryChcaps sid payload = (.knack, kernel)) := by
  refine ⟨?_, ?_, ?_⟩
  · exact run.invariant (fun held step => step.heldByNone held) held
  · exact fun kernel env sid payload target => kernel.registrySpawn_within env sid payload target
  · exact fun kernel sid payload powerless => Kernel.registryChcaps_of_powerless powerless payload

/-! ## An administrator and an application -/

def plainEnv : SvcEnv where
  allocOk := true
  argvAlloc := true
  spawn := ⟨true, true, true⟩
  garbage := []
  nameTail := fun _ => []
  assignPci := 0
  sysstat := []
  logdump := fun _ => []
  perfstat := []
  devices := []

def twoSessions (mask : UInt64) : Kernel where
  sched :=
    let named := schedInit.preloadImage (ascii "app")
    let first := (named.spawnImpl plainEnv.spawn (ascii "admin") 1 mask []).2
    (first.spawnImpl plainEnv.spawn (ascii "app") 2 0 []).2
  ports := portsInit
  halted := false

def registryFrame (op : UInt16) (payload : Bytes) : Bytes :=
  put16 op ++ put16 1 ++ put32 0 ++ List.replicate 16 0 ++ payload

def requestOps (op : UInt16) (payload : Bytes) : List KernOp :=
  [.bind 1 (ascii "registry"), .send plainEnv 1 0 (registryFrame op payload)]

def kernelAfter (kernel : Kernel) (ops : List KernOp) : Kernel := ops.foldl run kernel

theorem twoSessions_heldByNone {mask bits : UInt64} (apart : Apart mask bits) :
    (twoSessions mask).sched.HeldByNone bits := by
  have empty : schedInit.HeldByNone bits := by
    intro sid _
    simp [capmaskOf, occupied, schedInit, Session.unused, apart_zero]
  have preloaded : (schedInit.preloadImage (ascii "app")).HeldByNone bits := empty.of_sessions rfl
  have first := preloaded.spawned (spawnImpl_spawned plainEnv.spawn (ascii "admin") 1 mask [])
    apart
  exact first.spawned (spawnImpl_spawned plainEnv.spawn (ascii "app") 2 0 []) (apart_zero bits)

/--
A session that holds only the power capability gives another session the
kill capability, which nobody held.
-/
theorem chcaps_grants_unheld_bit : (twoSessions capPower).sched.HeldByNone capKill ∧
    (twoSessions capPower).sched.isInit 1 = false ∧
    (twoSessions capPower).sched.capmaskOf 1 = capPower ∧ (kernelAfter (twoSessions capPower)
      (requestOps 10 (put32 2 ++ put32 0 ++ put32 1))).sched.capmaskOf 2 = capKill :=
  ⟨twoSessions_heldByNone (by decide), by decide +kernel, by decide +kernel, by decide +kernel⟩

def spawnApp : Bytes := ascii "app" ++ List.replicate 77 0 ++ put32 64

/-- A session with the spawn capability spawns another one with it. -/
theorem unheld_bits_stay_unheld_by_spawn : Run (KernOp.GuardedStep capKill) (twoSessions capSpawn)
      (requestOps 4 spawnApp) (kernelAfter (twoSessions capSpawn) (requestOps 4 spawnApp)) ∧
    (kernelAfter (twoSessions capSpawn) (requestOps 4 spawnApp)).sched.capmaskOf 3 = capSpawn ∧
    (kernelAfter (twoSessions capSpawn) (requestOps 4 spawnApp)).sched.HeldByNone capKill := by
  have run : Run (KernOp.GuardedStep capKill) (twoSessions capSpawn) (requestOps 4 spawnApp)
      (kernelAfter (twoSessions capSpawn) (requestOps 4 spawnApp)) := by
    refine .cons ⟨?_, rfl⟩ (.cons ⟨?_, rfl⟩ (.nil _))
    · rintro _ _ _ ⟨⟩
    · intro sid request payload made
      have spawned : (send plainEnv 1 0 (registryFrame 4 spawnApp)).registryRequest
          (run (twoSessions capSpawn) (.bind 1 (ascii "registry"))) =
          some (1, 4, spawnApp) := by
        decide +kernel
      obtain ⟨rfl, rfl, rfl⟩ : sid = 1 ∧ request = 4 ∧ payload = spawnApp := by
        simpa using (spawned.symm.trans made).symm
      exact ⟨fun _ => by decide +kernel, by simp, by simp⟩
  have held : (twoSessions capSpawn).sched.HeldByNone capKill := twoSessions_heldByNone (by decide)
  exact ⟨run, by decide +kernel, (unheld_bits_stay_unheld held run).1⟩

end KernelLane.Kern
