import KernelLane.KernCaps
import KernelLane.KernMachine

namespace KernelLane.Kern

open GuestFrame Sched KernOp UInt32

/-!
# The life of a session slot

A free slot stays free or is taken by a new session; a taken slot keeps its
state, or its session dies and leaves a zombie; a zombie's slot is given back.
The byte that says where a mask came from belongs to the slot: neither a new
session nor the end of one touches it.
-/

/-- What one operation did to a session slot. -/
inductive SlotStep (takes dies reaps : Prop) (before after : Session) : Prop where
  | idle (free : before.status = .free) (still : after.status = .free)
    (source : after.capSource = before.capSource)
  | spawned (taking : takes) (free : before.status = .free) (started : after.status = .runnable)
    (source : after.capSource = before.capSource)
  | kept (taken : before.status ≠ .free) (same : after.status = before.status)
  | died (dead : dies) (taken : before.status ≠ .free) (zombie : after.status = .zombie)
  | reaped (given : reaps) (zombie : before.status = .zombie) (free : after.status = .free)
    (source : after.capSource = before.capSource)

namespace SlotStep

variable {takes dies reaps : Prop} {before after : Session}

theorem refl (session : Session) : SlotStep takes dies reaps session session := by
  by_cases free : session.status = .free
  · exact .idle free free rfl
  · exact .kept free rfl

theorem of_eq (same : after = before) : SlotStep takes dies reaps before after := by
  subst same
  exact refl after

theorem weaken {taken ended given : Prop} (step : SlotStep takes dies reaps before after)
    (start : takes → taken) (death : dies → ended) (giving : reaps → given) :
    SlotStep taken ended given before after := by
  cases step with
  | idle free still source => exact .idle free still source
  | spawned taking free started source => exact .spawned (start taking) free started source
  | kept taken same => exact .kept taken same
  | died dead taken zombie => exact .died (death dead) taken zombie
  | reaped reap zombie free source => exact .reaped (giving reap) zombie free source

end SlotStep

namespace Sched

variable {takes dies reaps : Prop} {sched : Sched}

variable {slot : Nat} {session : Session}

theorem slotStep_setSession
    (step : SlotStep takes dies reaps (sched.sessions slot) session) (other : Nat) :
    SlotStep takes dies reaps (sched.sessions other)
      ((sched.setSession slot session).sessions other) := by
  by_cases same : other = slot
  · subst same
    rw [sessions_setSession_self]
    exact step
  · exact .of_eq (sessions_setSession_of_ne sched session same)

/-- Sessions change their owners and masks only. -/
structure Relabelled (before after : Sched) : Prop where
  status : ∀ slot, (after.sessions slot).status = (before.sessions slot).status
  free : ∀ slot, (before.sessions slot).status = .free → after.sessions slot = before.sessions slot

namespace Relabelled

variable {first second third : Sched}

theorem of_sessions (same : second.sessions = first.sessions) : Relabelled first second :=
  ⟨fun slot => by rw [same], fun slot _ => by rw [same]⟩

theorem trans (left : Relabelled first second) (right : Relabelled second third) :
    Relabelled first third := by
  refine ⟨fun slot => (right.status slot).trans (left.status slot), ?_⟩
  intro slot free
  rw [right.free slot ((left.status slot).trans free), left.free slot free]

theorem slotStep (same : Relabelled first second) (slot : Nat) :
    SlotStep takes dies reaps (first.sessions slot) (second.sessions slot) := by
  by_cases free : (first.sessions slot).status = .free
  · exact .of_eq (same.free slot free)
  · exact .kept free (same.status slot)

theorem setSession (taken : (sched.sessions slot).status ≠ .free)
    (status : session.status = (sched.sessions slot).status) :
    Relabelled sched (sched.setSession slot session) := by
  constructor
  · intro other
    by_cases same : other = slot
    · subst same
      rw [sessions_setSession_self, status]
    · rw [sessions_setSession_of_ne sched session same]
  · intro other free
    refine sessions_setSession_of_ne sched session ?_
    rintro rfl
    exact taken free

end Relabelled

theorem setIdentity_relabelled (sid uid : UInt32) (mask : UInt64) :
    Relabelled sched (sched.setIdentity sid uid mask) := by
  unfold setIdentity
  split
  next occupied => exact .setSession (status_of_occupied occupied) rfl
  · exact .of_sessions rfl

theorem setCapmask_relabelled (sid : UInt32) (clear set : UInt64) (source : UInt8) :
    Relabelled sched (sched.setCapmask sid clear set source).2 := by
  unfold setCapmask
  split
  next occupied => exact .setSession (status_of_occupied occupied) rfl
  · exact .of_sessions rfl

theorem mem_slots : slot ∈ slots ↔ 1 ≤ slot ∧ slot < maxSessions := by
  simp [slots, maxSessions]

theorem Spawned.slotStep {name : Bytes} {capmask : UInt64} {argv : List Bytes}
    {result : Option Nat × Sched} (spawned : sched.Spawned name capmask argv result) (slot : Nat) :
    SlotStep (sched.nextSlot = some slot) dies reaps (sched.sessions slot)
      (result.2.sessions slot) := by
  cases spawned with
  | kept => exact .refl _
  | idle free still _ source => exact slotStep_setSession (.idle free still source) slot
  | @started taken session found free runs _ _ _ source =>
    by_cases same : slot = taken
    · subst same
      rw [sessions_setSession_self]
      exact .spawned found free runs source
    · exact .of_eq (sessions_setSession_of_ne sched _ same)

variable {sid : UInt32}

theorem exitSession_slotStep (occupied : sched.occupied sid = true) (slot : Nat) :
    SlotStep takes (ofNat slot = sid) reaps (sched.sessions slot)
      ((sched.exitSession sid.toNat).sessions slot) := by
  by_cases same : slot = sid.toNat
  · subst same
    rw [exitSession, sessions_setSession_self]
    exact .died (UInt32.ofNat_toNat) (status_of_occupied occupied) rfl
  · exact .of_eq (sessions_setSession_of_ne sched _ same)

theorem reapZombies_slotStep (slot : Nat) : SlotStep takes dies (slot ∈ slots) (sched.sessions slot)
    (sched.reapZombies.sessions slot) := by
  dsimp only [reapZombies]
  split
  next zombie => exact .reaped zombie.1 zombie.2 rfl rfl
  · exact .refl _

theorem occupied_of_alive (lives : sched.alive sid = true) : sched.occupied sid = true := by
  unfold alive at lives
  simp only [Bool.and_eq_true] at lives
  exact lives.1.2

end Sched

namespace Kernel

variable {takes reaps : Prop} {kernel : Kernel}

theorem schedKill_slotStep (sid fromSid : UInt32) (slot : Nat) : SlotStep takes
    (ofNat slot = sid ∧ (kernel.schedKill sid fromSid).1 = 0) reaps
    (kernel.sched.sessions slot) ((kernel.schedKill sid fromSid).2.sched.sessions slot) := by
  unfold schedKill
  split
  · exact .refl _
  next alive =>
    split
    · exact .refl _
    · have occupied := occupied_of_alive (Bool.eq_true_of_not_eq_false alive)
      exact (exitSession_slotStep occupied slot).weaken id (fun same => ⟨same, rfl⟩) id

theorem registry_slotStep (env : SvcEnv) (sid : UInt32) (op : UInt16) (payload : Bytes)
    (slot : Nat) :
    SlotStep (op = 4 ∧ kernel.sched.nextSlot = some slot) (.kill (ofNat slot) ∈
        kernel.serveOps (ascii "registry") sid op payload) reaps (kernel.sched.sessions slot)
      ((kernel.registry env sid op payload).2.sched.sessions slot) := by
  have registered := kernel.registry_registered env sid op payload
  generalize (kernel.registry env sid op payload).2 = after at registered ⊢
  cases registered with
  | kept => exact .refl _
  | killed kills long =>
    refine (kernel.schedKill_slotStep (get32 payload 0) sid slot).weaken id ?_ id
    rintro ⟨same, killed⟩
    simp [serveOps, kills, long, killed, same]
  | spawned spawns =>
    exact ((spawnImage_spawned ..).slotStep slot).weaken (fun next => ⟨spawns, next⟩) id id
  | labelled => exact (setIdentity_relabelled _ _ _).slotStep slot
  | minted =>
    have identified := kernel.sched.setIdentity_relabelled
    exact ((identified _ _ _).trans (setCapmask_relabelled _ _ _ _)).slotStep slot
  | tuned => exact .of_eq (congrFun (knobSet_sessions _ _) slot)
  | recapped => exact (setCapmask_relabelled _ _ _ _).slotStep slot

theorem kernsvcDispatch_slotStep (env : SvcEnv) (endpoint : Bytes) (sid : UInt32) (h : Int)
    (frame : Bytes) (slot : Nat) : SlotStep ((endpoint = ascii "registry" ∧ 24 ≤ frame.length) ∧
        get16 frame 0 = 4 ∧ kernel.sched.nextSlot = some slot)
      (.kill (ofNat slot) ∈ kernel.dispatchOps env endpoint sid h frame)
      reaps (kernel.sched.sessions slot)
      ((kernel.kernsvcDispatch env endpoint sid h frame).sched.sessions slot) := by
  rw [kernsvcDispatch_sched]
  split
  next registered =>
    obtain ⟨rfl, framed⟩ := registered
    refine (kernel.registry_slotStep env sid _ _ slot).weaken
      (fun next => ⟨⟨rfl, framed⟩, next⟩) ?_ id
    intro kills
    rw [dispatchOps, if_neg (by omega)]
    exact List.mem_append_left _ kills
  · exact .refl _

end Kernel

def KernOp.starts (kernel : Kernel) (op : KernOp) : Bool :=
  match op.registryRequest kernel with
  | some (_, request, _) => request = 4
  | none => false

theorem KernOp.slotStep (kernel : Kernel) (op : KernOp) (slot : Nat) : SlotStep
    (op.starts kernel = true ∧ kernel.sched.nextSlot = some slot)
    (op.ends kernel (ofNat slot) = true) (op = .reap ∧ slot ∈ slots)
    (kernel.sched.sessions slot) ((op.run kernel).sched.sessions slot) := by
  unfold run
  by_cases halted : kernel.halted
  · rw [if_pos halted]
    exact .refl _
  rw [if_neg halted]
  cases op with
  | send env sid h data =>
    dsimp only [Kernel.send]
    split
    next endpoint frame ports sent =>
      refine (kernel.kernsvcDispatch_slotStep env endpoint sid h frame slot).weaken ?_ ?_ id
      · rintro ⟨registered, spawns, next⟩
        refine ⟨?_, next⟩
        rw [starts, registryRequest_of_dispatched sent, if_pos registered]
        exact decide_eq_true spawns
      · intro kills
        simpa [ends, portOps, halted, sent] using kills
    · exact .refl _
  | exit sid =>
    dsimp only
    split
    next occupied =>
      refine (exitSession_slotStep occupied slot).weaken id ?_ id
      intro same
      simp [ends, halted, occupied, same]
    · exact .refl _
  | reap => exact (reapZombies_slotStep slot).weaken id id fun member => ⟨rfl, member⟩
  | preload name =>
    refine .of_eq (congrFun ?_ slot)
    dsimp only [preloadImage]
    split <;> rfl
  | create | bind | recv | expect | poll | reclaim => exact .refl _

def GuestOp.ends (machine : Machine) (op : GuestOp) (sid : UInt32) : Bool :=
  match op.kern with
  | none => false
  | some kern => kern.ends machine.toKernel sid

def GuestOp.starts (machine : Machine) (op : GuestOp) : Bool :=
  match op with
  | .spawn _ _ _ _ _ => true
  | .send env sid h data => (KernOp.send env sid h data).starts machine.toKernel
  | _ => false

theorem GuestOp.effect_slotStep (machine : Machine) (op : GuestOp) (slot : Nat) : SlotStep
    (op.starts machine = true ∧ machine.sched.nextSlot = some slot)
    (op.ends machine (ofNat slot) = true) (op = .reap ∧ slot ∈ Sched.slots)
    (machine.sched.sessions slot) ((op.effect machine).sched.sessions slot) := by
  by_cases quiet : op.touchesSessions = false
  · rw [(op.effect_spec machine).1 quiet]
    exact .refl _
  cases op with
  | send env sid h data =>
    refine (KernOp.slotStep machine.toKernel _ slot).weaken id id ?_
    rintro ⟨⟨⟩, _⟩
  | exit | preload =>
    refine (KernOp.slotStep machine.toKernel _ slot).weaken ?_ id ?_
    · rintro ⟨⟨⟩, _⟩
    · rintro ⟨⟨⟩, _⟩
  | reap =>
    refine (KernOp.slotStep machine.toKernel _ slot).weaken ?_ id fun given => ⟨rfl, given.2⟩
    rintro ⟨⟨⟩, _⟩
  | spawn env name uid capmask argv =>
    exact ((Sched.spawnImpl_spawned env name uid capmask argv).slotStep slot).weaken
      (fun next => ⟨rfl, next⟩) id id
  | _ => exact absurd rfl quiet

theorem GuestOp.nextSlot_of_spawned {machine : Machine} {op : GuestOp} {slot : Nat} (spawned :
      Machine.spawned machine.sched (op.effect machine).sched slot = true) :
    op.starts machine = true ∧ machine.sched.nextSlot = some slot := by
  unfold Machine.spawned at spawned
  rw [Bool.and_eq_true, decide_eq_true_eq, decide_eq_true_eq] at spawned
  obtain ⟨free, runnable⟩ := spawned
  cases op.effect_slotStep machine slot with
  | idle _ still _ => exact absurd (still.symm.trans runnable) (by decide)
  | spawned taking _ _ _ => exact taking
  | kept taken | died _ taken => exact absurd free taken
  | reaped _ zombie _ _ => exact absurd (zombie.symm.trans free) (by decide)

theorem GuestOp.slotStep (machine : Machine) (op : GuestOp) (slot : Nat) : SlotStep
    (op.starts machine = true ∧ machine.sched.nextSlot = some slot)
    (op.ends machine (ofNat slot) = true) (op = .reap ∧ slot ∈ slots)
    (machine.sched.sessions slot) ((op.run machine).sched.sessions slot) := by
  unfold GuestOp.run
  split
  · exact op.effect_slotStep machine slot
  · exact .refl _

end KernelLane.Kern
