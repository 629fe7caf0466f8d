import KernelLane.FsServer

namespace KernelLane.Fs

open GuestFrame Kfs Option

/-!
# The calls of the file server

A request reaches the store through a few calls, each on the path that the
policy hands out for it.  A property of the store that those calls keep is
kept by the request, and by every run of requests.
-/

/-- A call of the store. -/
inductive StoreCall where
  | create (path : Bytes)
  | mkdir (path : Bytes)
  | delete (path : Bytes)
  | stat (path : Bytes)
  | list (path : Bytes)
  | readFile (path : Bytes) (off : UInt64) (count : Nat)
  | writeFile (path : Bytes) (off : UInt64) (data : Bytes)
  deriving DecidableEq, Repr

namespace StoreCall

/-- The state that a call leaves. -/
def run {State : Type} (store : Store State) : StoreCall → State → State
  | .create path, state => (store.create path state).2
  | .mkdir path, state => (store.mkdir path state).2
  | .delete path, state => (store.delete path state).2
  | .stat path, state => (store.stat path state).2
  | .list path, state => (store.list path state).2
  | .readFile path off count, state => (store.readFile path off count state).2
  | .writeFile path off data, state => (store.writeFile path off data state).2

def path : StoreCall → Bytes
  | .create path => path
  | .mkdir path => path
  | .delete path => path
  | .stat path => path
  | .list path => path
  | .readFile path _ _ => path
  | .writeFile path _ _ => path

def changes : StoreCall → Bool
  | .create _ => true
  | .mkdir _ => true
  | .delete _ => true
  | .writeFile _ _ _ => true
  | _ => false

def data : StoreCall → Bytes
  | .writeFile _ _ data => data
  | _ => []

end StoreCall

/--
The calls that a request may make: on the path that the policy hands out,
and for a registration on the home of the new user.
-/
inductive Requested (go : GoStrings) (sessions : Sessions) (uid : UInt32)
    (payload : Bytes) : StoreCall → Prop where
  | authorized {raw : Bytes} {plen : Nat} {write : Bool} {call : StoreCall}
    (parsed : lStr payload 0 = some (raw, plen))
    (allowed : authorize go sessions uid raw write = .ok call.path)
    (covers : call.changes = true → write = true) (short : call.data.length ≤ payload.length) :
    Requested go sessions uid payload call
  | home {who : UInt32} {name : Bytes} {mask : UInt64} {call : StoreCall} (privileged : uid = 0)
    (registered : registration payload = some (who, name, mask))
    (provides : call = .stat (homePath (go.toLower name)) ∨
      call = .mkdir (homePath (go.toLower name))) :
    Requested go sessions uid payload call

section Requests

variable {State : Type} {go : GoStrings} {store : Store State} {uid : UInt32} {payload : Bytes}

/-- The calls of a request keep this property. -/
def CallsKeep (go : GoStrings) (store : Store State) (sessions : Sessions)
    (uid : UInt32) (payload : Bytes) (Good : State → Prop) : Prop :=
  ∀ call, Requested go sessions uid payload call → ∀ state, Good state → Good (call.run store state)

/-- The state is good, and so is the answer. -/
def Keeps (Good : State → Prop) (Fine : Answer → Prop) (served : Answer × State) : Prop :=
  Good served.2 ∧ Fine served.1

/-- The answer carries no more than the facts about a file. -/
def Small (answer : Answer) : Prop := answer.body.length ≤ 9

theorem small_refusal (status : Int) : Small (refusal status) := Nat.zero_le 9

theorem onStore_keeps {Good : State → Prop} {Fine : Answer → Prop} {Result : Type}
    {effect : Effect State FsError Result} {render : Result → State → Answer × State}
    {state : State} (refuses : ∀ status, Fine (refusal status)) (first : Good (effect state).2)
    (later : ∀ result next, Good next → Keeps Good Fine (render result next)) :
    Keeps Good Fine (onStore effect render state) := by
  unfold onStore
  split
  next result next ran =>
    rw [ran] at first
    exact later result next first
  next failure next ran =>
    rw [ran] at first
    exact ⟨first, refuses _⟩

theorem authPath_eq_ok {sessions : Sessions} {write : Bool} {path : Bytes}
    (allowed : authPath go sessions uid payload write = .ok path) :
    ∃ raw plen, lStr payload 0 = some (raw, plen) ∧
      authorize go sessions uid raw write = .ok path := by
  unfold authPath at allowed
  split at allowed
  · cases allowed
  next raw plen parsed => exact ⟨raw, plen, parsed, allowed⟩

section Kept

variable {Good : State → Prop} {sessions : Sessions} {state : State}
  (kept : CallsKeep go store sessions uid payload Good)
  (good : Good state)

include kept good

theorem serveStat_keeps : Keeps Good Small (serveStat go store sessions uid payload state) := by
  unfold serveStat
  split
  · exact ⟨good, small_refusal _⟩
  next path allowed =>
    obtain ⟨raw, plen, parsed, accepted⟩ := authPath_eq_ok allowed
    refine onStore_keeps small_refusal ?_ fun _ _ later => ⟨later, by simp [Small]⟩
    exact kept (.stat path) (.authorized parsed accepted nofun (Nat.zero_le _)) state good

theorem serveList_keeps :
    Keeps Good (fun _ => True) (serveList go store sessions uid payload state) := by
  unfold serveList
  split
  · exact ⟨good, trivial⟩
  next path allowed =>
    obtain ⟨raw, plen, parsed, accepted⟩ := authPath_eq_ok allowed
    refine onStore_keeps (fun _ => trivial) ?_ fun _ _ later => ⟨later, trivial⟩
    exact kept (.list path) (.authorized parsed accepted nofun (Nat.zero_le _)) state good

variable {answer : Answer} {after : State}

theorem serveRead_keeps (served :
      serveRead go store sessions uid payload state = some (answer, after)) :
    Keeps Good (fun _ => True) (answer, after) := by
  unfold serveRead at served
  split at served
  · cases served
  next raw plen parsed =>
  split at served
  · cases served
  split at served
  · cases served
    exact ⟨good, trivial⟩
  next path accepted =>
  rw [← some.inj served]
  refine onStore_keeps (fun _ => trivial) ?_ fun _ _ later => ⟨later, trivial⟩
  exact kept (.readFile path _ _) (.authorized parsed accepted nofun (Nat.zero_le _)) state good

theorem serveWrite_keeps (served :
      serveWrite go store sessions uid payload state = some (answer, after)) :
    Keeps Good Small (answer, after) := by
  unfold serveWrite at served
  split at served
  · cases served
  next raw plen parsed =>
  split at served
  · cases served
  split at served
  · cases served
    exact ⟨good, small_refusal _⟩
  next path accepted =>
  dsimp only at served
  split at served
  · cases served
  have short : ((payload.drop (plen + 10)).take
      (get16 payload (plen + 8)).toNat).length ≤ payload.length := by
    rw [List.length_take, List.length_drop]
    omega
  rw [← some.inj served]
  refine onStore_keeps small_refusal ?_ fun _ next later =>
    onStore_keeps small_refusal ?_ fun _ _ last => ⟨last, by simp [Small]⟩
  · exact kept (.writeFile path _ _) (.authorized parsed accepted (fun _ => rfl) short) state good
  · exact kept (.stat path) (.authorized parsed accepted nofun (Nat.zero_le _)) next later

theorem servePath_keeps {operation : Bytes → Effect State FsError Unit} (call : Bytes → StoreCall)
    (runs : ∀ path state, (call path).run store state = (operation path state).2)
    (named : ∀ path, (call path).path = path) (writesNothing : ∀ path, (call path).data = [])
    (served : servePath go operation sessions uid payload state = some (answer, after)) :
    Keeps Good Small (answer, after) := by
  unfold servePath at served
  split at served
  · cases served
  next raw plen parsed =>
  split at served
  · cases served
    exact ⟨good, small_refusal _⟩
  next path accepted =>
  have short : (call path).data.length ≤ payload.length := by
    rw [writesNothing]
    exact Nat.zero_le _
  have called :=
    kept (call path) (.authorized parsed (by rw [named]; exact accepted) (fun _ => rfl) short)
      state good
  rw [runs] at called
  rw [← some.inj served]
  exact onStore_keeps small_refusal called fun _ _ later => ⟨later, Nat.zero_le 9⟩

end Kept

theorem registration_spec {who : UInt32} {name : Bytes} {mask : UInt64}
    (registered : registration payload = some (who, name, mask)) :
    who = get32 payload 0 ∧ name.length ≤ 32 := by
  unfold registration at registered
  split at registered
  · cases registered
  split at registered
  · cases registered
  split at registered
  · cases registered
  split at registered
  · cases registered
  next ok =>
    cases registered
    exact ⟨rfl, by omega⟩

theorem serveRegister_keeps {Good : State → Prop} {server : Server State}
    (kept : CallsKeep go store server.sessions uid payload Good) (good : Good server.state) :
    let served := serveRegister go store uid payload server
    Good served.2.state ∧ Small served.1 ∧
      (served.2.sessions = server.sessions ∨ uid = 0 ∧
        served.2.sessions = (registerSession go server.sessions payload).2) := by
  unfold serveRegister
  split
  · exact ⟨good, small_refusal _, .inl rfl⟩
  next privileged =>
  have isZero : uid = 0 := not_not.mp privileged
  unfold registerSession
  cases registered : registration payload with
  | none =>
    dsimp only
    rw [if_neg (by decide)]
    exact ⟨good, small_refusal _, .inl rfl⟩
  | some fields =>
    obtain ⟨who, name, mask⟩ := fields
    obtain ⟨rfl, _⟩ := registration_spec registered
    simp only [if_pos, Function.update_self]
    have looked :=
      kept (.stat (homePath (go.toLower name)))
        (.home isZero registered (.inl rfl)) server.state good
    change Good (store.stat (homePath (go.toLower name)) server.state).2 at looked
    split
    next next missing =>
      rw [missing] at looked
      have provided := kept (.mkdir (homePath (go.toLower name)))
        (.home isZero registered (.inr rfl)) next looked
      exact ⟨provided, small_refusal _, .inr ⟨isZero, rfl⟩⟩
    next result next _ found =>
      rw [found] at looked
      exact ⟨looked, small_refusal _, .inr ⟨isZero, rfl⟩⟩

/-- What a request does to the store, to the table of users, and in its answer. -/
theorem serve_keeps {Good : State → Prop} {op : UInt16} {server after : Server State}
    {answer : Answer} (kept : CallsKeep go store server.sessions uid payload Good)
    (good : Good server.state)
    (served : serve go store op uid payload server = some (answer, after)) :
    Good after.state ∧ (op ≠ opFSRead → op ≠ opFSList → Small answer) ∧
      (after.sessions = server.sessions ∨ uid = 0 ∧
        after.sessions = (registerSession go server.sessions payload).2) := by
  unfold serve at served
  split at served
  · have final := serveRegister_keeps kept good
    rw [some.inj served] at final
    exact ⟨final.1, fun _ _ => final.2.1, final.2.2⟩
  obtain ⟨⟨inner, state⟩, ran, renamed⟩ := map_eq_some_iff.mp served
  cases renamed
  split at ran
  · have final := serveStat_keeps kept good
    rw [some.inj ran] at final
    exact ⟨final.1, fun _ _ => final.2, .inl rfl⟩
  split at ran
  next isList =>
    have final := serveList_keeps kept good
    rw [some.inj ran] at final
    exact ⟨final.1, fun _ notList => absurd isList notList, .inl rfl⟩
  split at ran
  next isRead =>
    have final := serveRead_keeps kept good ran
    exact ⟨final.1, fun notRead => absurd isRead notRead, .inl rfl⟩
  suffices both : Keeps Good Small (answer, state) from ⟨both.1, fun _ _ => both.2, .inl rfl⟩
  split at ran
  · exact serveWrite_keeps kept good ran
  split at ran
  · exact servePath_keeps kept good .create (fun _ _ => rfl) (fun _ => rfl) (fun _ => rfl) ran
  split at ran
  · exact servePath_keeps kept good .mkdir (fun _ _ => rfl) (fun _ => rfl) (fun _ => rfl) ran
  split at ran
  · exact servePath_keeps kept good .delete (fun _ _ => rfl) (fun _ => rfl) (fun _ => rfl) ran
  · cases ran

theorem dispatch_cases (req : Bytes) (server : Server State) :
    (dispatch go store req server).2 = server ∨ ∃ answer after,
      serve go store (get16 req 0) (get32 req 4)
          (req.drop canonicalHeaderLen) server = some (answer, after) ∧
        (dispatch go store req server).2 = after := by
  unfold dispatch
  split
  · exact .inl rfl
  next hdr parsed =>
  obtain ⟨opIs, uidIs⟩ := parseHeader_op_uid parsed
  split
  · exact .inl rfl
  split
  · exact .inl rfl
  next answer after served =>
  rw [opIs, uidIs] at served
  exact .inr ⟨answer, after, served, rfl⟩

end Requests

end KernelLane.Fs
