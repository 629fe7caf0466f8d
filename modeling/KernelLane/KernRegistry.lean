import KernelLane.FsClient
import KernelLane.KernCalls
import Mathlib.Data.List.TakeWhile

namespace KernelLane.Kern

open GuestFrame List

/-!
# Requests to the registry

The registry client of the guest library frames an operation and a payload
without a reply name and sends the datagram on its handle to the registry.
The kernel stamps the caller's owner into the header and serves the request
before the send returns.
-/

def registryCall (op seq : UInt16) (payload : Bytes) : Bytes := Fs.frameCanonical op seq [] payload

theorem length_registryCall (op seq : UInt16) (payload : Bytes) :
    (registryCall op seq payload).length = 24 + payload.length :=
  Fs.length_frameCanonical (Nat.zero_le 16)

/-- The handle of a guest session leads to the registry. -/
structure OnRegistry (kernel : Kernel) (sid : UInt32) (h : Int) : Prop where
  guest : sid ≠ 0
  reached : ∃ index, kernel.ports.portOf sid h = some index ∧
    (kernel.ports.ports index).kernelEndpoint = true ∧
    (kernel.ports.ports index).name = ascii "registry"

variable {kernel : Kernel} {env : SvcEnv} {sid : UInt32} {h : Int}
  {op seq : UInt16} {payload : Bytes}

theorem OnRegistry.portSend (bound : OnRegistry kernel sid h) (fits : 24 + payload.length ≤ msgMax)
    (uid : UInt32) (allocOk : Bool) :
    kernel.ports.portSend uid allocOk sid h (registryCall op seq payload) =
      (.dispatched (ascii "registry") (stampUid uid (registryCall op seq payload)),
        kernel.ports) := by
  obtain ⟨index, held, endpoint, registry⟩ := bound.reached
  have length := length_registryCall op seq payload
  unfold Ports.portSend
  rw [held]
  dsimp only
  rw [if_neg (by omega), if_pos ⟨endpoint, bound.guest⟩, registry]

theorem OnRegistry.portSend_long (bound : OnRegistry kernel sid h)
    (long : msgMax < 24 + payload.length) (uid : UInt32) (allocOk : Bool) :
    kernel.ports.portSend uid allocOk sid h (registryCall op seq payload) =
      (.refused, kernel.ports) := by
  obtain ⟨index, held, _, _⟩ := bound.reached
  have length := length_registryCall op seq payload
  unfold Ports.portSend
  rw [held]
  dsimp only
  rw [if_pos (by omega)]

theorem get16_stamped_registryCall (uid : UInt32) :
    get16 (stampUid uid (registryCall op seq payload)) 0 = op := by
  have length := length_registryCall op seq payload
  rw [stampUid, if_pos (by omega)]
  have first : (registryCall op seq payload).take 4 = put16 op ++ put16 seq := by
    unfold registryCall Fs.frameCanonical
    simp only [append_assoc]
    rw [← append_assoc]
    exact take_left' (by simp)
  rw [first]
  simp only [append_assoc]
  exact get16_put16 [] op _ 0 rfl

theorem drop_stamped_registryCall (uid : UInt32) :
    (stampUid uid (registryCall op seq payload)).drop 24 = payload := by
  have header : (put16 op ++ put16 seq ++ put32 0 ++ Fs.padName []).length = 24 := by
    simp [Fs.padName]
  have behind : (stampUid uid (registryCall op seq payload)).drop 24 =
      ((stampUid uid (registryCall op seq payload)).drop 8).drop 16 := by
    rw [drop_drop]
  rw [behind, stampUid_drop, drop_drop]
  exact drop_left' header

theorem OnRegistry.send_sched (bound : OnRegistry kernel sid h)
    (fits : 24 + payload.length ≤ msgMax) (env : SvcEnv) (op seq : UInt16) :
    (kernel.send env sid h (registryCall op seq payload)).sched =
      (kernel.registry env sid op payload).2.sched := by
  have length := length_registryCall op seq payload
  unfold Kernel.send
  rw [bound.portSend fits]
  rw [Kernel.kernsvcDispatch_sched, get16_stamped_registryCall, drop_stamped_registryCall, if_pos]
  rw [length_stampUid]
  exact ⟨rfl, by omega⟩

theorem cstr_eq_self_iff {name : Bytes} : cstr name = name ↔ (0 : UInt8) ∉ name := by
  unfold cstr
  rw [takeWhile_eq_self_iff]
  constructor
  · intro all member
    simpa using all 0 member
  · intro lacks byte member
    have nonzero : byte ≠ 0 := fun isZero => lacks (isZero ▸ member)
    simpa using nonzero

end KernelLane.Kern
