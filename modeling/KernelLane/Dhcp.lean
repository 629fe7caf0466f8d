import KernelLane.TcpSegment

namespace KernelLane.Dhcp

open UInt64

/-!
# The address lease of the net service

A lease is renewed after half of its time and given up for a new one after
seven eighths.  The service keeps how long a lease lasts but not when it was
granted, and compares the clock itself with the two deadlines.
-/

/-! ## Leases -/

/-- A lease; all times are milliseconds. -/
structure Lease where
  grantedMs : UInt64
  /-- The host has a clock. -/
  clock : Bool
  renewFailures : UInt64
  renewNextMs : UInt64
  renewBackoffMs : UInt64

namespace Lease

def t1Ms (l : Lease) : UInt64 := l.grantedMs / 2

def t2Ms (l : Lease) : UInt64 := l.grantedMs * 7 / 8

def backoffMs (l : Lease) (now : UInt64) : UInt64 :=
  if l.renewNextMs = 0 ∨ l.clock = false then 0
  else if now < l.renewNextMs then l.renewNextMs - now
  else 0

/-- Whether to renew, and whether to ask any server instead. -/
def due (l : Lease) (now : UInt64) : Bool × Bool :=
  if l.grantedMs = 0 ∨ l.clock = false then (false, false)
  else if 0 < l.backoffMs now then (false, false)
  else if l.t2Ms ≤ now then (false, true)
  else (l.t1Ms ≤ now, false)

end Lease

variable {l : Lease} {leaseTime : UInt32} {now : UInt64}

end KernelLane.Dhcp
