/-!
# Leases

Who consumes a queue has to hold its lease.  A lease is held for a fixed time,
within which its holder may renew it, give it back or acquire it anew; nobody
else gets it before it has run out.
-/

namespace TaskRelay

structure Lease where
  holder : String
  /-- The instant from which on the lease is void. -/
  expires : Nat
deriving DecidableEq, Repr

structure LeaseTable where
  ttl : Nat
  leases : List (String × Lease) := []
deriving DecidableEq, Repr

inductive LockError where
  | unavailable (queue : String)
deriving DecidableEq, Repr

def LockError.message : LockError → String
  | .unavailable queue => "lock backend unavailable: " ++ queue

namespace LeaseTable

/-- The lease of a queue, void or not. -/
def get? (t : LeaseTable) (queue : String) : Option Lease :=
  t.leases.lookup queue

/-- Leaves the other queues' leases only. -/
def erase (t : LeaseTable) (queue : String) : LeaseTable :=
  { t with leases := t.leases.filter (·.1 != queue) }

def insert (t : LeaseTable) (queue : String) (lease : Lease) : LeaseTable :=
  { t with leases := (queue, lease) :: (t.erase queue).leases }

def grant (t : LeaseTable) (queue holder : String) (now : Nat) : LeaseTable :=
  t.insert queue { holder, expires := now + t.ttl }

def live? (t : LeaseTable) (queue : String) (now : Nat) : Option Lease :=
  (t.get? queue).filter (now < ·.expires)

def holder? (t : LeaseTable) (queue : String) (now : Nat) : Option String :=
  (t.live? queue now).map Lease.holder

/-- Takes the lease of a queue, unless somebody else holds it. -/
def acquire (t : LeaseTable) (queue holder : String) (now : Nat) : Bool × LeaseTable :=
  match t.live? queue now with
  | some lease => if lease.holder = holder then (true, t.grant queue holder now) else (false, t)
  | none => (true, t.grant queue holder now)

/-- Extends a lease, if it is the holder's and live. -/
def renew (t : LeaseTable) (queue holder : String) (now : Nat) : Bool × LeaseTable :=
  if t.holder? queue now = some holder then (true, t.grant queue holder now) else (false, t)

/-- Gives a lease back, if it is the holder's, void or not. -/
def release (t : LeaseTable) (queue holder : String) : LeaseTable :=
  if (t.get? queue).any (·.holder = holder) then t.erase queue else t

end LeaseTable

end TaskRelay
