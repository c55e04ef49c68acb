import Courier.Fault
import Courier.Time.Clock

/-!
# Leases

A lease store gives out leases on lock ids. A lease is live until its expiry; as long as it is live
no other lease on the same id is given out. Renewing a live lease moves its expiry to one period
from now. Releasing a lease that is no longer the stored one changes nothing. Where a lease would
end past the last instant, the call that gives it out or renews it breaks off and leaves the store
as it was.

Leases are told apart by serial numbers that are never used twice.
-/

namespace Courier

/-- A lease as the store keeps it. -/
structure Lease where
  serial : Nat
  period : Duration
  expiresAt : Nat
  deriving DecidableEq

/-- What the holder of a lease has in hand. -/
structure LeaseHandle where
  lockId : String
  serial : Nat
  deriving DecidableEq, Inhabited

namespace Lease

/-- Whether the lease still stands at `now`. -/
def isLive (l : Lease) (now : Nat) : Bool := now < l.expiresAt

end Lease

/-- A store of leases, at most one for each lock id. -/
structure LeaseStore where
  leases : List (String × Lease) := []
  /-- The number of leases given out so far. -/
  issued : Nat := 0
  /-- How many of the next renewals fail. -/
  failingRenewals : Nat := 0
  available : Bool := true

namespace LeaseStore

/-- The stored lease on a lock id, live or not. -/
def find? (s : LeaseStore) (lockId : String) : Option Lease := s.leases.lookup lockId

/-- The live lease on a lock id. -/
def live? (s : LeaseStore) (now : Nat) (lockId : String) : Option Lease :=
  (s.find? lockId).filter (·.isLive now)

/-- The serial number of the live lease on a lock id. -/
def holder? (s : LeaseStore) (now : Nat) (lockId : String) : Option Nat :=
  (s.live? now lockId).map (·.serial)

def erase (s : LeaseStore) (lockId : String) : LeaseStore :=
  { s with leases := s.leases.filter fun (id, _) => id != lockId }

def put (s : LeaseStore) (lockId : String) (l : Lease) : LeaseStore :=
  { s with leases := (lockId, l) :: s.leases.filter fun (id, _) => id != lockId }

/-- What every call of an unavailable store fails with. -/
def outage : LockFault := .storage (.ofText "lock store unreachable")

/-- Makes the store ready for use. -/
def prepare (s : LeaseStore) : Except LockFault Unit :=
  if s.available then .ok () else .error outage

/-- A lease on a lock id for one period from now, unless a live lease is held on it. -/
def acquire (s : LeaseStore) (now : Nat) (lockId : String) (period : Duration) :
    LeaseStore × Except (Failure LockFault) (Option LeaseHandle) :=
  if !s.available then (s, .error (.fault outage))
  else match s.live? now lockId with
    | some _ => (s, .ok none)
    | none =>
      match Instant.plus? now period with
      | none => (s, .error (.overflow .instant))
      | some expiry =>
        let serial := s.issued + 1
        ({ s.put lockId ⟨serial, period, expiry⟩ with issued := serial },
          .ok (some ⟨lockId, serial⟩))

/-- Moves the expiry of a live lease to one period from now. The answer is whether the lease was
still the live one. -/
def renew (s : LeaseStore) (now : Nat) (h : LeaseHandle) :
    LeaseStore × Except (Failure LockFault) Bool :=
  if !s.available then (s, .error (.fault outage))
  else match s.failingRenewals with
    | n + 1 =>
      ({ s with failingRenewals := n },
        .error (.fault (.storage (.ofText ("renewal of " ++ h.lockId ++ " failed")))))
    | 0 =>
      match s.live? now h.lockId with
      | some l =>
        if l.serial = h.serial then
          match Instant.plus? now l.period with
          | none => (s, .error (.overflow .instant))
          | some expiry => (s.put h.lockId { l with expiresAt := expiry }, .ok true)
        else (s, .ok false)
      | none => (s, .ok false)

/-- Gives up a lease. -/
def release (s : LeaseStore) (h : LeaseHandle) : LeaseStore × Except LockFault Unit :=
  if !s.available then (s, .error outage)
  else match s.find? h.lockId with
    | some l => if l.serial = h.serial then (s.erase h.lockId, .ok ()) else (s, .ok ())
    | none => (s, .ok ())

/-- Breaks whatever lease there is on a lock id. -/
def revoke (s : LeaseStore) (lockId : String) : LeaseStore := s.erase lockId

def failNextRenewals (s : LeaseStore) (count : Nat) : LeaseStore :=
  { s with failingRenewals := count }

def setAvailable (s : LeaseStore) (available : Bool) : LeaseStore :=
  { s with available := available }

end LeaseStore

end Courier
