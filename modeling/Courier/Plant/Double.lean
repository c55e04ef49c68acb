import Courier.Lease

/-!
# Doubles

Parts and stores that behave by plan. A plan is a list of turns, one for each call: how long the
call takes, and whether it then fails. When the turns are used up every call succeeds at once.
-/

namespace Courier

/-- How one call goes. -/
structure Turn where
  delay : Duration := .zero
  fault : Option Cause := none
  /-- For renewals: the lease is said to be lost, whatever the store thinks. -/
  lost : Bool := false

namespace Turn

/-- The next turn of a plan. -/
def next : List Turn → Turn × List Turn
  | [] => ({}, [])
  | t :: rest => (t, rest)

/-- The end of the turn as an answer. -/
def answer (t : Turn) : Except Cause Unit :=
  match t.fault with
  | some cause => .error cause
  | none => .ok ()

end Turn

/-- A component that does nothing but start and stop by plan. -/
structure Double where
  name : String
  lockId : String
  singleton : Bool := false
  starts : List Turn := []
  stops : List Turn := []

/-- A store of leases whose calls go by plan before they reach the store. -/
structure Locks where
  store : LeaseStore := {}
  acquires : List Turn := []
  renewals : List Turn := []
  releases : List Turn := []

namespace Locks

/-- Acquires a lease at the end of a turn. -/
def acquire (l : Locks) (turn : Turn) (now : Nat) (lockId : String) (period : Duration) :
    Except Overflow (Locks × Option LeaseHandle) :=
  match turn.fault with
  | some _ => .ok (l, none)
  | none =>
    match l.store.acquire now lockId period with
    | (s, .ok lease) => .ok ({ l with store := s }, lease)
    | (s, .error (.fault _)) => .ok ({ l with store := s }, none)
    | (_, .error (.overflow o)) => .error o

/-- Renews a lease at the end of a turn; the answer is missing where the call fails. -/
def renew (l : Locks) (turn : Turn) (now : Nat) (lease : LeaseHandle) :
    Except Overflow (Locks × Option Bool) :=
  match turn.fault with
  | some _ => .ok (l, none)
  | none =>
    if turn.lost then .ok (l, some false)
    else
      match l.store.renew now lease with
      | (s, .ok good) => .ok ({ l with store := s }, some good)
      | (s, .error (.fault _)) => .ok ({ l with store := s }, none)
      | (_, .error (.overflow o)) => .error o

/-- Releases a lease at the end of a turn. -/
def release (l : Locks) (turn : Turn) (lease : LeaseHandle) : Locks :=
  match turn.fault with
  | some _ => l
  | none => { l with store := (l.store.release lease).1 }

end Locks

end Courier
