import Courier.Config
import Courier.Lease
import Courier.Time.Backoff

/-!
# Running under a lease

A component of which only one may run is driven by a machine that asks for a lease, starts the
component once it has one, renews the lease as long as it can, and then stops the component and
gives the lease back. The machine is a set of phases; in each it asks for one thing, and the reply
decides on the next phase. What it asks for and what it makes of a reply depend on nothing else, so
the machine can be looked at without a clock, a store or a component.

Cancellation is a reply like any other, and only while the machine rests.
-/

namespace Courier

namespace Singleton

/-- Why a lease came to its end. -/
inductive Ending where
  | lost
  | cancelled
  deriving DecidableEq

/-- Where the machine stands. -/
inductive Phase where
  | acquiring
  /-- The component is being started under a fresh lease. -/
  | starting (lease : LeaseHandle)
  /-- The component runs, and the lease was good a moment ago. -/
  | holding (lease : LeaseHandle)
  /-- The lease is being renewed, and the delays are left for further tries. -/
  | renewing (lease : LeaseHandle) (delays : Backoff)
  /-- A renewal has failed, and the machine rests before the next try. -/
  | pausing (lease : LeaseHandle) (pause : Duration) (delays : Backoff)
  | stopping (lease : LeaseHandle) (ending : Ending)
  | releasing (lease : LeaseHandle) (ending : Ending)
  /-- Someone else holds the lock, or the store did not answer. -/
  | polling
  | finished
  deriving DecidableEq

/-- What the machine asks for. -/
inductive Request where
  | acquire
  | start
  | rest (period : Duration)
  /-- Renew the lease, with a reply in time. -/
  | renew (lease : LeaseHandle) (within : Duration)
  | stop
  | release (lease : LeaseHandle)
  | nothing
  deriving DecidableEq

/-- What it is told. -/
inductive Reply where
  /-- A lease, or none, be it that the lock is held or that the store failed. -/
  | acquired (lease : Option LeaseHandle)
  | started (running : Bool)
  /-- A rest is over. -/
  | elapsed
  /-- A rest was broken off. -/
  | cancelled
  /-- Whether the lease was still good, nothing where the store failed or took too long. -/
  | renewed (good : Option Bool)
  | stopped
  | released
  deriving DecidableEq

/-- What the others can see. -/
inductive LockState where
  | unlocked
  | polling
  | locked (serial : Nat)
  deriving DecidableEq

namespace Phase

/-- What is asked for in a phase. -/
def request (c : SingletonConfig) : Phase → Request
  | .acquiring => .acquire
  | .starting _ => .start
  | .holding _ => .rest c.renewInterval
  | .renewing lease _ => .renew lease c.renewTimeout
  | .pausing _ pause _ => .rest pause
  | .stopping _ _ => .stop
  | .releasing lease _ => .release lease
  | .polling => .rest c.pollInterval
  | .finished => .nothing

/-- The delays between the tries of one renewal. -/
def delays (c : SingletonConfig) : Backoff := ⟨c.renewRetryDelay, c.renewRetries.toNat⟩

/-- The phase after a reply; a reply to something else changes nothing. -/
def next (c : SingletonConfig) : Phase → Reply → Phase
  | .acquiring, .acquired (some lease) => .starting lease
  | .acquiring, .acquired none => .polling
  | .starting lease, .started true => .holding lease
  | .starting lease, .started false => .stopping lease .lost
  | .holding lease, .elapsed => .renewing lease (delays c)
  | .holding lease, .cancelled => .stopping lease .cancelled
  | .renewing lease _, .renewed (some true) => .holding lease
  | .renewing lease _, .renewed (some false) => .stopping lease .lost
  | .renewing lease left, .renewed none =>
    match left.next? with
    | some (pause, left) => .pausing lease pause left
    | none => .stopping lease .lost
  | .pausing lease _ left, .elapsed => .renewing lease left
  | .pausing lease _ _, .cancelled => .stopping lease .cancelled
  | .stopping lease ending, .stopped => .releasing lease ending
  | .releasing _ .lost, .released => .polling
  | .releasing _ .cancelled, .released => .finished
  | .polling, .elapsed => .acquiring
  | .polling, .cancelled => .finished
  | p, _ => p

/-- What is made known when a reply leads to another phase. A lease is made known once its component
runs, and not again when it is renewed. -/
def announcement : Phase → Phase → Option LockState
  | .starting _, .holding lease => some (.locked lease.serial)
  | .acquiring, .polling => some .polling
  | .releasing _ _, .polling => some .polling
  | .releasing _ _, .finished => some .unlocked
  | .polling, .finished => some .unlocked
  | _, _ => none

/-- What the gauge of the lock is set to when a reply leads to another phase. -/
def gauge : Phase → Phase → Option Nat
  | .starting _, .holding _ => some 1
  | .releasing _ _, .polling => some 0
  | .releasing _ _, .finished => some 0
  | _, _ => none

/-- The lease that the machine has in hand. -/
def lease? : Phase → Option LeaseHandle
  | .starting lease => some lease
  | .holding lease => some lease
  | .renewing lease _ => some lease
  | .pausing lease _ _ => some lease
  | .stopping lease _ => some lease
  | .releasing lease _ => some lease
  | _ => none

end Phase

namespace LockState

/-- The name of a lease among those that were seen, numbered in the order of the first sight. -/
def leaseName (sighted : List Nat) (serial : Nat) : String :=
  "lease-" ++ toString (sighted.idxOf serial + 1)

/-- How a state describes itself. -/
def description (sighted : List Nat) : LockState → String
  | .unlocked => "Unlocked"
  | .polling => "PollingForLock"
  | .locked serial => "Locked \x7b lease_id: \"" ++ leaseName sighted serial ++ "\" \x7d"

def label : LockState → String
  | .unlocked => "Unlocked"
  | .polling => "PollingForLock"
  | .locked _ => "Locked"

def isLocked : LockState → Bool
  | .locked _ => true
  | _ => false

end LockState

end Singleton

end Courier
