import Courier.Cancellation
import Courier.Time.Clock

/-!
# Health and shutdown

A controller keeps the health of a host, counts the attempts in flight, and holds the token that
is fired when the host is to shut down. Draining is waiting until no attempt is in flight: the
count is looked at in steps, and the wait is given up at the first look after its deadline.
-/

namespace Courier

/-- The phases of a host's life. -/
inductive Health where
  | starting
  | ready
  | draining
  | stopped
  deriving DecidableEq

namespace Health

def label : Health → String
  | .starting => "Starting"
  | .ready => "Ready"
  | .draining => "Draining"
  | .stopped => "Stopped"

end Health

/-- The health of a host and the attempts it has in flight. -/
structure Controller where
  health : Health := .starting
  inFlight : Nat := 0
  /-- Fired when the host is to shut down. -/
  token : CancelToken

namespace Controller

/-- Marks the start as finished. -/
def setReady (c : Controller) : Controller := { c with health := .ready }

/-- Begins to shut down: every token below the controller's is cancelled. -/
def trigger (c : Controller) (cs : Cancellations) : Controller × Cancellations :=
  ({ c with health := .draining }, cs.cancel c.token)

def isShuttingDown (c : Controller) (cs : Cancellations) : Bool := cs.isCancelled c.token

/-- One more attempt in flight. -/
def enter (c : Controller) : Controller := { c with inFlight := c.inFlight + 1 }

/-- One attempt less in flight. -/
def leave (c : Controller) : Controller := { c with inFlight := c.inFlight - 1 }

/-- How long a drain waits between two looks. -/
def drainStep : Duration := .ofMilliseconds 10

/-- One look of a drain: whether it is over, and how. -/
def look (c : Controller) (now deadline : Nat) : Controller × Option Bool :=
  if c.inFlight = 0 then ({ c with health := .stopped }, some true)
  else if deadline ≤ now then (c, some false)
  else (c, none)

@[simp] theorem setReady_health (c : Controller) : c.setReady.health = .ready := rfl

@[simp] theorem trigger_health (c : Controller) (cs : Cancellations) :
    (c.trigger cs).1.health = .draining := rfl

end Controller

end Courier
