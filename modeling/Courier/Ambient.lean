import Courier.Controller
import Courier.Handling.Context
import Courier.Telemetry

/-!
# Surroundings

What everything in one process shares: the clock, the cancellations, the controller, what has been
told, and the journal in which processors and stages write.
-/

namespace Courier

/-- What everything in one process shares. -/
structure Ambient where
  clock : Clock := {}
  cancellations : Cancellations := {}
  controller : Controller := { token := ⟨[]⟩ }
  telemetry : Telemetry := {}
  /-- The entries written so far, the latest first. -/
  journal : List Entry := []

namespace Ambient

def now (a : Ambient) : Nat := a.clock.now

def isCancelled (a : Ambient) (t : CancelToken) : Bool := a.cancellations.isCancelled t

def cancel (a : Ambient) (t : CancelToken) : Ambient :=
  { a with cancellations := a.cancellations.cancel t }

/-- A new token below another. -/
def child (a : Ambient) (parent : CancelToken) : Ambient × CancelToken :=
  let (cs, t) := a.cancellations.child parent
  ({ a with cancellations := cs }, t)

def note (a : Ambient) (n : Note) : Ambient := { a with telemetry := a.telemetry.note n }

def count (a : Ambient) (m : Meter) : Ambient := { a with telemetry := a.telemetry.count m }

def write (a : Ambient) (e : Entry) : Ambient := { a with journal := e :: a.journal }

end Ambient

end Courier
