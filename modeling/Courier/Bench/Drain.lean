import Courier.Controller
import Courier.Fault

/-!
# Draining in time

A controller with named guards, each of which counts as an attempt in flight. Guards may be set to
be dropped later; while a drain waits, the clock moves from one event to the next.
-/

namespace Courier

namespace Drain

/-- One thing done to a controller. -/
inductive Action where
  | setReady
  | trigger
  /-- Makes a token below the controller's and keeps it under a name. -/
  | child (name : String)
  | cancelChild (name : String)
  /-- Takes a guard; one of the same name is dropped then. -/
  | guard (name : String)
  | drop (name : String)
  /-- Waits for a drain, while guards are dropped so many nanoseconds after its beginning. -/
  | drain (timeout : Duration) (drops : List (Duration × String))

/-- The answer to an action. -/
inductive Result where
  | done
  | found (b : Bool)
  | drained (inTime : Bool) (waited : Nat)
  /-- The drain broke off: its time would end past the last instant. -/
  | broken (o : Overflow)

/-- What broke an action off, if anything did. -/
def Result.overflow? : Result → Option Overflow
  | .broken o => some o
  | _ => none

/-- What an observer notes after an action. -/
structure Report where
  time : Nat
  result : Result
  health : Health
  inFlight : Nat
  shuttingDown : Bool
  children : List (String × Bool)

end Drain

/-- A controller, its guards, the tokens below its own, and the drops still to come. -/
structure Drain where
  clock : Clock
  cancellations : Cancellations
  controller : Controller
  guards : List String := []
  children : List (String × CancelToken) := []
  drops : List (Nat × String) := []

namespace Drain

def start : Drain :=
  let (cs, token) := ({} : Cancellations).root
  { clock := {}, cancellations := cs, controller := { token := token } }

def takeGuard (s : Drain) (name : String) : Drain :=
  if s.guards.contains name then s
  else { s with guards := name :: s.guards, controller := s.controller.enter }

def dropGuard (s : Drain) (name : String) : Drain :=
  if s.guards.contains name then
    { s with guards := s.guards.erase name, controller := s.controller.leave }
  else s

/-- Drops the guards whose time has come by `now`. -/
def dropUntil (s : Drain) (now : Nat) : Drain :=
  let (due, later) := s.drops.partition fun (t, _) => s.clock.alarm t ≤ now
  due.foldl (fun s (_, name) => s.dropGuard name) { s with drops := later }

/-- Looks until the drain is over. The drops that come due between two looks happen between them;
one that comes due at a look happens after it. -/
def wait (deadline : Nat) : Nat → Drain → Drain × Bool
  | 0, s => (s, false)
  | fuel + 1, s =>
    match s.controller.look s.clock.now deadline with
    | (c, some inTime) => ({ s with controller := c }, inTime)
    | (c, none) =>
      let next := s.clock.alarm (s.clock.now + Controller.drainStep.nanoseconds)
      let s := dropUntil { s with controller := c } (next - 1)
      wait deadline fuel { s with clock := s.clock.advanceTo next }

/-- Enough looks for a drain with this timeout. -/
def looks (timeout : Duration) : Nat := timeout.nanoseconds / Controller.drainStep.nanoseconds + 2

def act (s : Drain) : Action → Drain × Result
  | .setReady => ({ s with controller := s.controller.setReady }, .done)
  | .trigger =>
    let (c, cs) := s.controller.trigger s.cancellations
    ({ s with controller := c, cancellations := cs }, .done)
  | .child name =>
    let (cs, token) := s.cancellations.child s.controller.token
    ({ s with
        cancellations := cs
        children := (name, token) :: s.children.filter fun (n, _) => n != name }, .done)
  | .cancelChild name =>
    match s.children.lookup name with
    | some token => ({ s with cancellations := s.cancellations.cancel token }, .done)
    | none => (s, .done)
  | .guard name => (s.takeGuard name, .done)
  | .drop name => (s.dropGuard name, .found (s.guards.contains name))
  | .drain timeout drops =>
    let begun := s.clock.now
    match Instant.plus? begun timeout with
    | none => (s, .broken .instant)
    | some deadline =>
      let later := drops.map fun (after, name) => (begun + after.nanoseconds, name)
      let (s, inTime) := wait deadline (looks timeout) { s with drops := s.drops ++ later }
      (s, .drained inTime (s.clock.now - begun))

/-- Puts a child into a list sorted by name. -/
def insertChild (e : String × Bool) : List (String × Bool) → List (String × Bool)
  | [] => [e]
  | x :: rest => if e.1 < x.1 then e :: x :: rest else x :: insertChild e rest

def step (s : Drain) (a : Action) : Drain × Report :=
  let (s, r) := s.act a
  let s := s.dropUntil s.clock.now
  (s, { time := s.clock.now
        result := r
        health := s.controller.health
        inFlight := s.controller.inFlight
        shuttingDown := s.controller.isShuttingDown s.cancellations
        children := (s.children.map fun (n, t) => (n, s.cancellations.isCancelled t)).foldr
          insertChild [] })

/-- The reports of a sequence of actions on a new controller. -/
def run (actions : List Action) : List Report :=
  (actions.foldl (fun (s, reports) a => let (s, r) := step s a; (s, r :: reports))
    (start, [])).2.reverse

end Drain

end Courier
