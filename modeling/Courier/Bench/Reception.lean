import Courier.Bench.Shift

/-!
# A receiver used step by step

One receiver, started, stopped and cancelled from outside while messages are sent to its queue.
-/

namespace Courier

namespace Reception

inductive Action where
  | start
  | stop
  /-- Stops the receiver without waiting for it. -/
  | stopLater
  /-- Cancels the token under which the receiver is started. -/
  | cancel
  | closeGate
  | describe
  | look
  | queue (act : Shift.QueueAction)

/-- What an observer notes after an action. -/
structure Report where
  time : Nat
  result : Shift.Result
  running : Bool
  available : Nat
  attempts : Nat
  counts : Shift.Counts

/-- A plant with one receiver, and the token under which the receiver is started. -/
structure State where
  plant : Plant
  root : CancelToken

/-- A plant with one station that has not been started. -/
def begin (s : Station) : State :=
  let (p, root) := Shift.rootToken Shift.emptyPlant
  ⟨{ p with stations := [s] }, root⟩

def State.station? (s : State) : Option Station := s.plant.stations[0]?

def act (s : State) : Action → State × Shift.Result
  | .start =>
    let (p, r) := Shift.start s.plant (.station 0) s.root
    ({ s with plant := p }, r)
  | .stop =>
    let (p, r) := Shift.stop s.plant (.station 0)
    ({ s with plant := p }, r)
  | .stopLater =>
    let (p, call) := s.plant.beginStop (.station 0)
    ({ s with plant := { p with background := p.background ++ [.calling call] } }, .done)
  | .cancel =>
    ({ s with plant := s.plant.withAmbient (s.plant.ambient.cancel s.root) }, .done)
  | .closeGate =>
    match s.station? with
    | some st => ({ s with plant := s.plant.setStation 0 st.closeGate }, .done)
    | none => (s, .done)
  | .describe => (s, .text ((s.station?.map (·.description)).getD ""))
  | .look => (s, .done)
  | .queue q =>
    let (p, r) := Shift.onQueue s.plant 0 q
    ({ s with plant := p }, r)

/-- An action at its time. -/
def step (s : State) (timed : Nat × Action) : State × Report :=
  let (s, result) := act { s with plant := Shift.await s.plant timed.1 } timed.2
  let p := Shift.rest s.plant
  let running := ((p.stations[0]?).map (·.running.isSome)).getD false
  let available := ((p.stations[0]?).map (·.gate.free)).getD 0
  let attempts := p.ambient.controller.inFlight
  let (p, counts) := Shift.count p 0
  ({ s with plant := p }, ⟨p.now, result, running, available, attempts, counts⟩)

/-- The stops that were not waited for and have returned, in the order of their times. -/
def stops (p : Plant) : List (Nat × Shift.Result) :=
  (p.background.filterMap fun e =>
    match e with
    | .called answer time => some (time, .ofAnswer answer)
    | _ => none).mergeSort fun a b => a.1 ≤ b.1

/-- The reports of a sequence of actions, and how it left the plant. -/
def run (station : Station) (actions : List (Nat × Action)) : Plant × List Report :=
  let (s, reports) := Shift.steps step (begin station) actions
  (s.plant, reports)

end Reception

end Courier
