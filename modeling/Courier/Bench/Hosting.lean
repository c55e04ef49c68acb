import Courier.Bench.Script
import Courier.Bench.Shift

/-!
# A host used step by step

A host with doubles and receivers. All receivers handle messages of one type, so the processor that
was registered last handles the messages of all of them.
-/

namespace Courier

namespace Hosting

/-- A receiver that is to be built and added. -/
structure Order where
  name : String
  queue : String
  /-- The processor that is registered before the receiver is built, if one is. -/
  registration : Option Registration
  settings : Settings
  scripts : Scripts

/-- A component in the order in which components are added. -/
inductive Component where
  | double (d : Double)
  | receiver (o : Order)

inductive Action where
  | start
  | shutdown
  /-- Starts, runs for a while and shuts down; then the host is gone. -/
  | runFor (period : Duration)
  | trigger
  | guard
  | dropGuard
  | dropGuardLater (after : Duration)
  | store (act : Shift.StoreAction)
  | config
  | names
  | describe
  | look
  | queue (station : Nat) (act : Shift.QueueAction)

/-- What an observer notes of a host. -/
structure View where
  health : Health
  inFlight : Nat
  singletons : List (String × Singleton.LockState)
  held : List Bool
  queues : List Shift.Counts

/-- What an observer notes after an action; of a host that is gone there is nothing to see. -/
structure Report where
  time : Nat
  /-- Missing where the host was gone before the action. -/
  result : Option Shift.Result
  view : Option View

/-- A plant with a host, the registry of the host and the guards in hand. -/
structure State where
  plant : Plant
  registry : Registry := {}
  guards : Nat := 0
  gone : Bool := false

/-! ## Building -/

/-- What is built so far: the parts, and for each receiver what came of it. -/
structure Building where
  config : HostConfig
  messageType : String
  schema : Schema
  registry : Registry := {}
  doubles : List Double := []
  stations : List Station := []
  parts : List Part := []
  built : List (Except ReceiverFault Settings) := []
  /-- The receiver whose processor was registered last. -/
  processor : Option (Nat × Scripts) := none

/-- Adds a component. A receiver that cannot be built is not added, but its queue is there. -/
def Building.add (b : Building) : Component → Building
  | .double d =>
    { b with doubles := b.doubles ++ [d], parts := b.parts ++ [.double b.doubles.length] }
  | .receiver o =>
    let place := b.stations.length
    let b := match o.registration with
      | some r =>
        { b with
          registry := b.registry.register b.messageType r
          processor := some (place, o.scripts) }
      | none => b
    let made := Receiver.build o.name b.messageType (some b.registry) o.settings b.config.receiver
    let asked : Receiver :=
      { name := o.name, processor := "", singleton := false, settings := o.settings
        config := b.config.receiver }
    let station := Station.ofReceiver (made.toOption.getD asked) b.schema { name := o.queue }
      b.registry b.messageType o.scripts.processor
    { b with
      stations := b.stations ++ [station]
      parts := match made with
        | .ok _ => b.parts ++ [.station place]
        | .error _ => b.parts
      built := b.built ++ [made.map (·.settings)] }

/-- A station with the registry and the processor that are in place at the end. -/
def Building.finish (b : Building) (s : Station) : Station :=
  let s := { s with premises := { s.premises with registry := b.registry } }
  match b.processor with
  | none => s
  | some (author, scripts) =>
    { s with processor := scripts.processor, premises := { s.premises with author := author } }

def Building.state (b : Building) (locks : Locks) (hasLocks : Bool) : State :=
  { plant :=
      { Shift.emptyPlant with
        locks := locks
        stations := b.stations.map b.finish
        doubles := b.doubles
        host := { config := b.config, hasLocks := hasLocks, parts := b.parts } }
    registry := b.registry }

/-! ## Actions -/

/-- How a host describes itself. -/
def description (p : Plant) : String :=
  "MessageHost \x7b instance_id: " ++ quoted p.host.config.instanceId ++ ", components: " ++
    toString p.host.parts.length ++ ", health: " ++ p.ambient.controller.health.label ++ ", .. \x7d"

def withController (p : Plant) (c : Controller) : Plant :=
  p.withAmbient { p.ambient with controller := c }

/-- Takes up an errand of the host and waits for it. -/
def carryOut (s : State) (p : Plant) (e : Errand) : State × Shift.Result :=
  let begun := s.plant.now
  match p.await e with
  | (p, .opened (.ok ())) => ({ s with plant := p }, .done)
  | (p, .opened (.error f)) => ({ s with plant := p }, .hostFailed f)
  | (p, .closed drained) => ({ s with plant := p }, .closed drained (p.now - begun))
  | (p, .broken o) => ({ s with plant := p }, .broken o)
  | (p, _) => ({ s with plant := p }, .done)

def act (s : State) : Action → State × Shift.Result
  | .start => carryOut s s.plant (s.plant.beginOpening none)
  | .shutdown =>
    let (p, e) := s.plant.beginClosing false
    carryOut s p e
  | .runFor period =>
    let (s, r) := carryOut s s.plant (s.plant.beginOpening (some period))
    ({ s with gone := true }, r)
  | .trigger =>
    let a := s.plant.ambient
    let (c, cs) := a.controller.trigger a.cancellations
    ({ s with plant := s.plant.withAmbient { a with controller := c, cancellations := cs } }, .done)
  | .guard =>
    ({ s with
        plant := withController s.plant s.plant.ambient.controller.enter
        guards := s.guards + 1 }, .done)
  | .dropGuard =>
    if s.guards = 0 then (s, .found false)
    else
      ({ s with
          plant := withController s.plant s.plant.ambient.controller.leave
          guards := s.guards - 1 }, .found true)
  | .dropGuardLater after =>
    if s.guards = 0 then (s, .done)
    else
      let t := s.plant.now + after.nanoseconds
      ({ s with
          plant := { s.plant with departures := s.plant.departures ++ [t] }
          guards := s.guards - 1 }, .done)
  | .store act =>
    let (p, r) := Shift.onStore s.plant act
    ({ s with plant := p }, r)
  | .config => (s, .config s.plant.host.config.instanceId s.plant.host.config.drainTimeout)
  | .names => (s, .names s.registry.names)
  | .describe => (s, .text (description s.plant))
  | .look => (s, .done)
  | .queue station q =>
    let (p, r) := Shift.onQueue s.plant station q
    ({ s with plant := p }, r)

/-- The states of the coordinators as the host finds them by the names of its parts. -/
def singletons (p : Plant) : List (String × Singleton.LockState) :=
  p.host.parts.filterMap fun part =>
    let name := p.partName part
    (p.singletonState? name).map fun state => (name, state)

/-- An action at its time. -/
def step (watch : List String) (s : State) (timed : Nat × Action) : State × Report :=
  let s := { s with plant := Shift.await s.plant timed.1 }
  if s.gone then (s, ⟨s.plant.now, none, none⟩)
  else
    let (s, result) := act s timed.2
    let p := Shift.rest s.plant
    if s.gone then ({ s with plant := p }, ⟨p.now, some result, none⟩)
    else
      let health := p.ambient.controller.health
      let inFlight := p.ambient.controller.inFlight
      let (p, counts) := Shift.countAll p (List.range p.stations.length)
      let view : View := ⟨health, inFlight, singletons p, Shift.held p watch, counts⟩
      ({ s with plant := p }, ⟨p.now, some result, some view⟩)

/-- Builds a host, performs a sequence of actions and reports. -/
def run (b : Building) (components : List Component) (locks : Locks) (hasLocks : Bool)
    (watch : List String) (actions : List (Nat × Action)) : Building × Plant × List Report :=
  let b := components.foldl Building.add b
  let (s, reports) := Shift.steps (step watch) (b.state locks hasLocks) actions
  (b, s.plant, reports)

end Hosting

end Courier
