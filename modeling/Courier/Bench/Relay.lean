import Courier.Bench.Shift

/-!
# Members that share a lock

Several members, each with a double that runs under a lease of one store, started and stopped from
outside while things happen to the store.
-/

namespace Courier

namespace Relay

/-- A member: its double and its timing. -/
structure Member where
  double : Double
  config : SingletonConfig

inductive Action where
  | start (member : Nat)
  | stop (member : Nat)
  /-- Cancels the token under which all members are started. -/
  | cancel
  | store (act : Shift.StoreAction)
  | describe (member : Nat)
  | look

/-- What an observer notes after an action. -/
structure Report where
  time : Nat
  result : Shift.Result
  states : List Singleton.LockState
  held : List Bool
  sighted : List Nat

/-- A plant with the members, and the token under which they are started. -/
structure State where
  plant : Plant
  root : CancelToken

def begin (locks : Locks) (members : List Member) : State :=
  let (p, root) := Shift.rootToken Shift.emptyPlant
  let doubles := members.map (·.double)
  let coordinators := members.zipIdx.map fun (m, i) =>
    { name := m.double.name, lockId := m.double.lockId, part := .double i, config := m.config
      : Coordinator }
  ⟨{ p with locks := locks, doubles := doubles, coordinators := coordinators }, root⟩

def act (s : State) : Action → State × Shift.Result
  | .start m =>
    let (p, r) := Shift.start s.plant (.coordinator m) s.root
    ({ s with plant := p }, r)
  | .stop m =>
    let (p, r) := Shift.stop s.plant (.coordinator m)
    ({ s with plant := p }, r)
  | .cancel =>
    ({ s with plant := s.plant.withAmbient (s.plant.ambient.cancel s.root) }, .done)
  | .store act =>
    let (p, r) := Shift.onStore s.plant act
    ({ s with plant := p }, r)
  | .describe m =>
    (s, .text (((s.plant.coordinators[m]?).map (·.description s.plant.sighted)).getD ""))
  | .look => (s, .done)

/-- An action at its time. -/
def step (lockIds : List String) (s : State) (timed : Nat × Action) : State × Report :=
  let (s, result) := act { s with plant := Shift.await s.plant timed.1 } timed.2
  let p := Shift.rest s.plant
  ({ s with plant := p },
    ⟨p.now, result, p.coordinators.map (·.state), Shift.held p lockIds, p.sighted⟩)

/-- The reports of a sequence of actions, and how it left the plant. -/
def run (locks : Locks) (members : List Member) (actions : List (Nat × Action)) :
    Plant × List Report :=
  let lockIds := (members.map (·.double.lockId)).eraseDups
  let (s, reports) := Shift.steps (step lockIds) (begin locks members) actions
  (s.plant, reports)

end Relay

end Courier
