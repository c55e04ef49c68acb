import Courier.Host.Lifecycle
import Courier.Plant.Double
import Courier.Receiver.Station
import Courier.Singleton.Phase

/-!
# Plants

A plant is a process with everything in it that takes its time: receivers at work, doubles,
components that run under a lease, and one host. A part is something that can be started and
stopped. A call to start or stop a part is begun, and then looked at until it is answered.

Runs of coordinators that have ended stay in their lists. A run whose call to the store broke off
waits for nothing any more: it goes no further, and everything stays as it was then.
-/

namespace Courier

/-- Something that can be started and stopped, by its place among its kind. -/
inductive Part where
  | double (i : Nat)
  | station (i : Nat)
  /-- Another part, run under a lease. -/
  | coordinator (i : Nat)
  deriving DecidableEq

/-- A call to start or stop a part. -/
inductive Call where
  | answered (answer : Except Cause Unit)
  /-- A double starts until an instant; a token goes with it. -/
  | starting (double : Nat) (token : CancelToken) (dueAt : Nat) (turn : Turn)
  | stopping (dueAt : Nat) (turn : Turn)
  /-- The end of a receive loop is waited for. -/
  | loop (station loop : Nat)
  /-- The end of a coordinator's run is waited for. -/
  | run (coordinator run : Nat)

/-- What a run waits for. -/
inductive Wait where
  /-- The end of a turn of the store, and for how long it is waited for. -/
  | locks (turn : Turn) (dueAt : Nat) (deadline : Option Nat)
  | part (call : Call)
  | rest (dueAt : Nat)
  /-- Nothing: the call to the store broke off, and the run with it. -/
  | broken (o : Overflow)

/-- A run of the machine that keeps a component under a lease. -/
structure Run where
  token : CancelToken
  phase : Singleton.Phase := .acquiring
  /-- What was asked for, once it was. -/
  wait : Option Wait := none

namespace Run

/-- What broke the run off, if anything did. -/
def overflow? (r : Run) : Option Overflow :=
  match r.wait with
  | some (.broken o) => some o
  | _ => none

def isOver (r : Run) : Bool := r.phase == .finished || r.overflow?.isSome

end Run

/-- A component that runs under a lease. -/
structure Coordinator where
  name : String
  lockId : String
  part : Part
  config : SingletonConfig
  state : Singleton.LockState := .unlocked
  /-- How often the state has changed. -/
  version : Nat := 0
  /-- The run that was started and not stopped yet. -/
  running : Option Nat := none
  runs : List Run := []
  /-- How many changes an observer has noticed, and what it saw each time, the latest first. -/
  noticed : Nat := 0
  sightings : List (Singleton.LockState × Nat) := []

namespace Coordinator

/-- Makes a state known; the same state again is no change. -/
def publish (c : Coordinator) (s : Singleton.LockState) : Coordinator :=
  if c.state = s then c else { c with state := s, version := c.version + 1 }

/-- Starts a run below a token, unless the last one started was not stopped. -/
def start (a : Ambient) (c : Coordinator) (parent : CancelToken) :
    Except Cause (Ambient × Coordinator) :=
  match c.running with
  | some _ => .error (.ofText ("singleton " ++ c.lockId ++ " is already started"))
  | none =>
    let (a, token) := a.child parent
    .ok (a, { c with runs := c.runs ++ [{ token := token }], running := some c.runs.length })

/-- Cancels the run that was started; who stops waits for that run to end. -/
def stop (a : Ambient) (c : Coordinator) : Ambient × Coordinator × Option Nat :=
  match c.running with
  | none => (a, c, none)
  | some i =>
    match c.runs[i]? with
    | some r => (a.cancel r.token, { c with running := none }, some i)
    | none => (a, { c with running := none }, none)

/-- An observer looks; of several changes since the last look it sees the last state. -/
def notice (c : Coordinator) (now : Nat) : Coordinator :=
  if c.noticed = c.version then c
  else { c with noticed := c.version, sightings := (c.state, now) :: c.sightings }

/-- How a coordinator describes itself; a lease is named by its place among those seen. -/
def description (c : Coordinator) (sighted : List Nat) : String :=
  "SingletonCoordinator \x7b lock_id: " ++ quoted c.lockId ++ ", state: " ++
    c.state.description sighted ++ ", .. \x7d"

end Coordinator

/-- Who is told of a cancelled token: the double that was started with it. -/
structure Watcher where
  double : Nat
  token : CancelToken
  told : Bool := false

/-- Something that a double did. -/
structure Play where
  double : Nat
  act : String
  time : Nat

/-- A host: its parts in order, and those that are started, the latest first. -/
structure Host where
  config : HostConfig := { instanceId := "" }
  hasLocks : Bool := false
  parts : List Part := []
  started : List Part := []

/-- Something begun from outside that takes its time. -/
inductive Errand where
  | calling (call : Call)
  /-- The host starts; `stay` is for how long it then runs before it shuts down. -/
  | opening (o : Host.Opening Part) (call : Option Call) (stay : Option Duration)
  | staying (dueAt : Nat)
  | closing (c : Host.Closing Part) (call : Option Call) (deadline : Nat) (stayed : Bool)
  /-- The host waits for the attempts in flight and looks again at an instant. -/
  | draining (deadline : Nat) (inTime : Bool) (wake : Nat) (stayed : Bool)
  | called (answer : Except Cause Unit) (time : Nat)
  | opened (answer : Except HostFault Unit)
  | closed (drained : Bool)
  /-- A shutdown broke off before anything was stopped. -/
  | broken (o : Overflow)

namespace Errand

def isOver : Errand → Bool
  | .called .. => true
  | .opened _ => true
  | .closed _ => true
  | .broken _ => true
  | _ => false

end Errand

/-- A process with everything in it that takes its time. -/
structure Plant where
  ambient : Ambient := {}
  locks : Locks := {}
  stations : List Station := []
  doubles : List Double := []
  coordinators : List Coordinator := []
  watchers : List Watcher := []
  /-- What doubles did, the latest first. -/
  plays : List Play := []
  /-- Which doubles were told of a cancellation and when, the latest first. -/
  cancelled : List Play := []
  /-- The leases that observers have seen published, in the order of the first sight. -/
  sighted : List Nat := []
  host : Host := {}
  /-- When guards that are still counted as in flight will be dropped. -/
  departures : List Nat := []
  /-- What is waited for by whoever uses the plant. -/
  foreground : Option Errand := none
  background : List Errand := []

namespace Plant

def now (p : Plant) : Nat := p.ambient.now

def due (p : Plant) (t : Nat) : Bool := p.ambient.clock.due t

def withAmbient (p : Plant) (a : Ambient) : Plant := { p with ambient := a }

def setStation (p : Plant) (i : Nat) (s : Station) : Plant :=
  { p with stations := p.stations.set i s }

def setCoordinator (p : Plant) (i : Nat) (c : Coordinator) : Plant :=
  { p with coordinators := p.coordinators.set i c }

/-- A double did something. -/
def play (p : Plant) (double : Nat) (act : String) : Plant :=
  { p with plays := ⟨double, act, p.now⟩ :: p.plays }

/-! ## What parts are -/

def partName (p : Plant) : Part → String
  | .double i => ((p.doubles[i]?).map (·.name)).getD ""
  | .station i => ((p.stations[i]?).map (·.receiver.name)).getD ""
  | .coordinator i => ((p.coordinators[i]?).map (·.name)).getD ""

/-- The lock under which a part runs where only one may. -/
def partLockId (p : Plant) : Part → String
  | .double i => ((p.doubles[i]?).map (·.lockId)).getD ""
  | .station i => ((p.stations[i]?).map (·.receiver.processor)).getD ""
  | .coordinator i => ((p.coordinators[i]?).map (·.lockId)).getD ""

def partIsSingleton (p : Plant) : Part → Bool
  | .double i => ((p.doubles[i]?).map (·.singleton)).getD false
  | .station i => ((p.stations[i]?).map (·.receiver.singleton)).getD false
  | .coordinator _ => false

/-- The state of the lease of a part, as it is found by the name of the part: the coordinator that
was made first for a part of that name is asked. -/
def singletonState? (p : Plant) (name : String) : Option Singleton.LockState :=
  (p.coordinators.find? fun c => c.name == name).map (·.state)

end Plant

end Courier
