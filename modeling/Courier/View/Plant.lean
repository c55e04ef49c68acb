import Courier.Bench.Hosting
import Courier.Bench.Reception
import Courier.Bench.Relay
import Courier.View.Handling
import Courier.View.Settings

/-!
# Views of plants

What observers noted while receivers, members of a fleet or a host were used step by step, and what
was left at the end.
-/

namespace Courier

namespace View

def shiftResult : Shift.Result → Value
  | .done => done
  | .text s => .text s
  | .found b => .bool b
  | .names l => texts l
  | .config id d => .list [.text id, duration d]
  | .failed c => failure "Failed" c.text
  | .lockFailed f => fault f
  | .hostFailed f => fault f
  | .closed drained waited => .record [("drained", .bool drained), ("waited", instant waited)]
  | .broken o => overflow o

/-- Where one of the actions breaks off there is nothing to report. -/
def unlessBroken (results : List Shift.Result) (report : Value) : Value :=
  match results.findSome? (·.overflow?) with
  | some o => overflow o
  | none => report

def counts (c : Shift.Counts) : Value := .record
  [("pending", number c.pending), ("in_flight", number c.inFlight),
   ("completed", number c.completed), ("abandoned", number c.abandoned),
   ("dead_lettered", number c.deadLettered)]

/-- The queue of a station at the end. -/
def stationQueue (now : Nat) (s : Station) : Value :=
  let (q, pending) := s.premises.queue.pending now
  let (q, inFlight) := q.inFlight now
  let q := { q with
    completed := Shift.sortSettled q.completed
    abandoned := Shift.sortSettled q.abandoned
    deadLettered := Shift.sortSettled q.deadLettered }
  .record (settlements q ++ [("pending", number pending), ("in_flight", number inFlight)])

def receptionReport (r : Reception.Report) : Value := .record
  [("t", instant r.time), ("running", .bool r.running), ("gate", number r.available),
   ("attempts", number r.attempts), ("queue", counts r.counts), ("result", shiftResult r.result)]

def stop (s : Nat × Shift.Result) : Value :=
  .record [("t", instant s.1), ("result", shiftResult s.2)]

/-- A receiver used step by step; the trace only if it is asked for. -/
def reception (p : Plant) (reports : List Reception.Report) (traced : Bool) : Value := .record
  [("steps", each receptionReport reports), ("stops", each stop (Reception.stops p)),
   ("log", each entry (Shift.entries p 0)), ("queue", option (stationQueue p.now) p.stations[0]?),
   ("metrics", meters p.ambient.telemetry),
   ("events", if traced then trace p.ambient.telemetry else .null)]

/-! ## Doubles and leases -/

def play (p : Plant) (e : Play) : Value := .record
  [("name", .text (p.partName (.double e.double))), ("do", .text e.act), ("t", instant e.time)]

def plays (p : Plant) (l : List Play) : Value := each (play p) (Shift.sortPlays p l)

/-- A lease is named by its place among those that were seen. -/
def lockState (sighted : List Nat) : Singleton.LockState → Value
  | .locked serial => .text ("Locked " ++ Singleton.LockState.leaseName sighted serial)
  | s => .text s.label

/-- A report, together with the name of the member that the action was about. -/
def relayReport (name : String) (r : Relay.Report) : Value := .record
  [("t", instant r.time), ("result", shiftResult r.result),
   ("states", each (lockState r.sighted) r.states),
   ("locked", each (fun s => .bool s.isLocked) r.states), ("held", each .bool r.held),
   ("name", .text name), ("singleton", .bool false)]

def sighting (sighted : List Nat) (e : Singleton.LockState × Nat) : Value :=
  .record [("state", lockState sighted e.1), ("t", instant e.2)]

/-- Members that share a lock; each report comes with the member that its action was about. -/
def relay (p : Plant) (reports : List (Nat × Relay.Report)) : Value :=
  unlessBroken (reports.map (·.2.result)) <| .record
  [("steps", each (fun (m, r) => relayReport (p.partName (.coordinator m)) r) reports),
   ("transitions", each (fun c => each (sighting p.sighted) c.sightings.reverse) p.coordinators),
   ("components", plays p p.plays), ("cancelled", plays p p.cancelled),
   ("metrics", meters p.ambient.telemetry)]

/-! ## Hosts -/

def hostView (v : Hosting.View) : List (String × Value) :=
  [("health", .text v.health.label), ("in_flight", number v.inFlight),
   ("singletons", each (fun (name, s) => .list [.text name, .text s.label]) v.singletons),
   ("held", each .bool v.held), ("queues", each counts v.queues)]

def hostingReport (r : Hosting.Report) : Value := .record <|
  [("t", instant r.time), ("result", (r.result.map shiftResult).getD (.text "gone"))] ++
    (r.view.map hostView).getD []

/-- A host used step by step. -/
def hosting (b : Hosting.Building) (p : Plant) (reports : List Hosting.Report) : Value :=
  let isSingle (e : Play) : Bool := p.partIsSingleton (.double e.double)
  unlessBroken (reports.filterMap (·.result)) <| .record
    [("steps", each hostingReport reports), ("built", each (answer settings) b.built),
     ("journal", each (play p) (p.plays.filter fun e => !isSingle e).reverse),
     ("singleton_journal", plays p (p.plays.filter isSingle)),
     ("cancelled", plays p p.cancelled), ("queues", each (stationQueue p.now) p.stations),
     ("logs", each (fun i => each entry (Shift.entries p i)) (List.range p.stations.length)),
     ("metrics", meters p.ambient.telemetry)]

end View

end Courier
