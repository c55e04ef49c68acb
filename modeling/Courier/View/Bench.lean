import Courier.Bench.Crowd
import Courier.Bench.Drain
import Courier.Bench.Exchange
import Courier.Bench.Rehearsal
import Courier.View.Handling

/-!
# Views of benches

What observers noted while a gate, a controller or a queue was used step by step, or while
deliveries were handled one by one.
-/

namespace Courier

namespace View

def crowdReport (r : Crowd.Report) : Value := .record
  [("admitted", each number r.admitted),
   ("failed", each (fun (w, f) => .list [number w, fault f]) r.failed),
   ("available", number r.available), ("capacity", number r.capacity),
   ("holding", number r.holding)]

def drainResult : Drain.Result → Value
  | .done => done
  | .found b => .bool b
  | .drained inTime waited => .record [("drained", .bool inTime), ("waited", instant waited)]
  | .broken o => overflow o

def drainReport (r : Drain.Report) : Value := .record
  [("t", instant r.time), ("result", drainResult r.result), ("state", .text r.health.label),
   ("in_flight", number r.inFlight), ("shutting_down", .bool r.shuttingDown),
   ("children", each (fun (n, b) => .list [.text n, .bool b]) r.children)]

/-- Where an action breaks off there is nothing to report. -/
def drain (reports : List Drain.Report) : Value :=
  match reports.findSome? (·.result.overflow?) with
  | some o => overflow o
  | none => .record [("steps", each drainReport reports)]

/-! ## Queues -/

def lockToken : LockToken → Value
  | .issued n => .text ("T" ++ toString n)
  | .foreign t => .text t

def delivery (d : Delivery) : Value := .record
  [("id", .text d.message.id), ("body", octets d.message.body),
   ("content_type", option .text d.message.contentType), ("n", number d.count.toNat),
   ("token", lockToken d.token), ("properties", pairs d.message.properties.entries)]

def exchangeResult : Exchange.Result → Value
  | .done => done
  | .text s => .text s
  | .count n => number n
  | .settled l => each settled l
  | .failed f => fault f

def exchangeAnswer : Exchange.Answer → Value
  | .result r => exchangeResult r
  | .received batch waited during => .record
    [("batch", answer (each delivery) batch), ("waited", instant waited),
     ("during", each exchangeResult during)]

def exchangeReport (r : Exchange.Report) : Value := .record <|
  [("t", instant r.time), ("result", exchangeAnswer r.answer)] ++
    match r.counts with
    | some (pending, inFlight) => [("pending", number pending), ("in_flight", number inFlight)]
    | none => []

/-! ## Rehearsals -/

def breakdown : Rehearsal.Breakdown → Value
  | .overflow o => overflow o
  | .stuck => .record [("error", .text "stuck")]
  | .panicked text => failure "panic" (text.getD "")

def rehearsalReport (r : Rehearsal.Report) : Value := .record
  [("t", instant r.time), ("result", verdict r.verdict),
   ("disposition", option disposition r.disposition), ("gate_available", number r.available),
   ("pending", number r.pending), ("in_flight", number r.inFlight)]

/-- What a script returned. -/
def returned : Verdict Cause → Value
  | .failed cause => .text cause.text
  | _ => done

/-- What a script left behind; the delivery describes itself if it is asked to. -/
def aftermath (a : Rehearsal.Aftermath) (describe : Bool) : Value :=
  let s := a.site
  let description : Value :=
    if describe then .text (s.handling.description s.premises.queue) else .null
  .record <|
    [("returned", returned a.verdict), ("log", journal s.ambient.journal),
     ("info", snapshot (s.handling.snapshot s.ambient.cancellations)),
     ("settled", .bool s.disposition.isSome), ("pending", number a.pending),
     ("in_flight", number a.inFlight), ("debug", description)] ++ settlements s.premises.queue

end View

end Courier
