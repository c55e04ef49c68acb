import Courier.Handling.Stages
import Courier.Payload.Json.Printer
import Courier.Telemetry
import Courier.View.Basic

/-!
# Views of deliveries

Settlements, what journals tell of the handling of deliveries, and what telemetry has gathered.
-/

namespace Courier

namespace View

def settled (s : Settled) : Value := .record
  [("id", .text s.id), ("body", octets s.body), ("n", number s.count.toNat),
   ("reason", option .text s.reason)]

/-- The settlements of a queue. -/
def settlements (q : Queue) : List (String × Value) :=
  [("completed", each settled q.completed), ("abandoned", each settled q.abandoned),
   ("dead_lettered", each settled q.deadLettered)]

def disposition (d : Disposition) : Value := .text d.label

def verdict : Verdict ProcessingFault → Value
  | .passed => done
  | .failed f => fault f
  | .panicked text => failure "panic" (text.getD "")

def snapshot (s : Snapshot) : Value := .record
  [("receiver", .text s.context.receiver), ("message_id", .text s.context.messageId),
   ("payload", s.context.payload), ("body", octets s.context.body),
   ("preview", .text (preview s.context.body)),
   ("delivery_count", number s.context.count.toNat),
   ("dead_letter_limit", number s.context.limit.toNat),
   ("properties", pairs s.properties.entries), ("cancelled", .bool s.cancelled),
   ("settled", .bool s.disposition.isSome), ("disposition", option disposition s.disposition)]

def finding : Finding → Value
  | .done => done
  | .refused f => fault f
  | .text s => .text s
  | .payload v => v
  | .property v => option .text v
  | .service v => option id v
  | .snapshot s => snapshot s

def entry (e : Entry) : Value := .record
  [("id", .text e.messageId), ("n", number e.count.toNat), ("do", .text e.act),
   ("result", finding e.finding), ("t", instant e.time)]

/-- A journal in the order in which it was written. -/
def journal (entries : List Entry) : Value := each entry entries.reverse

/-! ## Telemetry -/

def meters (t : Telemetry) : Value := .record (t.meters.map fun (m, n) => (m.text, number n))

def fields (l : List (String × String)) : Value := .ofFields (l.map fun (k, v) => (k, .text v))

def note (n : Note) : Value := .ofFields
  [("level", .text n.level.label), ("message", .text n.message), ("fields", fields n.fields)]

def span (s : Span) : Value := .ofFields
  [("span", .text Span.name), ("fields", fields s.fields)]

/-- The notes and spans in the order of their texts. -/
def trace (t : Telemetry) : Value :=
  let shown := (t.notes.map note ++ t.spans.map span).map fun v => (Json.render v, v)
  .list ((shown.mergeSort fun a b => !(b.1 < a.1)).map (·.2))

end View

end Courier
