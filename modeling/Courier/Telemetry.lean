import Courier.Fault
import Courier.Text.Preview

/-!
# Telemetry

What the library tells about its work: meters, which are counters, a gauge and the number of
samples of a duration, and a trace of notes and spans. A meter exists once it has been touched.

A note is the thing that happened, with what it is about. Level, wording and fields are functions
of it, so the trace can be asked about what happened and not only about texts.
-/

namespace Courier

/-- Something that is counted or gauged, with its labels. -/
inductive Meter where
  /-- Deliveries handled by a receiver, by what became of them. -/
  | handled (receiver outcome : String)
  /-- Messages that a receiver dead-lettered of itself. -/
  | deadLettered (receiver : String)
  /-- Samples of how long a receiver took. -/
  | handlingTime (receiver : String)
  /-- Whether a component holds its lock. -/
  | locked (lockId : String)
  deriving DecidableEq

namespace Meter

def name : Meter → String
  | .handled .. => "conveyor_messages_total"
  | .deadLettered _ => "conveyor_dead_lettered_total"
  | .handlingTime _ => "conveyor_message_duration_seconds"
  | .locked _ => "conveyor_singleton_locked"

/-- The labels of a meter, sorted by name. -/
def labels : Meter → List (String × String)
  | .handled receiver outcome => [("outcome", outcome), ("receiver", receiver)]
  | .deadLettered receiver => [("receiver", receiver)]
  | .handlingTime receiver => [("receiver", receiver)]
  | .locked lockId => [("lock_id", lockId)]

/-- A meter in one line: the name and the labels in braces. -/
def text (m : Meter) : String :=
  m.name ++ "\x7b" ++ ",".intercalate (m.labels.map fun (k, v) => k ++ "=" ++ v) ++ "\x7d"

end Meter

/-- How much attention a note asks for. -/
inductive Level where
  | debug
  | info
  | warn
  | error
  deriving DecidableEq

namespace Level

def label : Level → String
  | .debug => "DEBUG"
  | .info => "INFO"
  | .warn => "WARN"
  | .error => "ERROR"

end Level

/-- Something that happened at a receiver. Message ids are those of the deliveries concerned. -/
inductive Note where
  | loopStarted (receiver queue processor : String) (concurrent prefetched : UInt64)
  | queueClosed (receiver : String)
  | receiveFailed (receiver : String) (fault : QueueFault) (backoff : Duration)
  | draining (receiver : String) (inFlight : Nat)
  | loopStopped (receiver : String)
  | undecodable (receiver messageId : String) (fault : CodecFault) (body : Bytes)
  | undecodableKept (receiver messageId : String) (fault : QueueFault)
  | overDelivered (receiver messageId : String) (count limit : UInt32)
  | handled (outcome : String)
  | notProcessed (receiver messageId : String) (fault : ProcessingFault)
  | processingFailed (receiver messageId : String) (fault : ProcessingFault) (body : Bytes)
  | faultAfterSettlement (receiver messageId : String) (previous : Disposition)
  | notAbandoned (receiver messageId : String) (fault : SettlementFault)
  deriving DecidableEq

namespace Note

def level : Note → Level
  | .loopStarted .. => .info
  | .queueClosed _ => .warn
  | .receiveFailed .. => .warn
  | .draining .. => .debug
  | .loopStopped _ => .info
  | .undecodable .. => .error
  | .undecodableKept .. => .error
  | .overDelivered .. => .warn
  | .handled _ => .debug
  | .notProcessed .. => .debug
  | .processingFailed .. => .error
  | .faultAfterSettlement .. => .warn
  | .notAbandoned .. => .error

def message : Note → String
  | .loopStarted .. => "receive loop started"
  | .queueClosed _ => "transport closed; receive loop ending"
  | .receiveFailed .. => "receive failed; retrying"
  | .draining .. => "draining in-flight attempts"
  | .loopStopped _ => "receive loop stopped"
  | .undecodable .. => "undecodable message; dead-lettering"
  | .undecodableKept .. => "failed to dead-letter undecodable message"
  | .overDelivered .. => "dead-lettering message"
  | .handled _ => "message processed"
  | .notProcessed .. => "message not processed; abandoning"
  | .processingFailed .. => "message processing failed; abandoning"
  | .faultAfterSettlement .. => "fault raised after message was settled"
  | .notAbandoned .. => "failed to abandon message; it returns once its lock expires"

def fields : Note → List (String × String)
  | .loopStarted receiver queue processor concurrent prefetched =>
    [("receiver", receiver), ("transport", queue), ("processor", processor),
     ("max_concurrent_calls", toString concurrent), ("prefetch_count", toString prefetched)]
  | .queueClosed receiver => [("receiver", receiver)]
  | .receiveFailed receiver fault backoff =>
    [("receiver", receiver), ("error", fault.message), ("backoff", backoff.text)]
  | .draining receiver inFlight => [("receiver", receiver), ("in_flight", toString inFlight)]
  | .loopStopped receiver => [("receiver", receiver)]
  | .undecodable receiver messageId fault body =>
    [("receiver", receiver), ("message_id", messageId), ("error", fault.message),
     ("body", preview body)]
  | .undecodableKept receiver messageId fault =>
    [("receiver", receiver), ("message_id", messageId), ("error", fault.message)]
  | .overDelivered receiver messageId count limit =>
    [("receiver", receiver), ("message_id", messageId), ("delivery_count", toString count),
     ("limit", toString limit)]
  | .handled outcome => [("outcome", outcome)]
  | .notProcessed receiver messageId fault =>
    [("receiver", receiver), ("message_id", messageId), ("reason", fault.message)]
  | .processingFailed receiver messageId fault body =>
    [("receiver", receiver), ("message_id", messageId), ("error", fault.message),
     ("body", preview body)]
  | .faultAfterSettlement receiver messageId previous =>
    [("receiver", receiver), ("message_id", messageId), ("previous", previous.label)]
  | .notAbandoned receiver messageId fault =>
    [("receiver", receiver), ("message_id", messageId), ("error", fault.message)]

end Note

/-- The handling of one delivery as a stretch of time. The outcome is missing where the handling
broke off. -/
structure Span where
  receiver : String
  messageId : String
  count : UInt32
  correlationId : String
  outcome : Option String
  deriving DecidableEq

namespace Span

def name : String := "message"

def fields (s : Span) : List (String × String) :=
  [("receiver", s.receiver), ("message_id", s.messageId), ("delivery_count", toString s.count),
   ("correlation_id", s.correlationId)] ++
    match s.outcome with
    | some outcome => [("outcome", outcome)]
    | none => []

end Span

/-- What has been told so far: the meters with their values, and the notes and the closed spans,
the latest first. -/
structure Telemetry where
  meters : List (Meter × Nat) := []
  notes : List Note := []
  spans : List Span := []

namespace Telemetry

/-- The value of a meter, nothing for one that was never touched. -/
def value? (t : Telemetry) (m : Meter) : Option Nat := t.meters.lookup m

/-- Sets a meter. -/
def gauge (t : Telemetry) (m : Meter) (n : Nat) : Telemetry :=
  { t with meters := (m, n) :: t.meters.filter fun (other, _) => other != m }

/-- Counts one more. -/
def count (t : Telemetry) (m : Meter) : Telemetry := t.gauge m ((t.value? m).getD 0 + 1)

def note (t : Telemetry) (n : Note) : Telemetry := { t with notes := n :: t.notes }

def span (t : Telemetry) (s : Span) : Telemetry := { t with spans := s :: t.spans }

@[simp] theorem value?_gauge_self (t : Telemetry) (m : Meter) (n : Nat) :
    (t.gauge m n).value? m = some n := by
  simp [value?, gauge]

@[simp] theorem note_meters (t : Telemetry) (n : Note) : (t.note n).meters = t.meters := rfl

@[simp] theorem span_meters (t : Telemetry) (s : Span) : (t.span s).meters = t.meters := rfl

end Telemetry

end Courier
