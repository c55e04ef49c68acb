import Courier.Fault
import Courier.Payload.Value
import Courier.Text.Utf8
import Courier.Time.Clock

/-!
# Views

A view is a value that shows something to the outside. Numbers and texts stand for themselves,
octets are shown in hexadecimal, durations as seconds and nanoseconds, instants in whole
milliseconds. A fault is shown by its kind and its wording, and what only succeeded by the word
"ok".
-/

namespace Courier

namespace View

def number (n : Nat) : Value := .int n

/-- What may be missing. -/
def option {α : Type} (f : α → Value) : Option α → Value
  | some a => f a
  | none => .null

def each {α : Type} (f : α → Value) (l : List α) : Value := .list (l.map f)

def texts (l : List String) : Value := each .text l

def duration (d : Duration) : Value := .list [number d.seconds, number d.subsecond]

def instant (t : Nat) : Value := number (Instant.milliseconds t)

def octets (bytes : Bytes) : Value :=
  .text (String.ofList (bytes.flatMap fun b =>
    [Nat.digitChar (b.toNat / 16), Nat.digitChar (b.toNat % 16)]))

def pairs (l : List (String × String)) : Value :=
  each (fun (k, v) => .list [.text k, .text v]) l

/-! ## Faults and answers -/

def failure (kind message : String) : Value :=
  .record [("error", .text kind), ("message", .text message)]

def fault {ε : Type} [FaultFamily ε] (e : ε) : Value :=
  failure (FaultFamily.kind e) (FaultFamily.message e)

def done : Value := .text "ok"

/-- An answer that holds something. -/
def answer {ε α : Type} [FaultFamily ε] (f : α → Value) : Except ε α → Value
  | .ok a => f a
  | .error e => fault e

/-- An answer that holds nothing. -/
def outcome {ε : Type} [FaultFamily ε] : Except ε Unit → Value := answer fun _ => done

/-- A call that broke off. -/
def overflow (o : Overflow := .count) : Value := fault o

end View

end Courier
