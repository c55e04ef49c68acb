import Courier.Fault

/-!
# Starting and stopping in order

A host starts its parts in order. When one fails to start, those that were started are stopped in
reverse order, and the start has failed. A shutdown stops all parts in reverse order, each as long
as the time lasts.

Both are machines that say which part to start or stop next, and are told how it went. Lists of
started parts have the latest first.
-/

namespace Courier

namespace Host

/-- A start in progress. -/
inductive Opening (π : Type) where
  /-- The first of the rest is next. -/
  | toStart (rest started : List π)
  | starting (current : π) (rest started : List π)
  /-- The first of the started is to be stopped next, because of a fault. -/
  | toStop (started : List π) (fault : HostFault)
  | stopping (rest : List π) (fault : HostFault)

namespace Opening

variable {π : Type}

/-- What is to be done next. -/
inductive Move (π : Type) where
  | start (part : π) (rest started : List π)
  | stop (part : π) (rest : List π) (fault : HostFault)
  | wait
  | opened (started : List π)
  | failed (fault : HostFault)

def move : Opening π → Move π
  | .toStart [] started => .opened started
  | .toStart (part :: rest) started => .start part rest started
  | .toStop [] fault => .failed fault
  | .toStop (part :: rest) fault => .stop part rest fault
  | .starting .. => .wait
  | .stopping .. => .wait

/-- Goes on after an answer; `name` is the name of the part that was to start. -/
def answered (name : String) : Opening π → Except Cause Unit → Opening π
  | .starting current rest started, .ok () => .toStart rest (current :: started)
  | .starting _ _ started, .error cause => .toStop started (.component name cause)
  | .stopping rest fault, _ => .toStop rest fault
  | o, _ => o

end Opening

/-- A shutdown in progress, and whether everything has stopped in time so far. -/
inductive Closing (π : Type) where
  | toStop (started : List π) (inTime : Bool)
  | stopping (rest : List π) (inTime : Bool)

namespace Closing

variable {π : Type}

/-- What is to be done next. -/
inductive Move (π : Type) where
  | stop (part : π) (rest : List π) (inTime : Bool)
  | wait
  /-- All parts are done with, and the attempts in flight are waited for. -/
  | drain (inTime : Bool)

def move : Closing π → Move π
  | .toStop [] inTime => .drain inTime
  | .toStop (part :: rest) inTime => .stop part rest inTime
  | .stopping .. => .wait

/-- Goes on after a stop that returned, well or not, or one that took too long. -/
def answered (returned : Bool) : Closing π → Closing π
  | .stopping rest inTime => .toStop rest (inTime && returned)
  | c => c

end Closing

end Host

end Courier
