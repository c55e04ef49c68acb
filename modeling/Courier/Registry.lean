import Courier.Fault
import Courier.Services

/-!
# The processor registry

A registry says which processor handles the messages of a type. Registering a type again replaces
its processor; the list of names remembers every registration. A processor is made anew for each
delivery, and making it can fail.
-/

namespace Courier

/-- How a processor is made. -/
inductive Factory where
  | succeeds
  | fails (cause : Cause)
  /-- Fails where the scope has no instance of a type. -/
  | needs (service : String)
  deriving DecidableEq

/-- A registered processor. -/
structure Registration where
  name : String
  singleton : Bool := false
  factory : Factory := .succeeds
  deriving DecidableEq

/-- The processors by message type, the names of all registrations in order, and the shared
services. -/
structure Registry where
  registrations : List (String × Registration) := []
  names : List String := []
  shared : Services := {}

namespace Registry

/-- The processor registered for a message type. -/
def find? (r : Registry) (messageType : String) : Option Registration :=
  r.registrations.lookup messageType

def isRegistered (r : Registry) (messageType : String) : Bool := (r.find? messageType).isSome

/-- Registers a processor for a message type. -/
def register (r : Registry) (messageType : String) (p : Registration) : Registry :=
  { r with
    registrations :=
      (messageType, p) :: r.registrations.filter fun (t, _) => t != messageType
    names := r.names ++ [p.name] }

/-- Shares an instance with every scope. -/
def provide (r : Registry) (type : String) (v : Value) : Registry :=
  { r with shared := r.shared.insert type v }

/-- Makes the processor of a message type for a scope. -/
def resolve (r : Registry) (messageType : String) (scope : Scope) : Except ProcessingFault Unit :=
  match r.find? messageType with
  | none => .error (.processorNotFound messageType)
  | some p =>
    match p.factory with
    | .succeeds => .ok ()
    | .fails cause => .error (.processor cause)
    | .needs service =>
      if (scope.get? r.shared service).isSome then .ok ()
      else .error (.processor (.ofText (service ++ " not provided")))

end Registry

end Courier
