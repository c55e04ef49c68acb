import Courier.Config
import Courier.Registry
import Courier.Settings

/-!
# Building receivers

A receiver is built for one type of messages from a registry, settings and timing. What is wrong is
found in this order: no registry, no processor, settings, timing. A processor of which only one may
run gets settings for one message at a time.
-/

namespace Courier

/-- A receiver: who it is and how it works. -/
structure Receiver where
  name : String
  /-- The name of the processor, which is also the lock under which a singleton runs. -/
  processor : String
  singleton : Bool
  /-- The settings in effect. -/
  settings : Settings
  config : ReceiverConfig

namespace Receiver

/-- The receiver of a name for a type of messages, or the first thing that is wrong. -/
def build (name messageType : String) (registry : Option Registry) (settings : Settings)
    (config : ReceiverConfig) : Except ReceiverFault Receiver :=
  match registry with
  | none => .error (.missingRegistry name)
  | some r =>
    match r.find? messageType with
    | none => .error (.processorNotRegistered name messageType)
    | some p =>
      match settings.validate with
      | .error f => .error (.invalidSettings name f)
      | .ok () =>
        match config.validate with
        | .error f => .error (.invalidConfig name f.message)
        | .ok () =>
          .ok
            { name := name
              processor := p.name
              singleton := p.singleton
              settings := if p.singleton then settings.forSingleton else settings
              config := config }

/-- How many deliveries may be handled at once. -/
def slots (r : Receiver) : Nat := r.settings.maxConcurrentCalls.toNat

end Receiver

end Courier
