import Courier.Message
import Courier.Time.Duration

/-!
# Faults

Everything that can go wrong is one of the faults of this module, a family for each part of the
library. A fault is the cause, its wording is one function per family.

A `Cause` is a chain of explanations, from the outermost to the first one, shown with colons
between them. `FaultFamily` is what the families have in common: a word for the kind of a fault,
and the wording.

An `Overflow` is not answered to whoever calls. It breaks off the call and all that waits for it,
and what was done before stays done.
-/

namespace Courier

/-- A family of faults, each of which has a kind and a wording. -/
class FaultFamily (ε : Type) where
  kind : ε → String
  message : ε → String

/-- A chain of explanations, the outermost first. -/
structure Cause where
  links : List String
  deriving DecidableEq, Inhabited

namespace Cause

def ofText (text : String) : Cause := ⟨[text]⟩

def text (c : Cause) : String := ": ".intercalate c.links

end Cause

/-- A sum that does not fit. -/
inductive Overflow where
  /-- A number that does not fit its word. -/
  | count
  /-- An instant past the last one. -/
  | instant
  deriving DecidableEq

namespace Overflow

def message : Overflow → String
  | .count => "attempt to add with overflow"
  | .instant => "overflow when adding duration to instant"

def kind : Overflow → String := fun _ => "panic"

end Overflow

instance : FaultFamily Overflow := ⟨Overflow.kind, Overflow.message⟩

/-- How a call can go wrong that may also break off. -/
inductive Failure (ε : Type) where
  | fault (f : ε)
  | overflow (o : Overflow)
  deriving DecidableEq

instance {ε : Type} [FaultFamily ε] : FaultFamily (Failure ε) where
  kind
    | .fault f => FaultFamily.kind f
    | .overflow o => o.kind
  message
    | .fault f => FaultFamily.message f
    | .overflow o => o.message

/-- What goes wrong when payloads are written or read. -/
inductive CodecFault where
  | contentType (expected actual : String)
  | encode (text : String)
  /-- A body that cannot be read, with an explanation if there is one. -/
  | decode (text : Option String)
  deriving DecidableEq

namespace CodecFault

def message : CodecFault → String
  | .contentType expected actual =>
    "content type " ++ actual ++ " does not match serializer " ++ expected
  | .encode text => "encode failed: " ++ text
  | .decode (some text) => "decode failed: " ++ text
  | .decode none => "decode failed"

/-- The word for the kind of a fault. -/
def kind : CodecFault → String
  | .contentType .. => "ContentType"
  | .encode _ => "Encode"
  | .decode _ => "Decode"

end CodecFault

instance : FaultFamily CodecFault := ⟨CodecFault.kind, CodecFault.message⟩

/-- What goes wrong at a queue. The token of a lost lock is given by its text. -/
inductive QueueFault where
  | lockLost (token : String)
  | closed
  | backend (cause : Cause)
  deriving DecidableEq

namespace QueueFault

def message : QueueFault → String
  | .lockLost token => "lock " ++ token ++ " is no longer held"
  | .closed => "transport is closed"
  | .backend cause => "transport backend failure: " ++ cause.text

/-- The fault as a chain: its own wording and then what it was caused by. -/
def cause : QueueFault → Cause
  | .backend c => ⟨(QueueFault.backend c).message :: c.links⟩
  | f => .ofText f.message

/-- The word for the kind of a fault. -/
def kind : QueueFault → String
  | .lockLost _ => "LockLost"
  | .closed => "Closed"
  | .backend _ => "Backend"

end QueueFault

instance : FaultFamily QueueFault := ⟨QueueFault.kind, QueueFault.message⟩

/-- What goes wrong when a delivery is settled. -/
inductive SettlementFault where
  | alreadySettled (previous attempted : Disposition)
  | queue (fault : QueueFault)
  deriving DecidableEq

namespace SettlementFault

def message : SettlementFault → String
  | .alreadySettled previous attempted =>
    "message already settled as " ++ previous.label ++ ", cannot mark it " ++ attempted.label
  | .queue fault => fault.message

def cause : SettlementFault → Cause
  | .queue fault => fault.cause
  | f => .ofText f.message

/-- The word for the kind of a fault. -/
def kind : SettlementFault → String
  | .alreadySettled .. => "AlreadySettled"
  | .queue _ => "Transport"

end SettlementFault

instance : FaultFamily SettlementFault := ⟨SettlementFault.kind, SettlementFault.message⟩

/-- What can end the handling of a delivery. -/
inductive ProcessingFault where
  | deserialize (fault : CodecFault)
  | processorNotFound (messageType : String)
  | cancelled
  | gateClosed
  | panicked (text : String)
  | unsettled
  | settlement (fault : SettlementFault)
  | processor (cause : Cause)
  deriving DecidableEq

namespace ProcessingFault

def message : ProcessingFault → String
  | .deserialize fault => "failed to decode message payload: " ++ fault.message
  | .processorNotFound messageType => "no processor registered for message type " ++ messageType
  | .cancelled => "processing cancelled before completion"
  | .gateClosed => "concurrency gate closed"
  | .panicked text => "processor panicked: " ++ text
  | .unsettled => "pipeline finished without settling the message"
  | .settlement fault => "settlement failed: " ++ fault.message
  | .processor cause => "processor failed: " ++ cause.text

/-- The word for the kind of a fault. -/
def kind : ProcessingFault → String
  | .deserialize _ => "Deserialize"
  | .processorNotFound _ => "ProcessorNotFound"
  | .cancelled => "Cancelled"
  | .gateClosed => "GateClosed"
  | .panicked _ => "Panicked"
  | .unsettled => "Unsettled"
  | .settlement _ => "Settlement"
  | .processor _ => "Processor"

end ProcessingFault

instance : FaultFamily ProcessingFault := ⟨ProcessingFault.kind, ProcessingFault.message⟩

/-- What goes wrong at a lease store. -/
inductive LockFault where
  | timeout (after : Duration)
  | storage (cause : Cause)
  deriving DecidableEq

namespace LockFault

def message : LockFault → String
  | .timeout after => "lock store operation timed out after " ++ after.text
  | .storage cause => "lock store unavailable: " ++ cause.text

/-- The word for the kind of a fault. -/
def kind : LockFault → String
  | .timeout _ => "Timeout"
  | .storage _ => "Storage"

end LockFault

instance : FaultFamily LockFault := ⟨LockFault.kind, LockFault.message⟩

/-- Where the state of a saga is kept. -/
structure SagaKey where
  partition : String
  id : String
  deriving DecidableEq, Inhabited

namespace SagaKey

def text (k : SagaKey) : String := k.partition ++ "/" ++ k.id

end SagaKey

/-- What goes wrong at a saga store. -/
inductive SagaFault where
  | alreadyExists (key : SagaKey)
  | versionMismatch (key : SagaKey) (expected actual : UInt64)
  | notFound (key : SagaKey)
  | serialization (fault : CodecFault)
  | storage (cause : Cause)
  deriving DecidableEq

namespace SagaFault

def message : SagaFault → String
  | .alreadyExists key => "saga " ++ key.text ++ " already exists"
  | .versionMismatch key expected actual =>
    "saga " ++ key.text ++ " is at version " ++ toString actual ++ ", expected " ++
      toString expected
  | .notFound key => "saga " ++ key.text ++ " not found"
  | .serialization fault => "saga state could not be encoded or decoded: " ++ fault.message
  | .storage cause => "saga store unavailable: " ++ cause.text

/-- Whether the fault says that someone else was faster. -/
def isConflict : SagaFault → Bool
  | .alreadyExists _ => true
  | .versionMismatch .. => true
  | _ => false

def isNotFound : SagaFault → Bool
  | .notFound _ => true
  | _ => false

def isStorage : SagaFault → Bool
  | .storage _ => true
  | _ => false

/-- The word for the kind of a fault. -/
def kind : SagaFault → String
  | .alreadyExists _ => "AlreadyExists"
  | .versionMismatch .. => "VersionMismatch"
  | .notFound _ => "NotFound"
  | .serialization _ => "Serialization"
  | .storage _ => "Storage"

end SagaFault

instance : FaultFamily SagaFault := ⟨SagaFault.kind, SagaFault.message⟩

/-- Why a gate lets no one in. -/
inductive GateFault where
  | cancelled
  | closed
  deriving DecidableEq

namespace GateFault

def message : GateFault → String
  | .cancelled => "cancelled while waiting for a concurrency slot"
  | .closed => "concurrency gate closed"

/-- What the fault is for the handling of a delivery. -/
def toProcessing : GateFault → ProcessingFault
  | .cancelled => .cancelled
  | .closed => .gateClosed

/-- The word for the kind of a fault. -/
def kind : GateFault → String
  | .cancelled => "Cancelled"
  | .closed => "Closed"

end GateFault

instance : FaultFamily GateFault := ⟨GateFault.kind, GateFault.message⟩

/-- What is wrong with settings. -/
inductive SettingsFault where
  | zeroConcurrency
  | zeroDeliveryLimit
  | zeroLockTimeout
  deriving DecidableEq

namespace SettingsFault

def message : SettingsFault → String
  | .zeroConcurrency => "max_concurrent_calls must be at least 1"
  | .zeroDeliveryLimit => "dead_letter_delivery_limit must be at least 1"
  | .zeroLockTimeout => "lock_timeout must be non-zero"

/-- The word for the kind of a fault. -/
def kind : SettingsFault → String
  | .zeroConcurrency => "ZeroConcurrency"
  | .zeroDeliveryLimit => "ZeroDeliveryLimit"
  | .zeroLockTimeout => "ZeroLockTimeout"

end SettingsFault

instance : FaultFamily SettingsFault := ⟨SettingsFault.kind, SettingsFault.message⟩

/-- What is wrong with the configuration of a host. -/
inductive ConfigFault where
  | emptyInstanceId
  | zeroInterval
  /-- A lease that ends before it is renewed. -/
  | lateRenewal (renewInterval leasePeriod : Duration)
  | zeroReceiveWait
  deriving DecidableEq

namespace ConfigFault

def message : ConfigFault → String
  | .emptyInstanceId => "instance_id must not be empty"
  | .zeroInterval => "singleton lease, renew and poll intervals must be non-zero"
  | .lateRenewal renewInterval leasePeriod =>
    "singleton renew_interval (" ++ renewInterval.text ++ ") must be shorter than lease_period (" ++
      leasePeriod.text ++ ")"
  | .zeroReceiveWait => "receive_wait must be non-zero"

/-- The word for the kind of a fault. -/
def kind : ConfigFault → String := fun _ => "Invalid"

end ConfigFault

instance : FaultFamily ConfigFault := ⟨ConfigFault.kind, ConfigFault.message⟩

/-- Why a receiver cannot be built. -/
inductive ReceiverFault where
  | missingRegistry (receiver : String)
  | processorNotRegistered (receiver messageType : String)
  | invalidSettings (receiver : String) (fault : SettingsFault)
  | invalidConfig (receiver reason : String)
  deriving DecidableEq

namespace ReceiverFault

def message : ReceiverFault → String
  | .missingRegistry receiver => "receiver " ++ receiver ++ " has no processor registry"
  | .processorNotRegistered receiver messageType =>
    "receiver " ++ receiver ++ ": no processor registered for " ++ messageType
  | .invalidSettings receiver fault => "receiver " ++ receiver ++ ": " ++ fault.message
  | .invalidConfig receiver reason => "receiver " ++ receiver ++ ": " ++ reason

/-- The word for the kind of a fault. -/
def kind : ReceiverFault → String
  | .missingRegistry _ => "MissingRegistry"
  | .processorNotRegistered .. => "ProcessorNotRegistered"
  | .invalidSettings .. => "InvalidSettings"
  | .invalidConfig .. => "InvalidConfig"

end ReceiverFault

instance : FaultFamily ReceiverFault := ⟨ReceiverFault.kind, ReceiverFault.message⟩

/-- Why a host does not start. -/
inductive HostFault where
  | configuration (text : String)
  | missingLockManager (component : String)
  | receiver (fault : ReceiverFault)
  | lock (fault : LockFault)
  | component (name : String) (cause : Cause)
  | alreadyStarted
  deriving DecidableEq

namespace HostFault

def message : HostFault → String
  | .configuration text => "invalid host configuration: " ++ text
  | .missingLockManager name =>
    "singleton component " ++ name ++ " requires a lock manager"
  | .receiver fault => fault.message
  | .lock fault => "lock store initialization failed: " ++ fault.message
  | .component name cause => "component " ++ name ++ " failed to start: " ++ cause.text
  | .alreadyStarted => "host is already started"

/-- The word for the kind of a fault. -/
def kind : HostFault → String
  | .configuration _ => "Configuration"
  | .missingLockManager _ => "MissingLockManager"
  | .receiver _ => "Receiver"
  | .lock _ => "Lock"
  | .component .. => "Component"
  | .alreadyStarted => "AlreadyStarted"

end HostFault

instance : FaultFamily HostFault := ⟨HostFault.kind, HostFault.message⟩

end Courier
