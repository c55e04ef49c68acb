import Courier.Fault

/-!
# Configuration of hosts

Timing of singleton components and receive loops, and the identity of a host. `validate` names
the first thing wrong.
-/

namespace Courier

/-- Timing of a component of which only one member of a fleet may run. -/
structure SingletonConfig where
  leasePeriod : Duration := .ofSeconds 60
  renewInterval : Duration := .ofSeconds 30
  pollInterval : Duration := .ofSeconds 60
  renewRetries : UInt32 := 3
  renewRetryDelay : Duration := .ofSeconds 1
  renewTimeout : Duration := .ofSeconds 10
  deriving DecidableEq

namespace SingletonConfig

/-- Leases have to last, and to be renewed before they end. -/
def validate (c : SingletonConfig) : Except ConfigFault Unit :=
  if c.leasePeriod.isZero || c.renewInterval.isZero || c.pollInterval.isZero then
    .error .zeroInterval
  else if c.leasePeriod.nanoseconds ≤ c.renewInterval.nanoseconds then
    .error (.lateRenewal c.renewInterval c.leasePeriod)
  else .ok ()

end SingletonConfig

/-- Timing of a receive loop. -/
structure ReceiverConfig where
  receiveWait : Duration := .ofSeconds 1
  receiveErrorBackoff : Duration := .ofSeconds 5
  deriving DecidableEq

namespace ReceiverConfig

/-- A receive has to wait, or a loop over an empty queue would never rest. -/
def validate (c : ReceiverConfig) : Except ConfigFault Unit :=
  if c.receiveWait.isZero then .error .zeroReceiveWait else .ok ()

end ReceiverConfig

/-- How a host reports what it does. -/
structure TelemetryConfig where
  logLevel : String := "info"
  json : Bool := false
  serviceName : String := "conveyor"
  deriving DecidableEq

/-- The identity and the timing of a host. -/
structure HostConfig where
  instanceId : String
  drainTimeout : Duration := .ofSeconds 30
  singleton : SingletonConfig := {}
  receiver : ReceiverConfig := {}
  telemetry : TelemetryConfig := {}
  deriving DecidableEq

namespace HostConfig

/-- Refuses a host without name and timing that is wrong. -/
def validate (c : HostConfig) : Except ConfigFault Unit := do
  if c.instanceId.isEmpty then throw .emptyInstanceId
  c.singleton.validate
  c.receiver.validate

end HostConfig

end Courier
