import Courier.Config
import Courier.Receiver.Build
import Courier.View.Basic

/-!
# Views of settings

Settings and configurations with what validation says of them.
-/

namespace Courier

namespace View

def settings (s : Settings) : Value := .record
  [("max_concurrent_calls", number s.maxConcurrentCalls.toNat),
   ("prefetch_count", number s.prefetchCount.toNat),
   ("lock_timeout", duration s.lockTimeout),
   ("dead_letter_delivery_limit", number s.deadLetterDeliveryLimit.toNat)]

/-- Settings, what they make of delivery counts, and the settings that a singleton would get. -/
def settingsReport (s : Settings) (counts : List UInt32) : Value :=
  let one := s.forSingleton
  match s.inFlightCapacity?, one.inFlightCapacity? with
  | some capacity, some oneCapacity => .record
    [("settings", settings s), ("validate", outcome s.validate),
     ("exceeds", each (fun n => .bool (s.exceedsDeliveryLimit n)) counts),
     ("singleton", settings one), ("singleton_validate", outcome one.validate),
     ("singleton_capacity", number oneCapacity.toNat), ("capacity", number capacity.toNat)]
  | _, _ => overflow

def singletonConfig (c : SingletonConfig) : Value := .record
  [("lease_period", duration c.leasePeriod), ("renew_interval", duration c.renewInterval),
   ("poll_interval", duration c.pollInterval), ("renew_retries", number c.renewRetries.toNat),
   ("renew_retry_delay", duration c.renewRetryDelay), ("renew_timeout", duration c.renewTimeout)]

def receiverConfig (c : ReceiverConfig) : Value := .record
  [("receive_wait", duration c.receiveWait),
   ("receive_error_backoff", duration c.receiveErrorBackoff)]

def telemetryConfig (c : TelemetryConfig) : Value := .record
  [("log_level", .text c.logLevel), ("json", .bool c.json), ("service_name", .text c.serviceName)]

def configReport (c : HostConfig) : Value := .record
  [("instance_id", .text c.instanceId), ("drain_timeout", duration c.drainTimeout),
   ("singleton", singletonConfig c.singleton), ("receiver", receiverConfig c.receiver),
   ("telemetry", telemetryConfig c.telemetry), ("validate", outcome c.validate),
   ("validate_singleton", outcome c.singleton.validate),
   ("validate_receiver", outcome c.receiver.validate)]

/-- A receiver that was built and not started. -/
def receiver (r : Receiver) : Value := .record
  [("name", .text r.name), ("lock_id", .text r.processor), ("is_singleton", .bool r.singleton),
   ("is_running", .bool false), ("settings", settings r.settings),
   ("gate", .list [number r.slots, number r.slots])]

end View

end Courier
