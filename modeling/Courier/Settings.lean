import Courier.Fault

/-!
# Processing settings

How a receiver handles its messages: how many at once, how many it may hold beyond these, for how
long a delivery is locked, and after how many deliveries a message is given up. Counts are words of
the machine, and the number of attempts that may be in flight is their sum where it fits a word.
-/

namespace Courier

/-- How a receiver handles its messages. -/
structure Settings where
  maxConcurrentCalls : UInt64 := 10
  prefetchCount : UInt64 := 0
  lockTimeout : Duration := .ofSeconds 60
  deadLetterDeliveryLimit : UInt32 := 10
  deriving DecidableEq

namespace Settings

/-- Refuses settings under which no message could be handled; the first thing wrong is named. -/
def validate (s : Settings) : Except SettingsFault Unit :=
  if s.maxConcurrentCalls = 0 then .error .zeroConcurrency
  else if s.deadLetterDeliveryLimit = 0 then .error .zeroDeliveryLimit
  else if s.lockTimeout.isZero then .error .zeroLockTimeout
  else .ok ()

/-- Whether a message delivered for the `count`-th time is given up. -/
def exceedsDeliveryLimit (s : Settings) (count : UInt32) : Bool :=
  s.deadLetterDeliveryLimit < count

/-- The settings of a receiver of which only one may run: one message at a time, none ahead. -/
def forSingleton (s : Settings) : Settings :=
  { s with maxConcurrentCalls := 1, prefetchCount := 0 }

/-- How many attempts may be in flight, or nothing when the sum does not fit a word. -/
def inFlightCapacity? (s : Settings) : Option UInt64 :=
  let sum := s.maxConcurrentCalls.toNat + s.prefetchCount.toNat
  if sum < Nat.pow 2 64 then some (.ofNat sum) else none

@[simp] theorem forSingleton_maxConcurrentCalls (s : Settings) :
    s.forSingleton.maxConcurrentCalls = 1 := rfl

@[simp] theorem forSingleton_prefetchCount (s : Settings) :
    s.forSingleton.prefetchCount = 0 := rfl

@[simp] theorem forSingleton_lockTimeout (s : Settings) :
    s.forSingleton.lockTimeout = s.lockTimeout := rfl

@[simp] theorem forSingleton_deadLetterDeliveryLimit (s : Settings) :
    s.forSingleton.deadLetterDeliveryLimit = s.deadLetterDeliveryLimit := rfl

end Settings

end Courier
