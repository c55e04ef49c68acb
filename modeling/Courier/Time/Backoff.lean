import Courier.Time.Duration

/-!
# Doubling delays

A backoff gives a limited number of delays. Each is twice the one before and they saturate at the
longest duration.
-/

namespace Courier

/-- The next delay and how many delays are left. -/
structure Backoff where
  delay : Duration
  left : Nat
  deriving DecidableEq

namespace Backoff

/-- The next delay with the backoff after it, or nothing when the delays are used up. -/
def next? (b : Backoff) : Option (Duration × Backoff) :=
  match b.left with
  | 0 => none
  | n + 1 => some (b.delay, ⟨b.delay.double, n⟩)

/-- The answers to the next `count` requests for a delay. -/
def take : Nat → Backoff → List (Option Duration)
  | 0, _ => []
  | n + 1, b =>
    match b.next? with
    | some (d, rest) => some d :: take n rest
    | none => none :: take n b

@[simp] theorem next?_zero (d : Duration) : next? ⟨d, 0⟩ = none := rfl

@[simp] theorem next?_succ (d : Duration) (n : Nat) :
    next? ⟨d, n + 1⟩ = some (d, ⟨d.double, n⟩) := rfl

end Backoff

end Courier
