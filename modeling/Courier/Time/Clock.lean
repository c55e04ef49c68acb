import Courier.Time.Duration

/-!
# Instants and the clock

Instants are natural numbers, the nanoseconds since the beginning. There is a last one, and
durations can be longer than that: where an instant is kept, for a lock or for a deadline, the sum
may not fit. Timers take any sum.

A clock holds the present instant and the resolution of its timers: a timer set for an instant goes
off at the first multiple of the resolution that is not before it. Comparisons of instants are
exact, only timers are rounded.
-/

namespace Courier

namespace Instant

/-- The last instant: `2 ^ 63 - 1` seconds and 999 999 999 nanoseconds. -/
def last : Nat := Nat.pow 2 63 * 1000000000 - 1

/-- The instant `d` after `t`, unless it is past the last one. -/
def plus? (t : Nat) (d : Duration) : Option Nat :=
  if t + d.nanoseconds ≤ last then some (t + d.nanoseconds) else none

/-- Whole milliseconds since the beginning. -/
def milliseconds (t : Nat) : Nat := t / 1000000

/-- What is left from `now` until `deadline`, nothing once it has passed. -/
def remaining (deadline now : Nat) : Duration := .ofNanoseconds (deadline - now)

theorem plus?_eq_some_iff {t u : Nat} {d : Duration} :
    plus? t d = some u ↔ t + d.nanoseconds ≤ last ∧ u = t + d.nanoseconds := by
  simp [plus?, eq_comm]

theorem plus?_eq_none_iff {t : Nat} {d : Duration} :
    plus? t d = none ↔ last < t + d.nanoseconds := by
  simp [plus?]

theorem plus?_of_le {t : Nat} {d : Duration} (fits : t + d.nanoseconds ≤ last) :
    plus? t d = some (t + d.nanoseconds) :=
  if_pos fits

end Instant

/-- The present instant and the resolution of timers in nanoseconds. -/
structure Clock where
  now : Nat := 0
  resolution : Nat := 1000000

namespace Clock

/-- When a timer set for `t` goes off: `t` rounded up to the resolution. -/
def alarm (c : Clock) (t : Nat) : Nat :=
  (t + (c.resolution - 1)) / c.resolution * c.resolution

/-- Whether a timer set for `t` has gone off. -/
def due (c : Clock) (t : Nat) : Bool := c.alarm t ≤ c.now

/-- The clock moved on to `t`; it never goes back. -/
def advanceTo (c : Clock) (t : Nat) : Clock := { c with now := max c.now t }

@[simp] theorem advanceTo_now (c : Clock) (t : Nat) :
    (c.advanceTo t).now = max c.now t := rfl

@[simp] theorem advanceTo_resolution (c : Clock) (t : Nat) :
    (c.advanceTo t).resolution = c.resolution := rfl

theorem le_alarm (c : Clock) (t : Nat) (h : 0 < c.resolution) : t ≤ c.alarm t := by
  have whole_part := Nat.div_add_mod' (t + (c.resolution - 1)) c.resolution
  have rest := Nat.mod_lt (t + (c.resolution - 1)) h
  simp only [alarm]
  revert whole_part rest
  generalize (t + (c.resolution - 1)) / c.resolution * c.resolution = whole
  generalize (t + (c.resolution - 1)) % c.resolution = left
  omega

theorem alarm_le (c : Clock) (t : Nat) : c.alarm t ≤ t + (c.resolution - 1) :=
  Nat.div_mul_le_self _ _

theorem alarm_mono (c : Clock) {t u : Nat} (h : t ≤ u) : c.alarm t ≤ c.alarm u :=
  Nat.mul_le_mul_right _ (Nat.div_le_div_right (Nat.add_le_add_right h _))

/-- A timer set for a multiple of the resolution goes off then. -/
theorem alarm_of_dvd (c : Clock) {t : Nat} (whole : c.resolution ∣ t) : c.alarm t = t := by
  obtain ⟨k, rfl⟩ := whole
  by_cases none : c.resolution = 0
  · simp [alarm, none]
  · have small : (c.resolution - 1) / c.resolution = 0 := Nat.div_eq_of_lt (by omega)
    rw [alarm, Nat.mul_add_div (Nat.pos_of_ne_zero none), small, Nat.add_zero, Nat.mul_comm]

@[simp] theorem alarm_alarm (c : Clock) (t : Nat) : c.alarm (c.alarm t) = c.alarm t :=
  c.alarm_of_dvd (Nat.dvd_mul_left _ _)

end Clock

end Courier
