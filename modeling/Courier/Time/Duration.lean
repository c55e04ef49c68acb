/-!
# Durations

A duration is a whole number of nanoseconds, at most the largest number of seconds that fits
64 bits and the nanoseconds below the next one. Arithmetic on durations saturates there, so a
delay that keeps doubling stays at the longest duration instead of wrapping.

`Duration.text` is the reading used in messages: the largest unit of which there is at least
one, with the exact fraction and no trailing zeros.
-/

namespace Courier

/-- The longest duration in nanoseconds: `2 ^ 64 - 1` seconds and 999 999 999 nanoseconds. -/
def Duration.limit : Nat := Nat.pow 2 64 * 1000000000 - 1

/-- A span of time of at most `Duration.limit` nanoseconds. -/
structure Duration where
  nanoseconds : Nat
  le_limit : nanoseconds ≤ Duration.limit
  deriving DecidableEq

namespace Duration

/-- The duration of `n` nanoseconds, or the longest one when that is shorter. -/
def ofNanoseconds (n : Nat) : Duration :=
  ⟨min n limit, Nat.min_le_right n limit⟩

/-- The duration of `s` seconds and `n` nanoseconds. -/
def ofParts (s n : Nat) : Duration := ofNanoseconds (s * 1000000000 + n)

def ofSeconds (s : Nat) : Duration := ofParts s 0

def ofMilliseconds (ms : Nat) : Duration := ofNanoseconds (ms * 1000000)

def zero : Duration := ofNanoseconds 0

instance : Inhabited Duration := ⟨zero⟩

/-- The whole seconds of a duration. -/
def seconds (d : Duration) : Nat := d.nanoseconds / 1000000000

/-- The nanoseconds past the last whole second. -/
def subsecond (d : Duration) : Nat := d.nanoseconds % 1000000000

def isZero (d : Duration) : Bool := d.nanoseconds == 0

/-- Twice as long, saturating at the longest duration. -/
def double (d : Duration) : Duration := ofNanoseconds (2 * d.nanoseconds)

@[simp] theorem nanoseconds_ofNanoseconds (n : Nat) :
    (ofNanoseconds n).nanoseconds = min n limit := rfl

@[simp] theorem nanoseconds_double (d : Duration) :
    d.double.nanoseconds = min (2 * d.nanoseconds) limit := rfl

theorem seconds_subsecond (d : Duration) :
    d.seconds * 1000000000 + d.subsecond = d.nanoseconds := by
  simp only [seconds, subsecond]
  omega

/-- The digits of `part` as a decimal fraction of `width` places, without trailing zeros. -/
def fraction (part width : Nat) : String :=
  let digits := Nat.toDigits 10 part
  let padded := List.replicate (width - digits.length) '0' ++ digits
  let kept := (padded.reverse.dropWhile (· == '0')).reverse
  if kept.isEmpty then "" else "." ++ String.ofList kept

/-- A duration in the largest of seconds, milliseconds, microseconds and nanoseconds whose whole
part is not zero. -/
def text (d : Duration) : String :=
  let n := d.nanoseconds
  if 1000000000 ≤ n then toString (n / 1000000000) ++ fraction (n % 1000000000) 9 ++ "s"
  else if 1000000 ≤ n then toString (n / 1000000) ++ fraction (n % 1000000) 6 ++ "ms"
  else if 1000 ≤ n then toString (n / 1000) ++ fraction (n % 1000) 3 ++ "µs"
  else toString n ++ "ns"

end Duration

end Courier
