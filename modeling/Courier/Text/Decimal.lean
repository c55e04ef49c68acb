/-!
# Shortest decimals

A binary floating point number is written with the fewest decimal digits that still read back as
the same number; of several such decimals the nearest is taken. The number itself is held by its
64 bits, and the search runs in exact natural arithmetic.

`Decimal.text` places the point: positional for exponents from -5 up to 16, with an exponent
otherwise.
-/

namespace Courier

namespace Decimal

/-- A finite positive number: `mantissa * 2 ^ (power - 1074)`. -/
structure Binary where
  mantissa : Nat
  power : Nat
  /-- Whether the gap below the number is half the gap above it. -/
  narrowBelow : Bool

/-- The sign of a double and its magnitude, from its bits. -/
def decode (bits : UInt64) : Bool × Binary :=
  let fraction := bits.toNat % Nat.pow 2 52
  let exponent := bits.toNat / Nat.pow 2 52 % Nat.pow 2 11
  let negative := bits.toNat / Nat.pow 2 63 == 1
  if exponent = 0 then (negative, ⟨fraction, 0, false⟩)
  else (negative, ⟨Nat.pow 2 52 + fraction, exponent - 1, fraction == 0 && exponent != 1⟩)

/-- Whether a double is neither infinite nor a number. -/
def isFinite (bits : UInt64) : Bool := bits.toNat / Nat.pow 2 52 % Nat.pow 2 11 != 2047

/-- A magnitude as a fraction, with the fractions below and above which other doubles are nearer;
all three are over the same denominator. -/
structure Interval where
  low : Nat
  value : Nat
  high : Nat
  denominator : Nat
  closed : Bool

def Binary.interval (b : Binary) : Interval :=
  let scale := Nat.pow 2 b.power
  { low := (4 * b.mantissa - if b.narrowBelow then 1 else 2) * scale
    value := 4 * b.mantissa * scale
    high := (4 * b.mantissa + 2) * scale
    denominator := 4 * Nat.pow 2 1074
    closed := b.mantissa % 2 == 0 }

/-- Whether `digits * 10 ^ up / 10 ^ down` lies in the interval. -/
def Interval.holds (i : Interval) (digits up down : Nat) : Bool :=
  let x := digits * Nat.pow 10 up * i.denominator
  let low := i.low * Nat.pow 10 down
  let high := i.high * Nat.pow 10 down
  if i.closed then low ≤ x && x ≤ high else low < x && x < high

/-- How many decimal digits a number is written with. -/
def digitCount (n : Nat) : Nat := (Nat.toDigits 10 n).length

/-- The nearest decimal of `places` digits after scaling by `10 ^ up / 10 ^ down` that reads back,
if one does. -/
def Interval.candidate? (i : Interval) (up down : Nat) : Option Nat :=
  let numerator := i.value * Nat.pow 10 down
  let unit := i.denominator * Nat.pow 10 up
  let below := numerator / unit
  let twice := 2 * (numerator % unit)
  let order :=
    if twice < unit ∨ (twice = unit ∧ below % 2 = 0) then [below, below + 1]
    else [below + 1, below]
  order.find? fun digits => i.holds digits up down

/-- Digits and the power of ten of the shortest decimal, searched on ever finer grids from one with
a single digit on. -/
def search (i : Interval) : Nat → Int → Nat × Int
  | 0, power => (i.value / i.denominator, power)
  | steps + 1, power =>
    match i.candidate? power.toNat (-power).toNat with
    | some digits => (digits, power)
    | none => search i steps (power - 1)

/-- The power of ten of the first digit of the interval's value. -/
def leadingPower (i : Interval) : Int :=
  let whole := i.value / i.denominator
  if whole = 0 then
    let scaled := i.value * Nat.pow 10 400 / i.denominator
    (digitCount scaled : Int) - 401
  else (digitCount whole : Int) - 1

/-- Drops the zeros at the end of the digits. -/
def strip : Nat → Nat → Int → Nat × Int
  | 0, digits, power => (digits, power)
  | steps + 1, digits, power =>
    if digits % 10 = 0 ∧ digits ≠ 0 then strip steps (digits / 10) (power + 1) else (digits, power)

/-- Digits and power of ten of a magnitude that is not zero. -/
def shortest (b : Binary) : Nat × Int :=
  let i := b.interval
  let (digits, power) := search i 18 (leadingPower i)
  strip 400 digits power

/-- Digits placed by their power of ten. -/
def place (digits : Nat) (power : Int) : String :=
  let ds := Nat.toDigits 10 digits
  let point := (ds.length : Int) + power
  if 0 ≤ power ∧ point ≤ 16 then
    String.ofList (ds ++ List.replicate power.toNat '0') ++ ".0"
  else if 0 < point ∧ point ≤ 16 then
    String.ofList (ds.take point.toNat) ++ "." ++ String.ofList (ds.drop point.toNat)
  else if -5 < point ∧ point ≤ 0 then
    "0." ++ String.ofList (List.replicate (-point).toNat '0' ++ ds)
  else
    let exponent := toString (point - 1)
    match ds with
    | [] => "0.0"
    | [d] => String.ofList [d] ++ "e" ++ exponent
    | d :: more => String.ofList (d :: '.' :: more) ++ "e" ++ exponent

/-- The shortest text of a double; one that is not finite has none and is written `null`. -/
def text (bits : UInt64) : String :=
  if isFinite bits then
    let (negative, b) := decode bits
    let magnitude :=
      if b.mantissa = 0 then "0.0"
      else
        let (digits, power) := shortest b
        place digits power
    if negative then "-" ++ magnitude else magnitude
  else "null"

/-- The double nearest to `digits * 10 ^ power`, or nothing when it is too large. -/
def ofParts? (negative : Bool) (digits : Nat) (power : Int) : Option UInt64 :=
  let sign : UInt64 := if negative then 0x8000000000000000 else 0
  let top := (digitCount digits : Int) + power
  if digits = 0 ∨ top < -400 then some sign
  else if 310 < top then none
  else
    let magnitude := (Float.ofScientific digits (power < 0) power.natAbs).toBits
    if isFinite magnitude then some (sign + magnitude) else none

end Decimal

end Courier
