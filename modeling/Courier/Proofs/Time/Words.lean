import Courier.Time.Duration

/-!
# Durations in machine words

A clock keeps a duration in two machine words: the whole seconds, and the nanoseconds past the last
of them. To multiply it the nanoseconds are multiplied first, and the whole seconds in their product
are carried over. The seconds may overflow twice, in their own product and with what is carried.

`times?_eq_some` and `times?_eq_none` say that this multiplies the number of nanoseconds, and that
it overflows just where the product is longer than the longest duration. So a multiplication that
saturates gives the product or the longest duration, whichever is shorter (`duration_times`).
-/

namespace Courier

/-- A number as a word, if it is not too large for one. -/
def word? (n : Nat) : Option UInt64 := if n < UInt64.size then some (UInt64.ofNat n) else none

theorem word?_eq_some {n : Nat} (fits : n < UInt64.size) :
    ∃ word, word? n = some word ∧ word.toNat = n := by
  refine ⟨UInt64.ofNat n, if_pos fits, ?_⟩
  rw [UInt64.toNat_ofNat']
  exact Nat.mod_eq_of_lt fits

theorem word?_eq_none {n : Nat} (large : UInt64.size ≤ n) : word? n = none :=
  if_neg (Nat.not_lt.mpr large)

namespace Duration

theorem limit_eq : limit = 18446744073709551615 * 1000000000 + 999999999 := rfl

/-- A duration as two machine words. -/
structure Words where
  seconds : UInt64
  subsecond : UInt32
  small : subsecond.toNat < 1000000000

namespace Words

/-- How many nanoseconds the words stand for. -/
def nanoseconds (w : Words) : Nat := w.seconds.toNat * 1000000000 + w.subsecond.toNat

theorem nanoseconds_le (w : Words) : w.nanoseconds ≤ limit := by
  have seconds : w.seconds.toNat < 2 ^ 64 := w.seconds.toNat_lt
  have small := w.small
  rw [nanoseconds, limit_eq]
  omega

/-- The duration that the words stand for. -/
def duration (w : Words) : Duration := ⟨w.nanoseconds, w.nanoseconds_le⟩

@[simp] theorem nanoseconds_duration (w : Words) : w.duration.nanoseconds = w.nanoseconds := rfl

/-- The words of the longest duration. -/
def longest : Words := ⟨18446744073709551615, 999999999, by decide⟩

@[simp] theorem nanoseconds_longest : longest.nanoseconds = limit := rfl

/-- The duration as many times as long, unless it is too long for two words. -/
def times? (w : Words) (m : UInt32) : Option Words :=
  let parts := w.subsecond.toUInt64 * m.toUInt64
  match word? (w.seconds.toNat * m.toNat) with
  | none => none
  | some product =>
    match word? (product.toNat + (parts / 1000000000).toNat) with
    | none => none
    | some seconds => some ⟨seconds, (parts % 1000000000).toUInt32, by
        rw [UInt64.toNat_toUInt32, UInt64.toNat_mod]
        exact Nat.lt_of_le_of_lt (Nat.mod_le _ _) (Nat.mod_lt _ (by decide))⟩

/-- The duration as many times as long, or the longest one. -/
def times (w : Words) (m : UInt32) : Words := (w.times? m).getD longest

/-! ## Multiplication -/

variable {w v : Words} {m : UInt32}

/-- The nanoseconds of less than a second never overflow. -/
theorem toNat_parts (w : Words) (m : UInt32) :
    (w.subsecond.toUInt64 * m.toUInt64).toNat = w.subsecond.toNat * m.toNat := by
  have factor : m.toNat < 2 ^ 32 := m.toNat_lt
  rw [UInt64.toNat_mul, UInt32.toNat_toUInt64, UInt32.toNat_toUInt64]
  refine Nat.mod_eq_of_lt ?_
  calc w.subsecond.toNat * m.toNat < 1000000000 * 2 ^ 32 :=
        Nat.mul_lt_mul_of_lt_of_lt w.small factor
    _ < 2 ^ 64 := by decide

/-- The seconds of a product, with those that are carried over from the nanoseconds. -/
def carried (w : Words) (m : UInt32) : Nat :=
  w.seconds.toNat * m.toNat + w.subsecond.toNat * m.toNat / 1000000000

theorem nanoseconds_mul (w : Words) (m : UInt32) : w.nanoseconds * m.toNat =
    w.carried m * 1000000000 + w.subsecond.toNat * m.toNat % 1000000000 := by
  have split := Nat.div_add_mod (w.subsecond.toNat * m.toNat) 1000000000
  have product : w.seconds.toNat * 1000000000 * m.toNat =
      w.seconds.toNat * m.toNat * 1000000000 := Nat.mul_right_comm _ _ _
  rw [nanoseconds, carried, Nat.add_mul, product]
  omega

/-- A product whose seconds fit their word is exact. -/
theorem times?_eq_some (fits : w.carried m < UInt64.size) :
    ∃ v, w.times? m = some v ∧ v.nanoseconds = w.nanoseconds * m.toNat := by
  obtain ⟨product, found, value⟩ := word?_eq_some
    (Nat.lt_of_le_of_lt (Nat.le_add_right _ _) fits : w.seconds.toNat * m.toNat < UInt64.size)
  have carry : product.toNat + (w.subsecond.toUInt64 * m.toUInt64 / 1000000000).toNat =
      w.carried m := by
    rw [value, UInt64.toNat_div, toNat_parts]
    rfl
  obtain ⟨seconds, found', value'⟩ := word?_eq_some (carry ▸ fits)
  simp only [times?, found, found', Option.some.injEq, exists_eq_left']
  have rest : (w.subsecond.toUInt64 * m.toUInt64 % 1000000000).toUInt32.toNat =
      w.subsecond.toNat * m.toNat % 1000000000 := by
    have small : w.subsecond.toNat * m.toNat % 1000000000 < 1000000000 :=
      Nat.mod_lt _ (by decide)
    rw [UInt64.toNat_toUInt32, UInt64.toNat_mod, toNat_parts]
    exact Nat.mod_eq_of_lt (Nat.lt_trans small (by decide))
  rw [nanoseconds, nanoseconds_mul, value', carry, rest]

theorem times?_eq_none (large : UInt64.size ≤ w.carried m) : w.times? m = none := by
  by_cases fits : w.seconds.toNat * m.toNat < UInt64.size
  · obtain ⟨product, found, value⟩ := word?_eq_some fits
    have carry : word? (product.toNat +
        (w.subsecond.toUInt64 * m.toUInt64 / 1000000000).toNat) = none := by
      refine word?_eq_none ?_
      rw [value, UInt64.toNat_div, toNat_parts]
      exact large
    simp only [times?, found, carry]
  · simp only [times?, word?_eq_none (Nat.not_lt.mp fits)]

/-- In two words or in nanoseconds, a product that is too long becomes the longest duration. -/
theorem duration_times (w : Words) (m : UInt32) :
    (w.times m).duration = ofNanoseconds (w.nanoseconds * m.toNat) := by
  rw [Duration.mk.injEq, nanoseconds_duration, nanoseconds_ofNanoseconds, times]
  by_cases fits : w.carried m < UInt64.size
  · obtain ⟨v, found, value⟩ := times?_eq_some fits
    have short : w.nanoseconds * m.toNat ≤ limit := by
      rw [← value]
      exact v.nanoseconds_le
    rw [found, Option.getD_some, value, Nat.min_eq_left short]
  · have large : 2 ^ 64 ≤ w.carried m := Nat.not_lt.mp fits
    have long : limit ≤ w.nanoseconds * m.toNat := by
      rw [nanoseconds_mul, limit_eq]
      omega
    rw [times?_eq_none large, Option.getD_none, nanoseconds_longest, Nat.min_eq_right long]

end Words

end Duration

end Courier
