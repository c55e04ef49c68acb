import Mathlib.Data.Nat.Digits.Lemmas
import Mathlib.Tactic.IntervalCases
import Courier.Text.Decimal

/-!
# The form of decimals

Numbers are written as digits, perhaps a fraction, and perhaps an exponent (`Numeral`). The digits
before the point begin with a zero only if they are nothing else (`Numeral.IsRegular`). Every double
that is finite is written in this form (`text_eq_numeral`), whether or not the search for its
shortest decimal finds one.
-/

namespace Courier

/-- The parts of a number after its sign. -/
structure Numeral where
  whole : List Char
  fraction : Option (List Char) := none
  /-- Whether the exponent is negative, and its digits. -/
  exponent : Option (Bool × List Char) := none

/-- Some digits, one at least. -/
structure AreDigits (ds : List Char) : Prop where
  some' : ds ≠ []
  all : ∀ c ∈ ds, c.isDigit = true

theorem AreDigits.append {ds es : List Char} (digits : AreDigits ds)
    (more : ∀ c ∈ es, c.isDigit = true) : AreDigits (ds ++ es) :=
  ⟨List.append_ne_nil_of_left_ne_nil digits.some' es,
    List.forall_mem_append.mpr ⟨digits.all, more⟩⟩

theorem isDigit_of_mem_zeros {n : Nat} : ∀ c ∈ List.replicate n '0', c.isDigit = true :=
  fun _ mem => List.eq_of_mem_replicate mem ▸ rfl

theorem areDigits_zero : AreDigits ['0'] := ⟨List.cons_ne_nil _ _, by simp⟩

namespace Numeral

def fractionChars : Option (List Char) → List Char
  | some ds => '.' :: ds
  | none => []

def exponentChars : Option (Bool × List Char) → List Char
  | some (negative, ds) => 'e' :: ((if negative then ['-'] else []) ++ ds)
  | none => []

/-- The characters of a number after its sign. -/
def chars (n : Numeral) : List Char :=
  n.whole ++ (fractionChars n.fraction ++ exponentChars n.exponent)

/-- Nothing is missing from a number, and it has no needless zero. -/
structure IsRegular (n : Numeral) : Prop where
  whole : AreDigits n.whole
  proper : ∀ more, n.whole = '0' :: more → more = []
  fraction : ∀ ds, n.fraction = some ds → AreDigits ds
  exponent : ∀ negative ds, n.exponent = some (negative, ds) → AreDigits ds

/-- A number with a fraction. -/
theorem IsRegular.ofFraction {whole fraction : List Char} (digits : AreDigits whole)
    (proper : ∀ more, whole = '0' :: more → more = []) (digits' : AreDigits fraction) :
    IsRegular ⟨whole, some fraction, none⟩ where
  whole := digits
  proper := proper
  fraction _ same := Option.some.inj same ▸ digits'
  exponent _ _ same := nomatch same

/-- A number with a single digit before its point and with an exponent. -/
theorem IsRegular.ofExponent {d : Char} {fraction : Option (List Char)} {negative : Bool}
    {exponent : List Char} (digit : d.isDigit = true) (digits : ∀ ds ∈ fraction, AreDigits ds)
    (digits' : AreDigits exponent) :
    IsRegular ⟨[d], fraction, some (negative, exponent)⟩ where
  whole := ⟨List.cons_ne_nil _ _, by simpa using digit⟩
  proper more same := (List.cons.inj same).2.symm
  fraction := digits
  exponent _ _ same := by cases same; exact digits'

end Numeral

namespace Decimal

theorem areDigits_toDigits (n : Nat) : AreDigits (Nat.toDigits 10 n) :=
  ⟨Nat.toDigits_ne_nil, fun _ mem => Nat.isDigit_of_mem_toDigits (by decide) (by decide) mem⟩

/-- The digits of a number begin with a zero only if the number is zero. -/
theorem toDigits_proper {n : Nat} {more : List Char} (digits : Nat.toDigits 10 n = '0' :: more) :
    n = 0 ∧ more = [] := by
  induction n using Nat.strongRecOn generalizing more with
  | ind n ih =>
      obtain small | large := Nat.lt_or_ge n 10
      · rw [Nat.toDigits_of_lt_base small, List.cons.injEq] at digits
        refine ⟨?_, digits.2.symm⟩
        interval_cases n <;> first | rfl | exact absurd digits.1 (by decide)
      · rw [Nat.toDigits_of_base_le (by decide) large] at digits
        cases front : Nat.toDigits 10 (n / 10) with
        | nil => exact absurd front Nat.toDigits_ne_nil
        | cons d ds =>
            rw [front, List.cons_append, List.cons.injEq] at digits
            rw [digits.1] at front
            have zero := (ih (n / 10) (by omega) front).1
            omega


/-- A number written with digits alone. -/
def whole (n : Nat) : Numeral := { whole := Nat.toDigits 10 n }

theorem chars_whole (n : Nat) : (whole n).chars = Nat.toDigits 10 n := List.append_nil _

theorem isRegular_whole (n : Nat) : (whole n).IsRegular where
  whole := areDigits_toDigits n
  proper _ front := (toDigits_proper front).2
  fraction _ same := nomatch same
  exponent _ _ same := nomatch same

theorem toList_toString (i : Int) :
    (toString i).toList = (if i < 0 then ['-'] else []) ++ Nat.toDigits 10 i.natAbs := by
  rw [Int.toString_eq_repr, Int.repr_eq_if]
  split
  · rename_i positive
    have same : i.toNat = i.natAbs := by omega
    rw [Nat.toList_repr, if_neg (Int.not_lt.mpr positive), same]
    rfl
  · rename_i negative
    have same : (-i).toNat = i.natAbs := by omega
    rw [String.toList_append, Nat.toList_repr, if_pos (Int.not_le.mp negative), same]
    rfl

/-- Placed digits are a number, unless zeros would have to be added to a zero. -/
theorem place_eq_numeral {digits : Nat} {power : Int} (zero : digits = 0 → power < 0) :
    ∃ n : Numeral, n.IsRegular ∧ (place digits power).toList = n.chars := by
  have all := areDigits_toDigits digits
  have proper {more : List Char} (front : Nat.toDigits 10 digits = '0' :: more) :=
    toDigits_proper front
  unfold place
  simp only
  generalize Nat.toDigits 10 digits = ds at all proper
  have some' : 0 < ds.length := List.length_pos_iff.mpr all.some'
  split
  · rename_i fits
    refine ⟨⟨ds ++ List.replicate power.toNat '0', some ['0'], none⟩,
      .ofFraction (all.append isDigit_of_mem_zeros) (fun more front => ?_) areDigits_zero, ?_⟩
    · obtain ⟨d, ds, rfl⟩ := List.exists_cons_of_ne_nil all.some'
      rw [List.cons_append, List.cons.injEq] at front
      have := zero (proper (by rw [front.1])).1
      omega
    · simp [Numeral.chars, Numeral.fractionChars, Numeral.exponentChars]
  split
  · rename_i inside
    generalize split : (ds.length + power).toNat = point
    have taken : ds.take point ≠ [] := by
      rw [Ne, List.take_eq_nil_iff, not_or]
      exact ⟨by omega, all.some'⟩
    have left : ds.drop point ≠ [] := by
      rw [Ne, List.drop_eq_nil_iff]
      omega
    refine ⟨⟨ds.take point, some (ds.drop point), none⟩,
      .ofFraction ⟨taken, fun c mem => all.all c (List.mem_of_mem_take mem)⟩
        (fun more front => ?_) ⟨left, fun c mem => all.all c (List.mem_of_mem_drop mem)⟩, ?_⟩
    · obtain ⟨d, ds, rfl⟩ := List.exists_cons_of_ne_nil all.some'
      obtain _ | point := point
      · exact absurd rfl taken
      rw [List.take_succ_cons, List.cons.injEq] at front
      obtain ⟨rfl, rfl⟩ := proper (by rw [front.1])
      exact front.2.symm.trans List.take_nil
    · simp [Numeral.chars, Numeral.fractionChars, Numeral.exponentChars]
  split
  · refine ⟨⟨['0'], some (List.replicate (-(ds.length + power)).toNat '0' ++ ds), none⟩,
      .ofFraction areDigits_zero (fun more front => (List.cons.inj front).2.symm)
        ⟨List.append_ne_nil_of_right_ne_nil _ all.some',
          List.forall_mem_append.mpr ⟨isDigit_of_mem_zeros, all.all⟩⟩, ?_⟩
    simp [Numeral.chars, Numeral.fractionChars, Numeral.exponentChars]
  · generalize ds.length + power - 1 = exponent
    obtain _ | ⟨d, _ | ⟨e, more⟩⟩ := ds
    · exact absurd rfl all.some'
    · refine ⟨⟨[d], none, some (exponent < 0, Nat.toDigits 10 exponent.natAbs)⟩,
        .ofExponent (all.all d List.mem_cons_self) nofun (areDigits_toDigits _), ?_⟩
      simp [Numeral.chars, Numeral.fractionChars, Numeral.exponentChars, ← toList_toString]
    · refine ⟨⟨[d], some (e :: more), some (exponent < 0, Nat.toDigits 10 exponent.natAbs)⟩,
        .ofExponent (all.all d List.mem_cons_self) ?_ (areDigits_toDigits _), ?_⟩
      · rintro _ ⟨⟩
        exact ⟨List.cons_ne_nil _ _, fun c mem => all.all c (List.mem_cons_of_mem _ mem)⟩
      · simp [Numeral.chars, Numeral.fractionChars, Numeral.exponentChars, ← toList_toString]

/-- A decimal that reads back as a positive number is not zero. -/
theorem pos_of_candidate? {i : Interval} (positive : 0 < i.low) {up down digits : Nat}
    (found : i.candidate? up down = some digits) : digits ≠ 0 := by
  rintro rfl
  have holds : i.holds 0 up down = true :=
    List.find?_some (p := fun digits => i.holds digits up down) found
  have scaled : 0 < i.low * Nat.pow 10 down := Nat.mul_pos positive (Nat.pow_pos (by decide))
  simp only [Interval.holds, Nat.zero_mul] at holds
  split at holds
  · simp at holds
    omega
  · simp at holds

theorem search_zero {i : Interval} (positive : 0 < i.low) {steps : Nat} {power : Int}
    (below : i.value / i.denominator = 0 → power < 0) (zero : (search i steps power).1 = 0) :
    (search i steps power).2 < 0 := by
  induction steps generalizing power with
  | zero => exact below zero
  | succ steps ih =>
      rw [search] at zero ⊢
      split at zero
      · rename_i found
        exact absurd zero (pos_of_candidate? positive found)
      · exact ih (fun small => by have := below small; omega) zero

/-- A number below one has no more digits than it is scaled by. -/
theorem digitCount_scaled {value denominator places : Nat} (small : value < denominator)
    (some' : 0 < places) :
    digitCount (value * Nat.pow 10 places / denominator) ≤ places :=
  Nat.toDigits_length 10 _ places some' <|
    Nat.div_lt_of_lt_mul (Nat.mul_lt_mul_of_pos_right small (Nat.pow_pos (by decide)))

theorem leadingPower_neg {i : Interval} (some' : 0 < i.denominator)
    (below : i.value / i.denominator = 0) : leadingPower i < 0 := by
  have small : i.value < i.denominator := (Nat.div_eq_zero_iff_lt some').mp below
  unfold leadingPower
  generalize same : 400 = places
  have short := digitCount_scaled small (show 0 < places by omega)
  simp only [if_pos below]
  omega

theorem strip_zero {steps digits : Nat} {power : Int} (zero : (strip steps digits power).1 = 0) :
    digits = 0 ∧ (strip steps digits power).2 = power := by
  induction steps generalizing digits power with
  | zero => exact ⟨zero, rfl⟩
  | succ steps ih =>
      rw [strip] at zero ⊢
      split at zero
      · have := (ih zero).1
        omega
      · rename_i last
        rw [if_neg last]
        exact ⟨zero, rfl⟩

/-- The digits of a positive number are zero at most after its point. -/
theorem shortest_zero {b : Binary} (positive : 0 < b.mantissa) (zero : (shortest b).1 = 0) :
    (shortest b).2 < 0 := by
  have power (n : Nat) : 0 < Nat.pow 2 n := Nat.two_pow_pos n
  have low : 0 < b.interval.low := Nat.mul_pos (by split <;> omega) (power b.power)
  have some' : 0 < b.interval.denominator := by
    unfold Binary.interval
    generalize 1074 = n
    exact Nat.mul_pos (by decide) (power n)
  unfold shortest at zero ⊢
  generalize 18 = steps at zero ⊢
  obtain ⟨searched, same⟩ := strip_zero zero
  rw [same]
  exact search_zero low (leadingPower_neg some') searched

theorem text_of_not_finite {bits : UInt64} (infinite : isFinite bits = false) :
    text bits = "null" := by
  simp [text, infinite]

/-- A finite double is written as a number after its sign. -/
theorem text_eq_numeral {bits : UInt64} (finite : isFinite bits = true) :
    ∃ n : Numeral, n.IsRegular ∧
      (text bits).toList = (if (decode bits).1 then ['-'] else []) ++ n.chars := by
  have magnitude : ∃ n : Numeral, n.IsRegular ∧
      (if (decode bits).2.mantissa = 0 then "0.0"
        else place (shortest (decode bits).2).1 (shortest (decode bits).2).2).toList = n.chars := by
    split
    · refine ⟨⟨['0'], some ['0'], none⟩, .ofFraction areDigits_zero (fun more front => ?_)
        areDigits_zero, rfl⟩
      exact (List.cons.inj front).2.symm
    · rename_i some'
      exact place_eq_numeral (shortest_zero (Nat.pos_of_ne_zero some'))
  obtain ⟨n, regular, same⟩ := magnitude
  refine ⟨n, regular, ?_⟩
  unfold text
  rw [if_pos finite]
  simp only
  split
  · rw [String.toList_append, same]
    rfl
  · exact same

end Decimal

end Courier
