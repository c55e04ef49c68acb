import Courier.Proofs.Time.Words
import Courier.Time.Backoff
import Mathlib.Algebra.Ring.Nat

/-!
# The delays of a backoff

A backoff gives as many delays as its limit says, each twice as long as the one before, and then
nothing, however often it is asked. So the delay number `k` is the first one `2 ^ k` times
(`take_eq`), until that is longer than the longest duration; from there on every delay is the
longest one.

A machine counts the delays that it has given, and doubles the two words of the next one. A
`Counter` is a backoff kept so. It answers every request as the backoff does (`Tells.take_eq`), as
its count stays below a limit that is a word itself.
-/

namespace Courier

namespace Duration

/-- A duration doubled some times. -/
def doubled (d : Duration) : Nat → Duration
  | 0 => d
  | n + 1 => (d.doubled n).double

/-- Doubling stops at the longest duration. -/
theorem nanoseconds_doubled (d : Duration) (n : Nat) :
    (d.doubled n).nanoseconds = min (d.nanoseconds * 2 ^ n) limit := by
  induction n with
  | zero =>
      rw [doubled, Nat.pow_zero, Nat.mul_one]
      exact (Nat.min_eq_left d.le_limit).symm
  | succ n ih =>
      rw [doubled, nanoseconds_double, ih, Nat.pow_succ, ← Nat.mul_assoc]
      omega

theorem doubled_eq (d : Duration) (n : Nat) :
    d.doubled n = ofNanoseconds (d.nanoseconds * 2 ^ n) := by
  rw [Duration.mk.injEq, nanoseconds_doubled, nanoseconds_ofNanoseconds]

theorem doubled_double (d : Duration) (n : Nat) : d.double.doubled n = d.doubled (n + 1) := by
  induction n with
  | zero => rfl
  | succ n ih => exact congrArg double ih

theorem doubled_le (d : Duration) {j k : Nat} (le : j ≤ k) :
    (d.doubled j).nanoseconds ≤ (d.doubled k).nanoseconds := by
  have more : d.nanoseconds * 2 ^ j ≤ d.nanoseconds * 2 ^ k :=
    Nat.mul_le_mul_left _ (Nat.pow_le_pow_right (by decide) le)
  rw [nanoseconds_doubled, nanoseconds_doubled]
  omega

/-- Doubling makes a duration longer that is neither zero nor the longest one. -/
theorem doubled_lt {d : Duration} {j k : Nat} (positive : 0 < d.nanoseconds)
    (short : (d.doubled j).nanoseconds < limit) (lt : j < k) :
    (d.doubled j).nanoseconds < (d.doubled k).nanoseconds := by
  have positive' : 0 < (d.doubled j).nanoseconds :=
    Nat.lt_of_lt_of_le positive (d.doubled_le (Nat.zero_le j))
  calc (d.doubled j).nanoseconds < (d.doubled (j + 1)).nanoseconds := by
        rw [doubled, nanoseconds_double]
        omega
    _ ≤ (d.doubled k).nanoseconds := d.doubled_le lt

end Duration

namespace Backoff

open Courier.Duration (Words)

/-! ## Answers -/

/-- What a backoff answers to the request number `k`. -/
def answer (b : Backoff) (k : Nat) : Option Duration :=
  if k < b.left then some (b.delay.doubled k) else none

theorem answer_succ (d : Duration) (left k : Nat) :
    answer ⟨d, left + 1⟩ (k + 1) = answer ⟨d.double, left⟩ k := by
  simp only [answer, Nat.add_lt_add_iff_right, Duration.doubled_double]

theorem take_eq (count : Nat) (b : Backoff) : take count b = (List.range count).map b.answer := by
  induction count generalizing b with
  | zero => rfl
  | succ count ih =>
      rw [List.range_succ_eq_map, List.map_cons, List.map_map]
      obtain ⟨d, _ | left⟩ := b
      · rw [take, next?_zero]
        exact congrArg (none :: ·) (ih ⟨d, 0⟩)
      · rw [take, next?_succ]
        refine congrArg (some d :: ·) ((ih ⟨d.double, left⟩).trans ?_)
        exact List.map_congr_left fun k _ => (answer_succ d left k).symm

theorem eq_doubled {count k : Nat} {b : Backoff} {d : Duration}
    (given : (take count b)[k]? = some (some d)) : d = b.delay.doubled k := by
  have asked : k < count := by
    have bound := (List.getElem?_eq_some_iff.mp given).1
    rwa [take_eq, List.length_map, List.length_range] at bound
  rw [take_eq, List.getElem?_map, List.getElem?_range asked, Option.map_some, Option.some_inj,
    answer] at given
  split at given
  case isTrue => exact (Option.some.inj given).symm
  case isFalse => cases given

/-! ## A backoff in words -/

/-- A backoff as a machine keeps it: how many delays it has given and how many it may give, and the
next one with what it is multiplied by. -/
structure Counter where
  given : UInt32
  limit : UInt32
  factor : UInt32
  current : Words

namespace Counter

/-- A counter that has given nothing yet. -/
def start (initial : Words) (limit : UInt32) : Counter := ⟨0, limit, 2, initial⟩

/-- The next delay with the counter after it, or nothing when all are given. -/
def next? (c : Counter) : Option (Words × Counter) :=
  if c.limit ≤ c.given then none
  else some (c.current, { c with given := c.given + 1, current := c.current.times c.factor })

/-- The answers to the next `count` requests for a delay. -/
def take : Nat → Counter → List (Option Words)
  | 0, _ => []
  | n + 1, c =>
    match c.next? with
    | some (w, rest) => some w :: take n rest
    | none => none :: take n c

/-- A counter that keeps a backoff. -/
structure Tells (c : Counter) (b : Backoff) : Prop where
  factor : c.factor = 2
  left : c.given.toNat + b.left = c.limit.toNat
  delay : c.current.duration = b.delay

theorem tells_start (initial : Words) (limit : UInt32) :
    Tells (start initial limit) ⟨initial.duration, limit.toNat⟩ where
  factor := rfl
  left := Nat.zero_add _
  delay := rfl

namespace Tells

variable {c : Counter} {b : Backoff}

theorem next?_eq_none (tells : c.Tells b) (done : b.left = 0) : c.next? = none := by
  have all : c.limit ≤ c.given := by
    rw [UInt32.le_iff_toNat_le, ← tells.left, done]
    exact Nat.le_refl _
  exact if_pos all

/-- A delay that is left is given, and the count is still a word. -/
theorem next?_eq_some {left : Nat} (tells : c.Tells b) (more : b.left = left + 1) :
    ∃ c', c.next? = some (c.current, c') ∧ c'.Tells ⟨b.delay.double, left⟩ := by
  have sum := tells.left
  have word : c.limit.toNat < 2 ^ 32 := c.limit.toNat_lt
  have below : ¬ c.limit ≤ c.given := by
    rw [UInt32.le_iff_toNat_le]
    omega
  refine ⟨_, if_neg below, tells.factor, ?_, ?_⟩
  · have counted : (c.given + 1).toNat = c.given.toNat + 1 := by
      rw [UInt32.toNat_add]
      exact Nat.mod_eq_of_lt (by rw [UInt32.toNat_one]; omega)
    change (c.given + 1).toNat + left = c.limit.toNat
    omega
  · rw [Duration.Words.duration_times, tells.factor, ← tells.delay, Nat.mul_comm]
    rfl

/-- Whatever it is asked, a counter answers as the backoff that it keeps. -/
theorem take_eq (count : Nat) (tells : c.Tells b) :
    (c.take count).map (Option.map Words.duration) = Backoff.take count b := by
  induction count generalizing c b with
  | zero => rfl
  | succ count ih =>
      obtain ⟨d, _ | left⟩ := b
      · rw [take, Backoff.take, tells.next?_eq_none rfl, next?_zero]
        exact congrArg (none :: ·) (ih tells)
      · obtain ⟨c', given, tells'⟩ := tells.next?_eq_some rfl
        rw [take, Backoff.take, given, next?_succ]
        simp only [List.map_cons, Option.map_some, tells.delay, ih tells']

end Tells

end Counter

/-! ## The delays -/

/-- How the delays of a backoff follow each other. -/
structure Doubles (initial : Words) (limit : UInt32) : Prop where
  /-- There are as many delays as the limit says, number `k` being the first one `2 ^ k` times or
  the longest duration. After them there is nothing, however often one asks. -/
  answers (count : Nat) : take count ⟨initial.duration, limit.toNat⟩ =
    (List.range count).map fun k =>
      if k < limit.toNat then some (.ofNanoseconds (initial.nanoseconds * 2 ^ k)) else none
  /-- Counting and doubling in words gives these answers. -/
  words (count : Nat) : ((Counter.start initial limit).take count).map (Option.map Words.duration) =
    take count ⟨initial.duration, limit.toNat⟩
  /-- No delay is shorter than one before it. -/
  rises {count j k : Nat} {d e : Duration} :
    (take count ⟨initial.duration, limit.toNat⟩)[j]? = some (some d) →
    (take count ⟨initial.duration, limit.toNat⟩)[k]? = some (some e) →
    j ≤ k → d.nanoseconds ≤ e.nanoseconds
  /-- Until the longest duration is reached a delay is shorter than those after it, unless all
  are zero. -/
  climbs {count j k : Nat} {d e : Duration} :
    (take count ⟨initial.duration, limit.toNat⟩)[j]? = some (some d) →
    (take count ⟨initial.duration, limit.toNat⟩)[k]? = some (some e) →
    j < k → 0 < initial.nanoseconds → d.nanoseconds < Duration.limit →
    d.nanoseconds < e.nanoseconds

theorem delays_double (initial : Words) (limit : UInt32) : Doubles initial limit where
  answers count := by
    rw [take_eq]
    refine List.map_congr_left fun k _ => ?_
    rw [answer, Duration.doubled_eq, Duration.Words.nanoseconds_duration]
  words count := (Counter.tells_start initial limit).take_eq count
  rises := by
    intro count j k d e earlier later le
    rw [eq_doubled earlier, eq_doubled later]
    exact Duration.doubled_le _ le
  climbs := by
    intro count j k d e earlier later lt positive short
    rw [eq_doubled earlier] at short ⊢
    rw [eq_doubled later]
    exact Duration.doubled_lt positive short lt

/-- Half a second is carried, and then the longest duration is reached. -/
example : (take 5 ⟨.ofParts (2 ^ 62) 500000000, 4⟩).map (Option.map Duration.nanoseconds) =
    [some (2 ^ 62 * 1000000000 + 500000000), some ((2 ^ 63 + 1) * 1000000000),
      some Duration.limit, some Duration.limit, none] := by
  decide

end Backoff

end Courier
