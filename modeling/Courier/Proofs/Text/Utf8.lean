import Mathlib.Tactic.IntervalCases
import Courier.Text.Utf8

/-!
# Reading the octets of a text

The octets of a text are well formed, and reading them gives the text back: each character is read
from the octets it was written as, whatever follows them. What the first octet of a character says
is listed by ranges (`lead_single` to `lead_stray`), and an octet that goes on with a character adds
six bits to its code (`piecesFrom_fits`). The ranges leave out just what no character is written as:
long forms, surrogates, and codes past the last one.
-/

namespace Courier

namespace Utf8

variable {n : Nat}

theorem toNat_ofNat_of_lt (small : n < 0x100) : (UInt8.ofNat n).toNat = n := by
  rw [UInt8.toNat_ofNat']
  exact Nat.mod_eq_of_lt small

/-! ## First octets -/

theorem lead_single (range : n < 0x80) : lead (UInt8.ofNat n) = .single (Char.ofNat n) := by
  have value : (UInt8.ofNat n).toNat = n := toNat_ofNat_of_lt (by omega)
  have below : UInt8.ofNat n < 0x80 := by
    rw [UInt8.lt_iff_toNat_lt, value]
    exact range
  rw [lead, if_pos below, value]

theorem lead_two (low : 0xC2 ≤ n) (high : n < 0xE0) :
    lead (UInt8.ofNat n) = .opens (.inside 0 0x80 0xBF (n - 0xC0)) := by
  interval_cases n <;> rfl

/-- Of three octets the second one leaves out long forms and surrogates. -/
theorem lead_three (low : 0xE0 ≤ n) (high : n < 0xF0) :
    lead (UInt8.ofNat n) = .opens (.inside 1 (if n = 0xE0 then 0xA0 else 0x80)
      (if n = 0xED then 0x9F else 0xBF) (n - 0xE0)) := by
  interval_cases n <;> rfl

/-- Of four octets the second one leaves out long forms and codes past the last one. -/
theorem lead_four (low : 0xF0 ≤ n) (high : n ≤ 0xF4) :
    lead (UInt8.ofNat n) = .opens (.inside 2 (if n = 0xF0 then 0x90 else 0x80)
      (if n = 0xF4 then 0x8F else 0xBF) (n - 0xF0)) := by
  interval_cases n <;> rfl

theorem lead_stray (range : 0x80 ≤ n ∧ n < 0xC2 ∨ 0xF4 < n ∧ n < 0x100) :
    lead (UInt8.ofNat n) = .stray := by
  obtain ⟨low, high⟩ | ⟨low, high⟩ := range <;> (interval_cases n <;> rfl)

/-! ## Octets of a character -/

theorem piecesFrom_cons (s : State) (b : UInt8) (rest : Bytes) :
    piecesFrom s (b :: rest) = (step s b).1 ++ piecesFrom (step s b).2 rest := by
  cases s <;> rfl

theorem piecesFrom_opens {s : State} {b : UInt8} (opens : lead b = .opens s) (rest : Bytes) :
    piecesFrom .boundary (b :: rest) = piecesFrom s rest := by
  simp [piecesFrom_cons, step, start, opens]

/-- What an octet between its limits does to a character. -/
def continued (owed code : Nat) : List (Option Char) × State :=
  match owed with
  | 0 => ([some (Char.ofNat code)], .boundary)
  | n + 1 => ([], .inside n 0x80 0xBF code)

theorem piecesFrom_fits {owed code : Nat} {low high b : UInt8} (fits : low ≤ b ∧ b ≤ high)
    (rest : Bytes) : piecesFrom (.inside owed low high code) (b :: rest) =
      (continued owed (code * 64 + (b.toNat - 0x80))).1 ++
        piecesFrom (continued owed (code * 64 + (b.toNat - 0x80))).2 rest := by
  rw [piecesFrom_cons, step, if_pos fits]
  cases owed <;> rfl

theorem piecesFrom_misfit {owed code : Nat} {low high b : UInt8} (misfit : ¬ (low ≤ b ∧ b ≤ high))
    (rest : Bytes) : piecesFrom (.inside owed low high code) (b :: rest) =
      none :: pieces (b :: rest) := by
  rw [piecesFrom_cons, step, if_neg misfit, pieces, piecesFrom_cons]
  rfl

theorem piecesFrom_inside {owed code : Nat} {low high : UInt8} (small : n < 0x100)
    (above : low.toNat ≤ n) (below : n ≤ high.toNat) (rest : Bytes) :
    piecesFrom (.inside owed low high code) (UInt8.ofNat n :: rest) =
      (continued owed (code * 64 + (n - 0x80))).1 ++
        piecesFrom (continued owed (code * 64 + (n - 0x80))).2 rest := by
  have value := toNat_ofNat_of_lt small
  have fits : low ≤ UInt8.ofNat n ∧ UInt8.ofNat n ≤ high := by
    rw [UInt8.le_iff_toNat_le, UInt8.le_iff_toNat_le, value]
    exact ⟨above, below⟩
  rw [piecesFrom_fits fits, value]

/-- A character is read from the octets it was written as, whatever follows them. -/
theorem piecesFrom_utf8EncodeChar (c : Char) (rest : Bytes) :
    piecesFrom .boundary (String.utf8EncodeChar c ++ rest) =
      some c :: piecesFrom .boundary rest := by
  have valid : c.val.toNat < 0xD800 ∨ 0xDFFF < c.val.toNat ∧ c.val.toNat < 0x110000 := c.valid
  have same : Char.ofNat c.val.toNat = c := Char.ofNat_toNat c
  unfold String.utf8EncodeChar
  generalize c.val.toNat = v at valid same
  have read {code : Nat} (eq : code = v) : some (Char.ofNat code) = some c := by rw [eq, same]
  simp only
  split
  · rename_i one
    simp only [List.cons_append, List.nil_append, piecesFrom_cons, step, start,
      lead_single (show v < 0x80 by omega), same]
  · split
    · rw [List.cons_append, piecesFrom_opens (lead_two (by omega) (by omega)), List.cons_append,
        piecesFrom_inside (by omega) (by simp) (by simp; omega)]
      exact congrArg (· :: _) (read (by omega))
    · split
      · have above : (if v / 4096 % 16 + 224 = 0xE0 then 0xA0 else 0x80 : UInt8).toNat ≤
            v / 64 % 64 + 128 := by
          split
          · simp
            omega
          · simp
        have below : v / 64 % 64 + 128 ≤
            (if v / 4096 % 16 + 224 = 0xED then 0x9F else 0xBF : UInt8).toNat := by
          split <;> (simp; omega)
        simp only [List.cons_append, List.nil_append]
        rw [piecesFrom_opens (lead_three (by omega) (by omega)),
          piecesFrom_inside (by omega) above below, continued, List.nil_append,
          piecesFrom_inside (by omega) (by simp) (by simp; omega)]
        exact congrArg (· :: _) (read (by omega))
      · have above : (if v / 262144 % 8 + 240 = 0xF0 then 0x90 else 0x80 : UInt8).toNat ≤
            v / 4096 % 64 + 128 := by
          split
          · simp
            omega
          · simp
        have below : v / 4096 % 64 + 128 ≤
            (if v / 262144 % 8 + 240 = 0xF4 then 0x8F else 0xBF : UInt8).toNat := by
          split <;> (simp; omega)
        simp only [List.cons_append, List.nil_append]
        rw [piecesFrom_opens (lead_four (by omega) (by omega)),
          piecesFrom_inside (by omega) above below, continued, List.nil_append,
          piecesFrom_inside (by omega) (by simp) (by simp; omega), continued, List.nil_append,
          piecesFrom_inside (by omega) (by simp) (by simp; omega)]
        exact congrArg (· :: _) (read (by omega))

/-- The octets of characters have these characters as their pieces. -/
theorem pieces_ofChars (cs : List Char) : pieces (ofChars cs) = cs.map some := by
  induction cs with
  | nil => rfl
  | cons c rest ih =>
      rw [pieces, ofChars, List.flatMap_cons, piecesFrom_utf8EncodeChar]
      exact congrArg (some c :: ·) ih

theorem intact?_map_some (cs : List Char) : intact? (cs.map some) = some cs := by
  induction cs with
  | nil => rfl
  | cons c rest ih => simp [intact?, ih]

/-- The octets of a text are read as that text. -/
@[simp] theorem decode?_encode (s : String) : decode? (encode s) = some s := by
  simp [decode?, encode, pieces_ofChars, intact?_map_some]

end Utf8

end Courier
