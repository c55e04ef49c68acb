import Courier.Payload.Json.Parser
import Courier.Payload.Json.Printer
import Courier.Proofs.Text.Decimal
import Courier.Proofs.Text.Utf8

/-!
# Reading the texts and numbers of JSON

A text is read from its characters up to the closing quote, each character from its escape
(`textPieces_escape`, `text?_quoted`). A number is read from its digits, fraction and exponent, as
long as what follows cannot go on with it (`goesOn`): one lemma for each of the three parts, and
`number?_numeral` for the whole.
-/

namespace Courier

namespace Json

/-- Whether the input begins with a character of a kind. -/
def beginsWith (kind : Char → Bool) : Input → Bool
  | some c :: _ => kind c
  | _ => false

/-! ## Blanks -/

theorem skipBlanks_append {blanks : List Char} (all : ∀ c ∈ blanks, isBlank c = true)
    (input : Input) : skipBlanks (blanks.map some ++ input) = skipBlanks input := by
  induction blanks with
  | nil => rfl
  | cons c blanks ih =>
      rw [List.map_cons, List.cons_append, skipBlanks, if_pos (all c List.mem_cons_self)]
      exact ih fun c mem => all c (List.mem_cons_of_mem _ mem)

theorem skipBlanks_cons {c : Char} (visible : isBlank c = false) (input : Input) :
    skipBlanks (some c :: input) = some c :: input := by
  simp [skipBlanks, visible]

/-! ## Texts -/

/-- A control character is written by its number. -/
theorem hex4?_control : ∀ n < 0x20,
    hex4? '0' '0' (hexDigit (n / 16)) (hexDigit (n % 16)) = some n := by
  decide

/-- A character is read from its escape, whatever follows it. -/
theorem textPieces_escape (fuel : Nat) (c : Char) (rest : Input) :
    textPieces (fuel + 1) ((escape c).map some ++ rest) =
      textPieces.piece (some c) (textPieces fuel rest) := by
  fun_cases escape c with
  | case1 | case2 | case3 | case4 | case5 | case6 | case7 =>
      subst_vars
      rfl
  | case8 _ _ _ _ _ _ _ control =>
      have low : ¬ (0xD800 ≤ c.toNat ∧ c.toNat < 0xDC00) := by omega
      have high : ¬ (0xDC00 ≤ c.toNat ∧ c.toNat < 0xE000) := by omega
      simp only [List.map_cons, List.map_nil, List.cons_append, List.nil_append, textPieces,
        hex4?_control _ control, if_neg low, if_neg high, Char.ofNat_toNat]
  -- every other character stands for itself
  | case9 quote backslash _ _ _ _ _ control =>
      have plain : ¬ (c = '\\' ∨ c.toNat < 0x20) := not_or.mpr ⟨backslash, control⟩
      rw [List.map_cons, List.map_nil, List.singleton_append, textPieces, if_neg plain]
      all_goals simp [quote, backslash]

theorem textPieces_quoted (cs : List Char) {fuel : Nat} (enough : cs.length < fuel)
    (rest : Input) :
    textPieces fuel ((cs.flatMap escape).map some ++ some '"' :: rest) =
      some (cs.map some, rest) := by
  induction cs generalizing fuel with
  | nil =>
      obtain ⟨fuel, rfl⟩ := Nat.exists_eq_add_of_lt enough
      rfl
  | cons c cs ih =>
      obtain _ | fuel := fuel
      · exact absurd enough (Nat.not_lt_zero _)
      rw [List.flatMap_cons, List.map_append, List.append_assoc, textPieces_escape,
        ih (Nat.lt_of_succ_lt_succ enough)]
      rfl

theorem length_le_flatMap_escape (cs : List Char) : cs.length ≤ (cs.flatMap escape).length := by
  induction cs with
  | nil => exact Nat.le_refl 0
  | cons c cs ih =>
      have some' : 0 < (escape c).length := by
        fun_cases escape c <;> exact Nat.succ_pos _
      rw [List.flatMap_cons, List.length_append, List.length_cons]
      omega

/-- A text is read up to its closing quote. -/
theorem text?_quoted (s : String) (rest : Input) :
    text? ((s.toList.flatMap escape).map some ++ some '"' :: rest) = some (.text s, rest) := by
  have short := length_le_flatMap_escape s.toList
  have enough : s.toList.length <
      ((s.toList.flatMap escape).map some ++ some '"' :: rest).length + 1 := by
    rw [List.length_append, List.length_map]
    omega
  rw [text?, textPieces_quoted s.toList enough, Option.map_some]
  simp only [textNode, Utf8.intact?_map_some, String.ofList_toList]

/-! ## Numbers -/

/-- Whether a character can go on with a number that has begun. -/
def goesOn (c : Char) : Bool := c.isDigit || c == '.' || c == 'e' || c == 'E'

theorem beginsWith_mono {kind kind' : Char → Bool} (wider : ∀ c, kind c = true → kind' c = true)
    {input : Input} (stop : beginsWith kind' input = false) : beginsWith kind input = false := by
  obtain _ | ⟨_ | c, rest⟩ := input
  · rfl
  · rfl
  · exact Bool.eq_false_iff.mpr fun begins => Bool.eq_false_iff.mp stop (wider c begins)

theorem noDigit_of_stop {rest : Input} (stop : beginsWith goesOn rest = false) :
    beginsWith Char.isDigit rest = false :=
  beginsWith_mono (fun c digit => by simp [goesOn, digit]) stop

theorem digits_append {ds : List Char} (all : ∀ c ∈ ds, c.isDigit = true) {rest : Input}
    (stop : beginsWith Char.isDigit rest = false) : digits (ds.map some ++ rest) = (ds, rest) := by
  induction ds with
  | nil =>
      obtain _ | ⟨_ | c, rest⟩ := rest
      · rfl
      · rfl
      · have stop : c.isDigit = false := stop
        simp [digits, stop]
  | cons c ds ih =>
      have back := ih fun c mem => all c (List.mem_cons_of_mem _ mem)
      simp [digits, all c List.mem_cons_self, back]

theorem fraction?_none {input : Input} (stop : beginsWith (· == '.') input = false) :
    fraction? input = some (none, input) := by
  fun_cases fraction? input with
  | case1 | case2 => exact nomatch stop
  | case3 => rfl

theorem fraction?_digits {ds : List Char} (digits : AreDigits ds) {rest : Input}
    (stop : beginsWith Char.isDigit rest = false) :
    fraction? (some '.' :: (ds.map some ++ rest)) = some (some ds, rest) := by
  rw [fraction?, digits_append digits.all stop]
  obtain ⟨d, ds, rfl⟩ := List.exists_cons_of_ne_nil digits.some'
  rfl

theorem exponent?_none {input : Input}
    (stop : beginsWith (fun c => c == 'e' || c == 'E') input = false) :
    exponent? input = some (none, input) := by
  obtain _ | ⟨_ | c, rest⟩ := input
  · rfl
  · rfl
  · have other : ¬ (c = 'e' ∨ c = 'E') := by simpa [beginsWith] using stop
    rw [exponent?, if_neg other]

theorem exponentSign_digits {input : Input} (digit : beginsWith Char.isDigit input = true) :
    exponentSign input = (false, input) := by
  fun_cases exponentSign input with
  | case1 | case2 => exact nomatch digit
  | case3 => rfl

/-- The number that an exponent denotes. -/
def exponentValue : Bool × List Char → Int
  | (negative, ds) => if negative then -(ofDigits ds : Int) else ofDigits ds

theorem exponent?_chars {exponent : Option (Bool × List Char)}
    (digits : ∀ negative ds, exponent = some (negative, ds) → AreDigits ds) {rest : Input}
    (stop : beginsWith goesOn rest = false) :
    exponent? ((Numeral.exponentChars exponent).map some ++ rest) =
      some (exponent.map exponentValue, rest) := by
  cases exponent with
  | none => exact exponent?_none (beginsWith_mono (fun c e => by grind [goesOn]) stop)
  | some sign =>
      obtain ⟨negative, ds⟩ := sign
      replace digits := digits negative ds rfl
      obtain ⟨d, ds, rfl⟩ := List.exists_cons_of_ne_nil digits.some'
      have sign : exponentSign ((if negative then ['-'] else []).map some ++
          ((d :: ds).map some ++ rest)) = (negative, (d :: ds).map some ++ rest) := by
        cases negative with
        | true => rfl
        | false => exact exponentSign_digits (digits.all d List.mem_cons_self)
      rw [Numeral.exponentChars, List.map_cons, List.map_append, List.cons_append,
        List.append_assoc, exponent?, if_pos (.inl rfl), sign]
      simp only
      rw [digits_append digits.all (noDigit_of_stop stop)]
      rfl

theorem fraction?_chars {fraction : Option (List Char)}
    (digits : ∀ ds, fraction = some ds → AreDigits ds) {rest : Input}
    (noPoint : beginsWith (· == '.') rest = false)
    (noDigit : beginsWith Char.isDigit rest = false) :
    fraction? ((Numeral.fractionChars fraction).map some ++ rest) = some (fraction, rest) := by
  cases fraction with
  | none => exact fraction?_none noPoint
  | some ds => exact fraction?_digits (digits ds rfl) noDigit

theorem noDigit_fractionChars (fraction : Option (List Char)) {rest : Input}
    (noDigit : beginsWith Char.isDigit rest = false) :
    beginsWith Char.isDigit ((Numeral.fractionChars fraction).map some ++ rest) = false := by
  cases fraction with
  | some ds => rfl
  | none => exact noDigit

theorem beginsWith_exponentChars {kind : Char → Bool} (other : kind 'e' = false)
    (exponent : Option (Bool × List Char)) {rest : Input}
    (stop : beginsWith kind rest = false) :
    beginsWith kind ((Numeral.exponentChars exponent).map some ++ rest) = false := by
  cases exponent with
  | some sign => exact other
  | none => exact stop

/-- The tree of a number. -/
def numeralNode (negative : Bool) (n : Numeral) : Node :=
  match n.fraction, n.exponent with
  | none, none => wholeNode negative (ofDigits n.whole)
  | fraction, exponent =>
    floatNode negative (ofDigits (n.whole ++ fraction.getD []))
      ((exponent.map exponentValue).getD 0 - (fraction.getD []).length)

/-- A number is read up to where it cannot go on. -/
theorem number?_numeral (negative : Bool) {n : Numeral} (regular : n.IsRegular) {rest : Input}
    (stop : beginsWith goesOn rest = false) :
    number? negative (n.chars.map some ++ rest) = some (numeralNode negative n, rest) := by
  have noDigit := noDigit_of_stop stop
  have noPoint : beginsWith (· == '.') rest = false :=
    beginsWith_mono (fun c point => by grind [goesOn]) stop
  have noDigit' := beginsWith_exponentChars rfl n.exponent noDigit
  have noPoint' := beginsWith_exponentChars rfl n.exponent noPoint
  have whole := digits_append regular.whole.all (noDigit_fractionChars n.fraction noDigit')
  have middle := fraction?_chars regular.fraction noPoint' noDigit'
  have last := exponent?_chars regular.exponent stop
  rw [Numeral.chars, List.map_append, List.map_append, List.append_assoc, List.append_assoc,
    number?, whole]
  split
  · rename_i none
    exact absurd (Prod.ext_iff.mp none).1 regular.whole.some'
  · rename_i zero
    exact absurd (regular.proper _ (Prod.ext_iff.mp zero).1) (List.cons_ne_nil _ _)
  · rename_i same
    obtain ⟨rfl, rfl⟩ := Prod.ext_iff.mp same
    simp only [middle, last, numeralNode]
    cases n.fraction with
    | some ds => rfl
    | none => cases n.exponent <;> rfl

theorem numeralNode_whole (negative : Bool) (n : Nat) :
    numeralNode negative (Decimal.whole n) = wholeNode negative n :=
  congrArg (wholeNode negative) (Nat.ofDigitChars_toDigits (by decide) (by decide))

theorem wholeNode_nat {n : Nat} (fits : n < 2 ^ 64) : wholeNode false n = .nat n :=
  (if_neg Bool.false_ne_true).trans (if_pos fits)

theorem wholeNode_negative {n : Nat} (fits : n < 2 ^ 63) :
    wholeNode true (n + 1) = .int (.negSucc n) :=
  (if_pos rfl).trans (if_pos ⟨Nat.succ_pos n, fits⟩)

end Json

end Courier
