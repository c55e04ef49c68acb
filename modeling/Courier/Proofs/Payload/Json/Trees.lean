import Courier.Proofs.Payload.Json.Tokens

/-!
# Reading what was written in JSON

The characters of a tree are read as the tree, up to what follows them and cannot go on with a
number (`readBack_of_printable`). This holds of every tree whose integers fit 64 bits and whose keys
are texts (`Printable`); of a floating point number it is only said that some tree is read from its
decimal (`echo`), always the same.

The fuel of the reader is the number of characters: each call of `value?`, `items?` and `entries?`
has at least one character of its own.
-/

namespace Courier

namespace Json

/-- The trees that are read back from JSON: integers of 64 bits, and only texts as keys. -/
inductive Printable : Node → Prop where
  | null : Printable .null
  | bool (b : Bool) : Printable (.bool b)
  | nat {n : Nat} : n < 2 ^ 64 → Printable (.nat n)
  | int {n : Nat} : n < 2 ^ 63 → Printable (.int (.negSucc n))
  | float (bits : UInt64) : Printable (.float bits)
  | text (s : String) : Printable (.text s)
  | seq {items : List Node} : (∀ n ∈ items, Printable n) → Printable (.seq items)
  | map {entries : List (Node × Node)} :
      (∀ e ∈ entries, ∃ s, e.1 = .text s) → (∀ e ∈ entries, Printable e.2) →
      Printable (.map entries)

/-- What is read where the decimal of a double was written. -/
def floatBack (bits : UInt64) : Node :=
  match value? 1 ((Decimal.text bits).toList.map some) with
  | some (n, _) => n
  | none => .unreadable

mutual

/-- What is read where a tree was written: the same tree, with each floating point number read
from its decimal. -/
def echo : Node → Node
  | .float bits => floatBack bits
  | .seq items => .seq (echoItems items)
  | .map entries => .map (echoEntries entries)
  | n => n

def echoItems : List Node → List Node
  | [] => []
  | n :: rest => echo n :: echoItems rest

def echoEntries : List (Node × Node) → List (Node × Node)
  | [] => []
  | (k, v) :: rest => (k, echo v) :: echoEntries rest

end

theorem ne_of_isDigit {c d : Char} (digit : c.isDigit = true) (other : d.isDigit = false) :
    c ≠ d := by
  rintro rfl
  exact Bool.eq_false_iff.mp other digit

theorem value?_of_digit {c : Char} (digit : c.isDigit = true) (fuel : Nat) (rest : Input) :
    value? (fuel + 1) (some c :: rest) = number? false (some c :: rest) := by
  have blank : isBlank c = false := by
    simp [isBlank, ne_of_isDigit digit]
  rw [value?, skipBlanks_cons blank]
  split
  case h_8 => rfl
  all_goals
    rename_i same
    exact absurd (Option.some.inj (List.cons.inj same).1) (ne_of_isDigit digit rfl)

/-- A number is read as a value. -/
theorem value?_numeral {n : Numeral} (regular : n.IsRegular) (fuel : Nat) {rest : Input}
    (stop : beginsWith goesOn rest = false) :
    value? (fuel + 1) (n.chars.map some ++ rest) = some (numeralNode false n, rest) := by
  have read := number?_numeral false regular stop
  obtain ⟨d, ds, front⟩ := List.exists_cons_of_ne_nil regular.whole.some'
  have digit : d.isDigit = true := regular.whole.all d (by simp [front])
  rw [← read, Numeral.chars, front]
  exact value?_of_digit digit fuel _

theorem value?_float (bits : UInt64) (fuel : Nat) {rest : Input}
    (stop : beginsWith goesOn rest = false) :
    value? (fuel + 1) ((Decimal.text bits).toList.map some ++ rest) =
      some (floatBack bits, rest) := by
  cases finite : Decimal.isFinite bits with
  | false =>
      rw [floatBack, Decimal.text_of_not_finite finite]
      rfl
  | true =>
      obtain ⟨n, regular, text⟩ := Decimal.text_eq_numeral finite
      have read {fuel : Nat} {rest : Input} (stop : beginsWith goesOn rest = false) :
          value? (fuel + 1) ((Decimal.text bits).toList.map some ++ rest) =
            some (numeralNode (Decimal.decode bits).1 n, rest) := by
        rw [text]
        cases (Decimal.decode bits).1 with
        | false => exact value?_numeral regular fuel stop
        | true => exact number?_numeral true regular stop
      have alone : value? 1 ((Decimal.text bits).toList.map some ++ []) = _ := read rfl
      rw [List.append_nil] at alone
      rw [read stop, floatBack, alone]

theorem value?_items {c : Char} (visible : isBlank c = false) (other : c ≠ ']') (fuel : Nat)
    (input : Input) :
    value? (fuel + 1) (some '[' :: some c :: input) =
      (items? fuel (some c :: input)).map fun (ns, after) => (.seq ns, after) := by
  rw [value?, skipBlanks_cons rfl]
  simp only
  rw [skipBlanks_cons visible]
  split
  · rename_i same
    exact absurd (Option.some.inj (List.cons.inj same).1) other
  · rfl

theorem value?_entries (fuel : Nat) (input : Input) :
    value? (fuel + 1) (some '\x7b' :: some '"' :: input) =
      (entries? fuel (some '"' :: input)).map fun (es, after) => (.map es, after) := by
  rw [value?, skipBlanks_cons rfl]
  rfl

/-- A tree begins neither with a blank nor like the end of a list. -/
theorem print_opens {n : Node} (printable : Printable n) :
    ∃ c cs, print n = c :: cs ∧ isBlank c = false ∧ c ≠ ']' := by
  have digits {ds : List Char} (digits : AreDigits ds) (more : List Char) :
      ∃ c cs, ds ++ more = c :: cs ∧ isBlank c = false ∧ c ≠ ']' := by
    obtain ⟨c, cs, rfl⟩ := List.exists_cons_of_ne_nil digits.some'
    have digit := digits.all c List.mem_cons_self
    exact ⟨c, _, rfl, by simp [isBlank, ne_of_isDigit digit], ne_of_isDigit digit rfl⟩
  cases printable with
  | null => exact ⟨_, _, rfl, rfl, by decide⟩
  | bool b => cases b <;> exact ⟨_, _, rfl, rfl, by decide⟩
  | nat => simpa [print] using digits (Decimal.areDigits_toDigits _) []
  | int =>
      rw [print, if_pos (Int.negSucc_lt_zero _)]
      exact ⟨_, _, rfl, rfl, by decide⟩
  | float bits =>
      rw [print]
      cases finite : Decimal.isFinite bits with
      | false =>
          rw [Decimal.text_of_not_finite finite]
          exact ⟨_, _, rfl, rfl, by decide⟩
      | true =>
          obtain ⟨n, regular, text⟩ := Decimal.text_eq_numeral finite
          rw [text]
          cases (Decimal.decode bits).1 with
          | false => exact digits regular.whole _
          | true => exact ⟨_, _, rfl, rfl, by decide⟩
  | text s => exact ⟨_, _, rfl, rfl, by decide⟩
  | @seq items => cases items <;> exact ⟨_, _, rfl, rfl, by decide⟩
  | @map entries => cases entries <;> exact ⟨_, _, rfl, rfl, by decide⟩

theorem stop_printItems (items : List Node) (rest : Input) :
    beginsWith goesOn ((printItems items).map some ++ rest) = false := by
  cases items <;> rfl

theorem stop_printEntries (entries : List (Node × Node)) (rest : Input) :
    beginsWith goesOn ((printEntries entries).map some ++ rest) = false := by
  cases entries <;> rfl

/-- A tree is read wherever it was written. -/
def ReadBack (n : Node) : Prop :=
  ∀ ⦃fuel⦄ ⦃rest : Input⦄, (print n).length ≤ fuel → beginsWith goesOn rest = false →
    value? fuel ((print n).map some ++ rest) = some (echo n, rest)

/-- One item or more, up to the closing bracket. -/
theorem items?_print {items : List Node} (each : ∀ n ∈ items, ReadBack n) {first : Node}
    (read : ReadBack first) {fuel : Nat}
    (enough : (print first).length + (printItems items).length ≤ fuel) (rest : Input) :
    items? fuel ((print first ++ printItems items).map some ++ rest) =
      some (echo first :: echoItems items, rest) := by
  induction items generalizing first fuel with
  | nil =>
      obtain _ | fuel := fuel
      · exact absurd enough (Nat.not_succ_le_zero _)
      rw [List.map_append, List.append_assoc, items?,
        read (Nat.le_of_succ_le_succ enough) (stop_printItems [] rest)]
      rfl
  | cons second items ih =>
      rw [printItems, List.cons_append, List.length_cons, List.length_append] at enough
      obtain _ | fuel := fuel
      · exact absurd enough (Nat.not_succ_le_zero _)
      have room : (print second).length + (printItems items).length ≤ fuel := by omega
      have back := ih (fun n mem => each n (List.mem_cons_of_mem _ mem))
        (each second List.mem_cons_self) room
      rw [List.map_append, List.append_assoc, items?,
        read (by omega) (stop_printItems (second :: items) rest)]
      change (items? fuel ((print second ++ printItems items).map some ++ rest)).map _ = _
      rw [back]
      rfl

/-- An entry with a text as its key, and what comes after it. -/
theorem entries?_entry (key : String) {value : Node} (read : ReadBack value) {fuel : Nat}
    (enough : (print value).length ≤ fuel) {more : List Char} {rest : Input}
    (stop : beginsWith goesOn (more.map some ++ rest) = false) :
    entries? (fuel + 1) ((quote key ++ ':' :: print value ++ more).map some ++ rest) =
      match skipBlanks (more.map some ++ rest) with
      | some ',' :: after =>
        (entries? fuel after).map fun (es, after) => ((.text key, echo value) :: es, after)
      | some '\x7d' :: after => some ([(.text key, echo value)], after)
      | _ => none := by
  have parts : (quote key ++ ':' :: print value ++ more).map some ++ rest =
      some '"' :: ((key.toList.flatMap escape).map some ++ some '"' :: some ':' ::
        ((print value).map some ++ (more.map some ++ rest))) := by
    simp [quote]
  rw [parts, entries?, skipBlanks_cons rfl]
  simp only
  rw [text?_quoted]
  simp only
  rw [skipBlanks_cons rfl]
  simp only
  rewrite [read enough stop]
  rfl

/-- One entry or more, up to the closing brace. -/
theorem entries?_print {entries : List (Node × Node)}
    (keys : ∀ e ∈ entries, ∃ s, e.1 = .text s) (values : ∀ e ∈ entries, ReadBack e.2)
    (key : String) {value : Node} (read : ReadBack value) {fuel : Nat}
    (enough : (print value).length + (printEntries entries).length ≤ fuel) (rest : Input) :
    entries? fuel ((quote key ++ ':' :: print value ++ printEntries entries).map some ++ rest) =
      some ((.text key, echo value) :: echoEntries entries, rest) := by
  induction entries generalizing key value fuel with
  | nil =>
      obtain _ | fuel := fuel
      · exact absurd enough (Nat.not_succ_le_zero _)
      exact entries?_entry key read (Nat.le_of_succ_le_succ enough) (stop_printEntries [] rest)
  | cons second entries ih =>
      obtain ⟨k, v⟩ := second
      obtain ⟨name, rfl⟩ : ∃ s, k = .text s := keys _ List.mem_cons_self
      have next : printEntries ((.text name, v) :: entries) =
          ',' :: (quote name ++ ':' :: print v ++ printEntries entries) := by
        rw [printEntries, print]
        rfl
      have second : ReadBack v := values _ List.mem_cons_self
      obtain _ | fuel := fuel
      · exact absurd (Nat.le_trans (Nat.le_add_left ..) enough) (by simp [next])
      have room : (print value).length ≤ fuel ∧
          (print v).length + (printEntries entries).length ≤ fuel := by
        simp only [next, List.length_cons, List.length_append] at enough
        omega
      have back := ih (fun e mem => keys e (List.mem_cons_of_mem _ mem))
        (fun e mem => values e (List.mem_cons_of_mem _ mem)) name second room.2
      rw [entries?_entry key read room.1 (stop_printEntries _ rest), next, List.map_cons,
        List.cons_append, skipBlanks_cons rfl]
      simp only
      rw [back]
      rfl

theorem ReadBack.of_succ {n : Node} (printable : Printable n)
    (read : ∀ fuel rest, (print n).length ≤ fuel + 1 → beginsWith goesOn rest = false →
      value? (fuel + 1) ((print n).map some ++ rest) = some (echo n, rest)) : ReadBack n := by
  intro fuel rest enough stop
  obtain ⟨c, cs, front, -⟩ := print_opens printable
  obtain _ | fuel := fuel
  · simp [front] at enough
  · exact read fuel rest enough stop

/-- A tree is read from its characters, up to where they end. -/
theorem readBack_of_printable {n : Node} (printable : Printable n) : ReadBack n := by
  induction printable with
  | null => exact .of_succ .null fun _ _ _ _ => rfl
  | bool b => exact .of_succ (.bool b) fun _ _ _ _ => by cases b <;> rfl
  | @nat n fits =>
      refine .of_succ (.nat fits) fun fuel rest _ stop => ?_
      have read := value?_numeral (Decimal.isRegular_whole n) fuel stop
      rw [Decimal.chars_whole, numeralNode_whole, wholeNode_nat fits] at read
      rw [print]
      exact read
  | @int n fits =>
      refine .of_succ (.int fits) fun fuel rest _ stop => ?_
      have read := number?_numeral true (Decimal.isRegular_whole (n + 1)) stop
      rw [Decimal.chars_whole, numeralNode_whole, wholeNode_negative fits] at read
      rw [print, if_pos (Int.negSucc_lt_zero n)]
      exact read
  | float bits => exact .of_succ (.float bits) fun fuel _ _ stop => value?_float bits fuel stop
  | text s =>
      refine .of_succ (.text s) fun fuel rest _ _ => ?_
      have parts : (quote s).map some ++ rest =
          some '"' :: ((s.toList.flatMap escape).map some ++ some '"' :: rest) := by
        simp [quote]
      rw [print, parts, value?, skipBlanks_cons rfl]
      exact text?_quoted s rest
  | @seq items printable read =>
      refine .of_succ (.seq printable) fun fuel rest enough _ => ?_
      obtain _ | ⟨first, items⟩ := items
      · rfl
      · obtain ⟨c, cs, front, visible, other⟩ := print_opens (printable first List.mem_cons_self)
        have room : (print first).length + (printItems items).length ≤ fuel := by
          simp [print] at enough
          omega
        have back := items?_print (fun n mem => read n (List.mem_cons_of_mem _ mem))
          (read first List.mem_cons_self) room rest
        rw [front, List.cons_append, List.map_cons, List.cons_append] at back
        rw [print, front]
        exact (value?_items visible other fuel _).trans (congrArg (Option.map _) back)
  | @map entries keys printable read =>
      refine .of_succ (.map keys printable) fun fuel rest enough _ => ?_
      obtain _ | ⟨⟨k, v⟩, entries⟩ := entries
      · rfl
      · obtain ⟨key, rfl⟩ : ∃ s, k = .text s := keys _ List.mem_cons_self
        have whole : print (.map ((.text key, v) :: entries)) =
            '\x7b' :: (quote key ++ ':' :: print v ++ printEntries entries) := by
          rw [print, print]
          rfl
        have room : (print v).length + (printEntries entries).length ≤ fuel := by
          simp only [whole, List.length_cons, List.length_append] at enough
          omega
        have back := entries?_print (fun e mem => keys e (List.mem_cons_of_mem _ mem))
          (fun e mem => read e (List.mem_cons_of_mem _ mem)) key (read _ List.mem_cons_self)
          room rest
        rw [whole]
        exact (value?_entries fuel _).trans (congrArg (Option.map _) back)

/-! ## Octets -/

theorem value?_blanks {blanks : List Char} (all : ∀ c ∈ blanks, isBlank c = true) (fuel : Nat)
    (input : Input) : value? fuel (blanks.map some ++ input) = value? fuel input := by
  cases fuel with
  | zero => rfl
  | succ fuel => rw [value?, value?, skipBlanks_append all]

theorem stop_blanks {blanks : List Char} (all : ∀ c ∈ blanks, isBlank c = true) :
    beginsWith goesOn (blanks.map some) = false := by
  obtain _ | ⟨c, blanks⟩ := blanks
  · rfl
  · have blank := all c List.mem_cons_self
    simp only [isBlank, Bool.or_eq_true, beq_iff_eq] at blank
    obtain ((rfl | rfl) | rfl) | rfl := blank <;> rfl

/-- A tree is read from its octets, with blanks before and after them. -/
theorem decode?_encode {n : Node} (printable : Printable n) {before after : List Char}
    (blank : ∀ c ∈ before, isBlank c = true) (blank' : ∀ c ∈ after, isBlank c = true) :
    decode? (Utf8.ofChars before ++ encode n ++ Utf8.ofChars after) = some (echo n) := by
  have pieces : Utf8.pieces (Utf8.ofChars before ++ encode n ++ Utf8.ofChars after) =
      before.map some ++ ((print n).map some ++ after.map some) := by
    rw [encode, ← Utf8.ofChars_append, ← Utf8.ofChars_append, Utf8.pieces_ofChars]
    simp
  have enough : (print n).length ≤
      2 * (before.map some ++ ((print n).map some ++ after.map some)).length + 2 := by
    simp only [List.length_append, List.length_map]
    omega
  have read := readBack_of_printable printable enough (stop_blanks blank')
  have nothing : skipBlanks (after.map some) = [] := by
    have skipped := skipBlanks_append blank' []
    rwa [List.append_nil] at skipped
  rw [decode?]
  simp only [pieces]
  rw [value?_blanks blank, read]
  simp [nothing]

end Json

end Courier
