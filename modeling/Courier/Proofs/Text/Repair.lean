import Courier.Proofs.Text.Utf8

/-!
# Reading broken octets

Any octets can be read. Where a character is written it is read, and where none is, a part of the
octets is broken: as many of them as some character begins with, and at least one. A lossy reading
has a replacement character for each broken part, and there is only one such reading
(`repaired_iff`).

The reader never looks back. Inside a character it knows the limits of the next octet, and an octet
within them can always be followed by others that end the character (`exists_completion`), while no
character goes on with an octet outside them. So the octets that it has taken since the last
boundary are all that a character can begin with there. This needs that the limits of the second
octet leave out exactly what no character is written as, that is, that octets read as one character
are the octets of that character (`eq_utf8EncodeChar`).
-/

namespace Courier

namespace Utf8

/-! ## Octets that are read as one character -/

theorem toNat_val_ofNat {v : Nat} (valid : v.isValidChar) : (Char.ofNat v).val.toNat = v := by
  rw [Char.ofNat, dif_pos valid]
  rfl

/-- An octet after the first one of a character. -/
def Follows (b : UInt8) : Prop := 0x80 ≤ b.toNat ∧ b.toNat ≤ 0xBF

theorem follows_iff {b : UInt8} :
    Follows b ↔ (0x80 : UInt8).toNat ≤ b.toNat ∧ b.toNat ≤ (0xBF : UInt8).toNat := by
  simp [Follows]

section

variable {a b c d : UInt8} {v : Nat}

theorem utf8EncodeChar_one (first : a.toNat < 0x80) :
    String.utf8EncodeChar (Char.ofNat a.toNat) = [a] := by
  have valid : a.toNat.isValidChar := .inl (by omega)
  rw [String.utf8EncodeChar, toNat_val_ofNat valid]
  simp only [UInt8.ofNat_toNat]
  exact if_pos (by omega)

theorem utf8EncodeChar_two (first : 0xC2 ≤ a.toNat ∧ a.toNat < 0xE0) (second : Follows b)
    (code : v = (a.toNat - 0xC0) * 64 + (b.toNat - 0x80)) :
    String.utf8EncodeChar (Char.ofNat v) = [a, b] := by
  obtain ⟨low, high⟩ := second
  have valid : v.isValidChar := .inl (by omega)
  have head : v / 64 % 32 + 192 = a.toNat := by omega
  have last : v % 64 + 128 = b.toNat := by omega
  rw [String.utf8EncodeChar, toNat_val_ofNat valid]
  simp only [head, last, UInt8.ofNat_toNat]
  rw [if_neg (by omega), if_pos (by omega)]

/-- The second of three octets leaves out long forms and surrogates. -/
theorem utf8EncodeChar_three (first : 0xE0 ≤ a.toNat ∧ a.toNat < 0xF0) (second : Follows b)
    (third : Follows c) (long : a.toNat = 0xE0 → 0xA0 ≤ b.toNat)
    (surrogate : a.toNat = 0xED → b.toNat ≤ 0x9F)
    (code : v = ((a.toNat - 0xE0) * 64 + (b.toNat - 0x80)) * 64 + (c.toNat - 0x80)) :
    String.utf8EncodeChar (Char.ofNat v) = [a, b, c] := by
  obtain ⟨low, high⟩ := second
  obtain ⟨low', high'⟩ := third
  have valid : v.isValidChar := by
    rw [Nat.isValidChar]
    omega
  have head : v / 4096 % 16 + 224 = a.toNat := by omega
  have middle : v / 64 % 64 + 128 = b.toNat := by omega
  have last : v % 64 + 128 = c.toNat := by omega
  rw [String.utf8EncodeChar, toNat_val_ofNat valid]
  simp only [head, middle, last, UInt8.ofNat_toNat]
  rw [if_neg (by omega), if_neg (by omega), if_pos (by omega)]

/-- The second of four octets leaves out long forms and codes past the last one. -/
theorem utf8EncodeChar_four (first : 0xF0 ≤ a.toNat ∧ a.toNat ≤ 0xF4) (second : Follows b)
    (third : Follows c) (fourth : Follows d) (long : a.toNat = 0xF0 → 0x90 ≤ b.toNat)
    (past : a.toNat = 0xF4 → b.toNat ≤ 0x8F)
    (code : v = (((a.toNat - 0xF0) * 64 + (b.toNat - 0x80)) * 64 + (c.toNat - 0x80)) * 64 +
      (d.toNat - 0x80)) :
    String.utf8EncodeChar (Char.ofNat v) = [a, b, c, d] := by
  obtain ⟨low, high⟩ := second
  obtain ⟨low', high'⟩ := third
  obtain ⟨low'', high''⟩ := fourth
  have valid : v.isValidChar := by
    rw [Nat.isValidChar]
    omega
  have head : v / 262144 % 8 + 240 = a.toNat := by omega
  have second : v / 4096 % 64 + 128 = b.toNat := by omega
  have third : v / 64 % 64 + 128 = c.toNat := by omega
  have last : v % 64 + 128 = d.toNat := by omega
  rw [String.utf8EncodeChar, toNat_val_ofNat valid]
  simp only [head, second, third, last, UInt8.ofNat_toNat]
  rw [if_neg (by omega), if_neg (by omega), if_neg (by omega)]

end

/-- Limits of a second octet: after some first octets the lower one is raised, and after others the
upper one is lowered. -/
structure Limits (raised lowered : Prop) (least most : Nat) (low high : UInt8) : Prop where
  above : 0x80 ≤ low.toNat
  below : high.toNat ≤ 0xBF
  le : low ≤ high
  least_le : raised → least ≤ low.toNat
  le_most : lowered → high.toNat ≤ most

theorem limits_ite {raised lowered : Prop} [Decidable raised] [Decidable lowered]
    {least most : Nat} (apart : raised → ¬ lowered) (leastFits : 0x80 ≤ least ∧ least ≤ 0xBF)
    (mostFits : 0x80 ≤ most ∧ most ≤ 0xBF) :
    Limits raised lowered least most (if raised then UInt8.ofNat least else 0x80)
      (if lowered then UInt8.ofNat most else 0xBF) := by
  have low : (if raised then UInt8.ofNat least else 0x80).toNat =
      if raised then least else 0x80 := by
    split
    · exact toNat_ofNat_of_lt (by omega)
    · rfl
  have high : (if lowered then UInt8.ofNat most else 0xBF).toNat =
      if lowered then most else 0xBF := by
    split
    · exact toNat_ofNat_of_lt (by omega)
    · rfl
  refine ⟨?above, ?below, ?le, fun is => ?least, fun is => ?most⟩
  case above => rw [low]; split <;> omega
  case below => rw [high]; split <;> omega
  case le =>
    rw [UInt8.le_iff_toNat_le, low, high]
    split
    case isTrue is =>
      rw [if_neg (apart is)]
      exact leastFits.2
    case isFalse => split <;> omega
  case least => rw [low, if_pos is]
  case most => rw [high, if_pos is]

/-- What an octet can say at a character boundary. -/
inductive Leads (b : UInt8) : Lead → Prop where
  | single : b.toNat < 0x80 → Leads b (.single (Char.ofNat b.toNat))
  | two : 0xC2 ≤ b.toNat ∧ b.toNat < 0xE0 →
      Leads b (.opens (.inside 0 0x80 0xBF (b.toNat - 0xC0)))
  | three {low high : UInt8} : 0xE0 ≤ b.toNat ∧ b.toNat < 0xF0 →
      Limits (b.toNat = 0xE0) (b.toNat = 0xED) 0xA0 0x9F low high →
      Leads b (.opens (.inside 1 low high (b.toNat - 0xE0)))
  | four {low high : UInt8} : 0xF0 ≤ b.toNat ∧ b.toNat ≤ 0xF4 →
      Limits (b.toNat = 0xF0) (b.toNat = 0xF4) 0x90 0x8F low high →
      Leads b (.opens (.inside 2 low high (b.toNat - 0xF0)))
  | stray : Leads b .stray

theorem leads (b : UInt8) : Leads b (lead b) := by
  have small : b.toNat < 0x100 := b.toNat_lt
  have same : UInt8.ofNat b.toNat = b := UInt8.ofNat_toNat
  have ranges : b.toNat < 0x80 ∨ (0xC2 ≤ b.toNat ∧ b.toNat < 0xE0) ∨
      (0xE0 ≤ b.toNat ∧ b.toNat < 0xF0) ∨ (0xF0 ≤ b.toNat ∧ b.toNat ≤ 0xF4) ∨
      (0x80 ≤ b.toNat ∧ b.toNat < 0xC2 ∨ 0xF4 < b.toNat ∧ b.toNat < 0x100) := by omega
  obtain one | two | three | four | stray := ranges
  · have read := lead_single one
    rw [same] at read
    exact read ▸ .single one
  · have read := lead_two two.1 two.2
    rw [same] at read
    exact read ▸ .two two
  · have read := lead_three three.1 three.2
    rw [same] at read
    exact read ▸ .three three (limits_ite (by omega) (by decide) (by decide))
  · have read := lead_four four.1 four.2
    rw [same] at read
    exact read ▸ .four four (limits_ite (by omega) (by decide) (by decide))
  · have read := lead_stray stray
    rw [same] at read
    exact read ▸ .stray

section

variable {owed code : Nat} {low high : UInt8} {bytes rest : Bytes} {c : Char}

theorem lead_opens {b : UInt8} {s : State} (opens : lead b = .opens s) :
    ∃ owed low high code, s = .inside owed low high code ∧ low ≤ high := by
  have leads := leads b
  rw [opens] at leads
  cases leads with
  | two => exact ⟨_, _, _, _, rfl, by decide⟩
  | three _ limits | four _ limits => exact ⟨_, _, _, _, rfl, limits.le⟩

/-- A character that is begun becomes a piece, if only a broken one. -/
theorem piecesFrom_inside_ne_nil : piecesFrom (.inside owed low high code) bytes ≠ [] := by
  induction bytes generalizing owed low high code with
  | nil => exact List.cons_ne_nil _ _
  | cons b rest ih =>
      by_cases fits : low ≤ b ∧ b ≤ high
      · rw [piecesFrom_fits fits]
        cases owed with
        | zero => exact List.cons_ne_nil _ _
        | succ owed => exact ih
      · rw [piecesFrom_misfit fits]
        exact List.cons_ne_nil _ _

theorem pieces_eq_nil (read : pieces bytes = []) : bytes = [] := by
  cases bytes with
  | nil => rfl
  | cons b rest =>
      exfalso
      generalize eq : lead b = l
      cases l with
      | single | stray => simp [pieces, piecesFrom_cons, step, start, eq] at read
      | opens s =>
          obtain ⟨owed, low, high, code, rfl, _⟩ := lead_opens eq
          rw [pieces, piecesFrom_opens eq] at read
          exact piecesFrom_inside_ne_nil read

/-- A character that is begun goes on with an octet that fits. -/
theorem exists_fits (one : piecesFrom (.inside owed low high code) bytes = [some c]) :
    ∃ b rest, bytes = b :: rest ∧ (low.toNat ≤ b.toNat ∧ b.toNat ≤ high.toNat) ∧
      (continued owed (code * 64 + (b.toNat - 0x80))).1 ++
        piecesFrom (continued owed (code * 64 + (b.toNat - 0x80))).2 rest = [some c] := by
  cases bytes with
  | nil => simp [piecesFrom] at one
  | cons b rest =>
      by_cases fits : low ≤ b ∧ b ≤ high
      · rw [piecesFrom_fits fits] at one
        refine ⟨b, rest, rfl, ?_, one⟩
        rwa [UInt8.le_iff_toNat_le, UInt8.le_iff_toNat_le] at fits
      · simp [piecesFrom_misfit fits] at one

theorem exists_last (one : piecesFrom (.inside 0 low high code) bytes = [some c]) :
    ∃ b, bytes = [b] ∧ (low.toNat ≤ b.toNat ∧ b.toNat ≤ high.toNat) ∧
      c = Char.ofNat (code * 64 + (b.toNat - 0x80)) := by
  obtain ⟨b, rest, rfl, fits, one⟩ := exists_fits one
  obtain ⟨same, ended⟩ := List.cons.inj one
  obtain rfl : rest = [] := pieces_eq_nil ended
  exact ⟨b, rfl, fits, (Option.some.inj same).symm⟩

/-- Octets that are read as one character are those that it is written as. -/
theorem eq_utf8EncodeChar (one : pieces bytes = [some c]) : bytes = String.utf8EncodeChar c := by
  cases bytes with
  | nil => cases one
  | cons a rest =>
      have leads := leads a
      generalize eq : lead a = l at leads
      cases leads with
      | single first =>
          simp only [pieces, piecesFrom_cons, step, start, eq] at one
          obtain ⟨same, ended⟩ := List.cons.inj one
          obtain rfl : rest = [] := pieces_eq_nil ended
          rw [← Option.some.inj same, utf8EncodeChar_one first]
      | two first =>
          rw [pieces, piecesFrom_opens eq] at one
          obtain ⟨b, rfl, second, read⟩ := exists_last one
          rw [read]
          exact (utf8EncodeChar_two first (follows_iff.mpr second) rfl).symm
      | three first limits =>
          obtain ⟨low, high, _, long, surrogate⟩ := limits
          rw [pieces, piecesFrom_opens eq] at one
          obtain ⟨b, rest, rfl, second, one⟩ := exists_fits one
          obtain ⟨b', rfl, third, read⟩ := exists_last one
          rw [read]
          refine (utf8EncodeChar_three first ⟨?_, ?_⟩ (follows_iff.mpr third) ?_ ?_ rfl).symm
          all_goals omega
      | four first limits =>
          obtain ⟨low, high, _, long, past⟩ := limits
          rw [pieces, piecesFrom_opens eq] at one
          obtain ⟨b, rest, rfl, second, one⟩ := exists_fits one
          obtain ⟨b', rest, rfl, third, one⟩ := exists_fits one
          obtain ⟨b'', rfl, fourth, read⟩ := exists_last one
          rw [read]
          refine (utf8EncodeChar_four first ⟨?_, ?_⟩ (follows_iff.mpr third)
            (follows_iff.mpr fourth) ?_ ?_ rfl).symm
          all_goals omega
      | stray => simp [pieces, piecesFrom_cons, step, start, eq] at one

end

/-! ## Broken parts -/

/-- Octets that some character begins with. -/
def Begins (part : Bytes) : Prop := ∃ c, part <+: String.utf8EncodeChar c

/-- Where no character can be read, this part is broken: as many octets as a character may begin
with, or the first one if no character begins with it. -/
structure Broken (part rest : Bytes) : Prop where
  unread : ∀ c, ¬ String.utf8EncodeChar c <+: part ++ rest
  nonempty : part ≠ []
  begins : Begins part ∨ part.length = 1
  longest : ∀ more, more <+: part ++ rest → Begins more → more.length ≤ part.length

/-- A reading of octets in which each character is read, and each broken part is replaced. -/
inductive Repaired : Bytes → List Char → Prop where
  | nil : Repaired [] []
  | char {rest : Bytes} {cs : List Char} (c : Char) : Repaired rest cs →
      Repaired (String.utf8EncodeChar c ++ rest) (c :: cs)
  | broken {part rest : Bytes} {cs : List Char} : Broken part rest → Repaired rest cs →
      Repaired (part ++ rest) ('\uFFFD' :: cs)

section

variable {owed code : Nat} {low high : UInt8} {part rest : Bytes} {c : Char}

theorem pieces_utf8EncodeChar (c : Char) (rest : Bytes) :
    pieces (String.utf8EncodeChar c ++ rest) = some c :: pieces rest :=
  piecesFrom_utf8EncodeChar c rest

/-- A part that may still become a character, with what is said about the octets that it misses. -/
structure Opened (part : Bytes) (owed : Nat) (low high : UInt8) (code : Nat) : Prop where
  nonempty : part ≠ []
  reads : ∀ rest, pieces (part ++ rest) = piecesFrom (.inside owed low high code) rest
  possible : low ≤ high

/-- A character that is begun can be ended. -/
theorem exists_completion (owed code : Nat) (possible : low ≤ high) :
    ∃ tail c, piecesFrom (.inside owed low high code) tail = [some c] := by
  have fits : low ≤ low ∧ low ≤ high := ⟨UInt8.le_refl low, possible⟩
  induction owed generalizing low high code with
  | zero =>
      refine ⟨[low], Char.ofNat (code * 64 + (low.toNat - 0x80)), ?_⟩
      rw [piecesFrom_fits fits]
      rfl
  | succ owed ih =>
      have next : (0x80 : UInt8) ≤ 0xBF := by decide
      obtain ⟨tail, c, read⟩ := ih (code * 64 + (low.toNat - 0x80)) next ⟨UInt8.le_refl _, next⟩
      refine ⟨low :: tail, c, ?_⟩
      rw [piecesFrom_fits fits]
      exact read

namespace Opened

theorem of_lead {b : UInt8} (opens : lead b = .opens (.inside owed low high code))
    (possible : low ≤ high) : Opened [b] owed low high code where
  nonempty := List.cons_ne_nil _ _
  reads rest := piecesFrom_opens opens rest
  possible := possible

theorem next {b : UInt8} (opened : Opened part (owed + 1) low high code)
    (fits : low ≤ b ∧ b ≤ high) :
    Opened (part ++ [b]) owed 0x80 0xBF (code * 64 + (b.toNat - 0x80)) where
  nonempty := List.append_ne_nil_of_right_ne_nil _ (List.cons_ne_nil _ _)
  reads rest := by
    rw [List.append_assoc, List.singleton_append, opened.reads, piecesFrom_fits fits]
    rfl
  possible := by decide

theorem last {b : UInt8} (opened : Opened part 0 low high code) (fits : low ≤ b ∧ b ≤ high) :
    ∃ c, String.utf8EncodeChar c = part ++ [b] := by
  refine ⟨Char.ofNat (code * 64 + (b.toNat - 0x80)), (eq_utf8EncodeChar ?_).symm⟩
  rw [opened.reads, piecesFrom_fits fits]
  rfl

theorem begins (opened : Opened part owed low high code) : Begins part := by
  obtain ⟨tail, c, read⟩ := exists_completion owed code opened.possible
  rw [← opened.reads] at read
  exact ⟨c, tail, eq_utf8EncodeChar read⟩

end Opened

/-- A part that is followed by nothing that could go on with it. -/
theorem broken_of_reads (nonempty : part ≠ []) (begins : Begins part ∨ part.length = 1)
    (reads : ∀ tail : Bytes, tail.head? = rest.head? →
      pieces (part ++ tail) = none :: pieces tail) : Broken part rest where
  unread := by
    rintro c ⟨tail, eq⟩
    have read := reads rest rfl
    rw [← eq, pieces_utf8EncodeChar] at read
    cases read
  nonempty := nonempty
  begins := begins
  longest := by
    rintro more ⟨after, eq⟩ ⟨c, tail, written⟩
    by_contra longer
    -- Of the octets that go on with the part, the first one is the first octet of `rest`.
    obtain ⟨extra, rfl⟩ : part <+: more :=
      List.prefix_of_prefix_length_le (List.prefix_append part rest) ⟨after, eq⟩ (by omega)
    rw [List.append_assoc, List.append_cancel_left_eq] at eq
    obtain ⟨b, extra, rfl⟩ : ∃ b extra', extra = b :: extra' := by
      refine List.exists_cons_of_ne_nil fun same => longer ?_
      rw [same, List.append_nil]
    have read := reads (b :: extra ++ tail) (by rw [← eq]; rfl)
    rw [← List.append_assoc, written, ← List.append_nil (String.utf8EncodeChar c),
      pieces_utf8EncodeChar] at read
    cases read

theorem Opened.broken (opened : Opened part owed low high code)
    (misfit : ∀ b ∈ rest.head?, ¬ (low ≤ b ∧ b ≤ high)) :
    Broken part rest ∧ pieces (part ++ rest) = none :: pieces rest := by
  have reads : ∀ tail : Bytes, tail.head? = rest.head? →
      pieces (part ++ tail) = none :: pieces tail := by
    intro tail same
    rw [opened.reads]
    cases tail with
    | nil => rfl
    | cons b tail => exact piecesFrom_misfit (misfit b (by rw [← same]; rfl)) tail
  exact ⟨broken_of_reads opened.nonempty (.inl opened.begins) reads, reads rest rfl⟩

/-- Octets after a character that is begun go on with it up to its end, or else leave it broken. -/
theorem Opened.read_or_broken (opened : Opened part owed low high code) (rest : Bytes) :
    (∃ c, String.utf8EncodeChar c <+: part ++ rest) ∨
      ∃ more rest', part ++ rest = more ++ rest' ∧ Broken more rest' ∧
        pieces (part ++ rest) = none :: pieces rest' := by
  induction rest generalizing part owed low high code with
  | nil => exact .inr ⟨part, [], rfl, opened.broken (by simp)⟩
  | cons b rest ih =>
      by_cases fits : low ≤ b ∧ b ≤ high
      · have longer : part ++ b :: rest = (part ++ [b]) ++ rest := by simp
        cases owed with
        | zero =>
            obtain ⟨c, written⟩ := opened.last fits
            exact .inl ⟨c, by rw [written, longer]; exact List.prefix_append _ _⟩
        | succ owed =>
            rw [longer]
            exact ih (opened.next fits)
      · refine .inr ⟨part, b :: rest, rfl, opened.broken ?_⟩
        intro b' head
        rwa [← Option.some.inj head]

/-- At the head of some octets there is a character or a broken part. -/
theorem read_or_broken {bytes : Bytes} (more : bytes ≠ []) :
    (∃ c, String.utf8EncodeChar c <+: bytes) ∨
      ∃ part rest, bytes = part ++ rest ∧ Broken part rest ∧
        pieces bytes = none :: pieces rest := by
  obtain ⟨b, rest, rfl⟩ := List.exists_cons_of_ne_nil more
  generalize eq : lead b = l
  cases l with
  | single c =>
      have one : pieces [b] = [some c] := by
        simp [pieces, piecesFrom, step, start, eq]
      exact .inl ⟨c, by rw [← eq_utf8EncodeChar one]; exact ⟨rest, rfl⟩⟩
  | opens s =>
      obtain ⟨owed, low, high, code, rfl, possible⟩ := lead_opens eq
      exact (Opened.of_lead eq possible).read_or_broken rest
  | stray =>
      have reads : ∀ tail, pieces ([b] ++ tail) = none :: pieces tail := by
        intro tail
        simp [pieces, piecesFrom_cons, step, start, eq]
      have broken : Broken [b] rest :=
        broken_of_reads (List.cons_ne_nil _ _) (.inr rfl) fun tail _ => reads tail
      exact .inr ⟨[b], rest, rfl, broken, reads rest⟩

theorem Broken.length_le {part' rest' : Bytes} (broken : Broken part rest)
    (broken' : Broken part' rest') (same : part ++ rest = part' ++ rest') :
    part.length ≤ part'.length := by
  obtain begins | one := broken.begins
  · exact broken'.longest part ⟨rest, same⟩ begins
  · rw [one]
    exact List.length_pos_iff.mpr broken'.nonempty

/-- There is only one broken part at the head of some octets. -/
theorem Broken.unique {part' rest' : Bytes} (broken : Broken part rest)
    (broken' : Broken part' rest') (same : part ++ rest = part' ++ rest') :
    part = part' ∧ rest = rest' :=
  List.append_inj same
    (Nat.le_antisymm (broken.length_le broken' same) (broken'.length_le broken same.symm))

theorem Broken.pieces_eq (broken : Broken part rest) :
    pieces (part ++ rest) = none :: pieces rest := by
  obtain ⟨c, written⟩ | ⟨part', rest', same, broken', read⟩ :=
    read_or_broken (List.append_ne_nil_of_left_ne_nil broken.nonempty rest)
  · exact absurd written (broken.unread c)
  · obtain ⟨rfl, rfl⟩ := broken.unique broken' same
    exact read

/-! ## Lossy readings -/

@[simp] theorem lossy_nil : lossy [] = [] := rfl

theorem lossy_utf8EncodeChar (c : Char) (rest : Bytes) :
    lossy (String.utf8EncodeChar c ++ rest) = c :: lossy rest := by
  rw [lossy, pieces_utf8EncodeChar]
  rfl

theorem Broken.lossy_eq (broken : Broken part rest) :
    lossy (part ++ rest) = '\uFFFD' :: lossy rest := by
  rw [lossy, broken.pieces_eq]
  rfl

theorem repaired_lossy (bytes : Bytes) : Repaired bytes (lossy bytes) := by
  induction h : bytes.length using Nat.strong_induction_on generalizing bytes with
  | _ n ih =>
    by_cases empty : bytes = []
    · rw [empty]
      exact .nil
    · obtain ⟨c, rest, rfl⟩ | ⟨part, rest, rfl, broken, _⟩ := read_or_broken empty
      · rw [lossy_utf8EncodeChar]
        refine .char c (ih rest.length ?_ rest rfl)
        have size : 0 < (String.utf8EncodeChar c).length := by
          rw [String.length_utf8EncodeChar]
          exact c.utf8Size_pos
        rw [← h, List.length_append]
        omega
      · rw [broken.lossy_eq]
        refine .broken broken (ih rest.length ?_ rest rfl)
        have size := List.length_pos_iff.mpr broken.nonempty
        rw [← h, List.length_append]
        omega

/-- Octets have one reading in which the broken parts are replaced, the lossy one. -/
theorem repaired_iff {bytes : Bytes} {cs : List Char} : Repaired bytes cs ↔ cs = lossy bytes := by
  constructor
  · intro repaired
    induction repaired with
    | nil => rfl
    | char c _ ih => rw [lossy_utf8EncodeChar, ih]
    | broken broken _ ih => rw [broken.lossy_eq, ih]
  · rintro rfl
    exact repaired_lossy bytes

/-- The first two octets of three are one broken part. Those of a surrogate are two, as no character
begins with both. -/
example : lossy [0x61, 0xE2, 0x82, 0xED, 0xA0, 0x62] =
    ['a', '\uFFFD', '\uFFFD', '\uFFFD', 'b'] := by
  decide

/-- Text at the head of some octets is read as it is. -/
theorem lossy_ofChars_append (cs : List Char) (rest : Bytes) :
    lossy (ofChars cs ++ rest) = cs ++ lossy rest := by
  induction cs with
  | nil => rfl
  | cons c cs ih =>
      rw [ofChars, List.flatMap_cons, List.append_assoc, lossy_utf8EncodeChar]
      exact congrArg (c :: ·) ih

@[simp] theorem lossy_encode (s : String) : lossy (encode s) = s.toList := by
  have read := lossy_ofChars_append s.toList []
  rwa [List.append_nil, lossy_nil, List.append_nil] at read

theorem lossy_ne_nil {bytes : Bytes} (more : bytes ≠ []) : lossy bytes ≠ [] := by
  intro read
  exact more (pieces_eq_nil (List.map_eq_nil_iff.mp read))

/-! ## Well-formed octets -/

theorem ofChars_of_pieces {bytes : Bytes} {cs : List Char} (read : pieces bytes = cs.map some) :
    bytes = ofChars cs := by
  induction cs generalizing bytes with
  | nil => exact pieces_eq_nil read
  | cons c cs ih =>
      have more : bytes ≠ [] := by
        rintro rfl
        cases read
      obtain ⟨c', rest, rfl⟩ | ⟨part, rest, rfl, _, read'⟩ := read_or_broken more
      · rw [pieces_utf8EncodeChar] at read
        obtain ⟨same, read⟩ := List.cons.inj read
        rw [Option.some.inj same, ih read]
        rfl
      · rw [read'] at read
        cases read

theorem pieces_of_intact? {ps : List (Option Char)} {cs : List Char}
    (intact : intact? ps = some cs) : ps = cs.map some := by
  induction ps generalizing cs with
  | nil =>
      obtain rfl := Option.some.inj intact
      rfl
  | cons p ps ih =>
      cases p with
      | none => cases intact
      | some c =>
          obtain ⟨cs, found, rfl⟩ := Option.map_eq_some_iff.mp intact
          rw [ih found]
          rfl

/-- Octets are well formed just if they are those of a text. -/
theorem decode?_eq_some_iff {bytes : Bytes} {s : String} :
    decode? bytes = some s ↔ bytes = encode s := by
  constructor
  · intro read
    obtain ⟨cs, intact, rfl⟩ := Option.map_eq_some_iff.mp read
    rw [encode, String.toList_ofList]
    exact ofChars_of_pieces (pieces_of_intact? intact)
  · rintro rfl
    exact decode?_encode s

end

end Utf8
end Courier
