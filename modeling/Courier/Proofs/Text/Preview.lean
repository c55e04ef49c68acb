import Courier.Proofs.Text.Repair
import Courier.Text.Preview

/-!
# What a preview shows

A preview shows the beginning of a body's lossy reading, in which each broken part of the octets is
one replacement character. So it is the whole text of a short well-formed body, and otherwise
depends on the first 257 characters of the reading only: 256 are shown, and the next one makes the
ellipsis. As text at the head of a body is read as it is, whatever follows it, nothing matters that
comes after 256 characters of text, but that it is there.
-/

namespace Courier

namespace Preview

open Courier.Utf8 (Repaired lossy decode? encode)

theorem toList_preview (body : Bytes) : (preview body).toList = cut (lossy body) := by
  rw [preview, String.toList_ofList]

theorem cut_of_le {text : List Char} (short : text.length ≤ 256) : cut text = text := if_pos short

theorem cut_of_lt {text : List Char} (long : 256 < text.length) :
    cut text = text.take 256 ++ ['…'] :=
  if_neg (Nat.not_le.mpr long)

/-- Texts with the same first 257 characters are cut alike. -/
theorem cut_congr {text other : List Char} (same : text.take 257 = other.take 257) :
    cut text = cut other := by
  have lengths := congrArg List.length same
  rw [List.length_take, List.length_take] at lengths
  by_cases short : text.length ≤ 256
  · have short' : other.length ≤ 256 := by omega
    rw [cut_of_le short, cut_of_le short']
    rwa [List.take_of_length_le (by omega), List.take_of_length_le (by omega)] at same
  · have long : 256 < text.length := Nat.not_le.mp short
    have long' : 256 < other.length := by omega
    have shown := congrArg (List.take 256) same
    rw [List.take_take, List.take_take] at shown
    rw [cut_of_lt long, cut_of_lt long']
    exact congrArg (· ++ ['…']) shown

/-- How a body and its preview belong together. -/
structure Shows (body : Bytes) : Prop where
  short : (preview body).length ≤ 257
  /-- The lossy reading is the one in which each character is read and each broken part replaced. -/
  repaired_iff {cs : List Char} : Repaired body cs ↔ cs = lossy body
  /-- Just the octets of a text are well formed. -/
  formed_iff {s : String} : decode? body = some s ↔ body = encode s
  /-- A text of at most 256 characters is shown as it is. -/
  text {s : String} : decode? body = some s → s.length ≤ 256 → preview body = s
  /-- So is any reading of at most 256 characters. -/
  kept : (lossy body).length ≤ 256 → (preview body).toList = lossy body
  /-- Of a longer one there are the first 256 characters and an ellipsis. -/
  shortened : 257 ≤ (lossy body).length → (preview body).toList = (lossy body).take 256 ++ ['…']
  /-- Text at the head of the body does not change the reading of what follows. -/
  ahead (s : String) : lossy (encode s ++ body) = s.toList ++ lossy body
  /-- Another body whose reading begins with the same 257 characters is shown alike. -/
  alike {other : Bytes} : (lossy body).take 257 = (lossy other).take 257 →
    preview body = preview other
  /-- What comes after 256 characters of text makes the ellipsis, whatever it is. -/
  hidden {s : String} : 256 ≤ s.length → body ≠ [] →
    (preview (encode s ++ body)).toList = s.toList.take 256 ++ ['…']

theorem beginning_shown (body : Bytes) : Shows body where
  short := by
    rw [← String.length_toList, toList_preview]
    exact length_cut_le _
  repaired_iff := Utf8.repaired_iff
  formed_iff := Utf8.decode?_eq_some_iff
  text := by
    intro s read short
    rw [Utf8.decode?_eq_some_iff] at read
    rw [← String.toList_inj, toList_preview, read, Utf8.lossy_encode]
    exact cut_of_le short
  kept short := (toList_preview body).trans (cut_of_le short)
  shortened long := (toList_preview body).trans (cut_of_lt long)
  ahead s := Utf8.lossy_ofChars_append s.toList body
  alike same := congrArg String.ofList (cut_congr same)
  hidden := by
    intro s long more
    have reading : lossy (encode s ++ body) = s.toList ++ lossy body :=
      Utf8.lossy_ofChars_append s.toList body
    have rest := List.length_pos_iff.mpr (Utf8.lossy_ne_nil more)
    rw [← String.length_toList] at long
    rw [toList_preview, reading, cut_of_lt (by rw [List.length_append]; omega),
      List.take_append_of_le_length long]

end Preview

end Courier
