import Courier.Text.Utf8

/-!
# Previews of message bodies

A preview is the lossy reading of a body, cut after 256 characters with an ellipsis in place of
the rest.
-/

namespace Courier

namespace Preview

/-- How many characters a preview keeps. -/
def width : Nat := 256

/-- A text of at most `width` characters as it is, and of a longer one the beginning and an
ellipsis. -/
def cut (text : List Char) : List Char :=
  if text.length ≤ width then text else text.take width ++ ['…']

theorem length_cut_le (text : List Char) : (cut text).length ≤ width + 1 := by
  simp only [cut]
  split
  · omega
  · simp only [List.length_append, List.length_take, List.length_cons, List.length_nil]
    omega

end Preview

/-- A short printable reading of a message body. -/
def preview (body : Bytes) : String := String.ofList (Preview.cut (Utf8.lossy body))

end Courier
