import Courier.Payload.Node
import Courier.Text.Decimal

/-!
# JSON output

Trees are written without any blanks. In texts the quote, the backslash and the characters below
U+0020 are escaped, the common ones by a letter and the others by four hexadecimal digits;
everything else stands as it is.
-/

namespace Courier

namespace Json

/-- The lower case hexadecimal digit of a number below sixteen. -/
def hexDigit (n : Nat) : Char := Nat.digitChar n

/-- A character as it stands in a text. -/
def escape (c : Char) : List Char :=
  if c = '"' then ['\\', '"']
  else if c = '\\' then ['\\', '\\']
  else if c = '\x08' then ['\\', 'b']
  else if c = '\x0c' then ['\\', 'f']
  else if c = '\n' then ['\\', 'n']
  else if c = '\r' then ['\\', 'r']
  else if c = '\t' then ['\\', 't']
  else if c.toNat < 0x20 then
    ['\\', 'u', '0', '0', hexDigit (c.toNat / 16), hexDigit (c.toNat % 16)]
  else [c]

/-- A text between quotes. -/
def quote (s : String) : List Char := '"' :: s.toList.flatMap escape ++ ['"']

mutual

/-- The characters of a tree. Only texts can be keys; octets and what stands for no value are
written as null. -/
def print : Node → List Char
  | .null => "null".toList
  | .bool true => "true".toList
  | .bool false => "false".toList
  | .nat n => Nat.toDigits 10 n
  | .int n => if n < 0 then '-' :: Nat.toDigits 10 n.natAbs else Nat.toDigits 10 n.natAbs
  | .float bits => (Decimal.text bits).toList
  | .text s => quote s
  | .octets _ => "null".toList
  | .unreadable => "null".toList
  | .seq [] => ['[', ']']
  | .seq (n :: rest) => '[' :: print n ++ printItems rest
  | .map [] => ['\x7b', '\x7d']
  | .map ((k, v) :: rest) => '\x7b' :: print k ++ ':' :: print v ++ printEntries rest

/-- The items after the first and the closing bracket. -/
def printItems : List Node → List Char
  | [] => [']']
  | n :: rest => ',' :: print n ++ printItems rest

/-- The entries after the first and the closing brace. -/
def printEntries : List (Node × Node) → List Char
  | [] => ['\x7d']
  | (k, v) :: rest => ',' :: print k ++ ':' :: print v ++ printEntries rest

end

/-- The octets of a tree. -/
def encode (n : Node) : Bytes := Utf8.ofChars (print n)

/-- The text of a value. -/
def render (v : Value) : String := String.ofList (print (.ofValue v))

end Json

end Courier
