import Courier.Payload.Node
import Courier.Text.Decimal

/-!
# JSON input

The reader works on the pieces of the octets: characters, and broken parts, which may occur in
texts only. It accepts exactly the JSON grammar, with space, tab, line feed and carriage return
between tokens and nothing else after the value.

A text with a broken part or with half of a surrogate pair, and a number too large for a double,
are accepted as unreadable trees: they are in order where their value is passed over.
-/

namespace Courier

namespace Json

/-- What is still to be read. -/
abbrev Input := List (Option Char)

def isBlank (c : Char) : Bool := c == ' ' || c == '\t' || c == '\n' || c == '\r'

/-- The input after blanks. -/
def skipBlanks : Input → Input
  | some c :: rest => if isBlank c then skipBlanks rest else some c :: rest
  | input => input

/-- The digits at the beginning of the input and what follows them. -/
def digits : Input → List Char × Input
  | some c :: rest =>
    if c.isDigit then
      let (ds, after) := digits rest
      (c :: ds, after)
    else ([], some c :: rest)
  | input => ([], input)

/-- The number that a list of decimal digits denotes. -/
def ofDigits (ds : List Char) : Nat := ds.foldl (fun n c => 10 * n + (c.toNat - 48)) 0

/-- The digits of the fraction, if the input begins with one. -/
def fraction? : Input → Option (Option (List Char) × Input)
  | some '.' :: rest =>
    match digits rest with
    | ([], _) => none
    | (ds, after) => some (some ds, after)
  | input => some (none, input)

/-- The sign of the exponent and what follows it. -/
def exponentSign : Input → Bool × Input
  | some '+' :: rest => (false, rest)
  | some '-' :: rest => (true, rest)
  | input => (false, input)

/-- The exponent, if the input begins with one. -/
def exponent? : Input → Option (Option Int × Input)
  | some c :: rest =>
    if c = 'e' ∨ c = 'E' then
      let (negative, rest) := exponentSign rest
      match digits rest with
      | ([], _) => none
      | (ds, after) =>
        let n : Int := ofDigits ds
        some (some (if negative then -n else n), after)
    else some (none, some c :: rest)
  | input => some (none, input)

/-- The double of a number, or an unreadable tree when it is too large for one. -/
def floatNode (negative : Bool) (n : Nat) (power : Int) : Node :=
  match Decimal.ofParts? negative n power with
  | some bits => .float bits
  | none => .unreadable

/-- The tree of a number without fraction and exponent: an integer where one of 64 bits can hold
it. Minus zero is no integer. -/
def wholeNode (negative : Bool) (n : Nat) : Node :=
  if negative then
    if 0 < n ∧ n ≤ Nat.pow 2 63 then .int (-n) else floatNode true n 0
  else if n < Nat.pow 2 64 then .nat n
  else floatNode false n 0

/-- A number whose sign has been read. -/
def number? (negative : Bool) (input : Input) : Option (Node × Input) :=
  match digits input with
  | ([], _) => none
  | ('0' :: _ :: _, _) => none
  | (whole, after) =>
    match fraction? after with
    | none => none
    | some (part, after) =>
      match exponent? after with
      | none => none
      | some (exponent, after) =>
        match part, exponent with
        | none, none => some (wholeNode negative (ofDigits whole), after)
        | _, _ =>
          let part := part.getD []
          some (floatNode negative (ofDigits (whole ++ part))
            (exponent.getD 0 - part.length), after)

/-- The value of a hexadecimal digit. -/
def hexValue? (c : Char) : Option Nat :=
  if c.isDigit then some (c.toNat - 48)
  else if 'a' ≤ c ∧ c ≤ 'f' then some (c.toNat - 87)
  else if 'A' ≤ c ∧ c ≤ 'F' then some (c.toNat - 55)
  else none

/-- The number of four hexadecimal digits. -/
def hex4? (a b c d : Char) : Option Nat := do
  return (← hexValue? a) * 4096 + (← hexValue? b) * 256 + (← hexValue? c) * 16 + (← hexValue? d)

/-- The character of an escape that is one letter long. -/
def letterEscape? : Char → Option Char
  | '"' => some '"'
  | '\\' => some '\\'
  | '/' => some '/'
  | 'b' => some '\x08'
  | 'f' => some '\x0c'
  | 'n' => some '\n'
  | 'r' => some '\r'
  | 't' => some '\t'
  | _ => none

/-- The characters of a text up to its closing quote. A part that stands for no character is
`none`. -/
def textPieces : Nat → Input → Option (List (Option Char) × Input)
  | 0, _ => none
  | _ + 1, [] => none
  | fuel + 1, none :: rest => piece none (textPieces fuel rest)
  | _ + 1, some '"' :: rest => some ([], rest)
  | fuel + 1, some '\\' :: some 'u' :: some a :: some b :: some c :: some d :: rest =>
    match hex4? a b c d with
    | none => none
    | some high =>
      if 0xD800 ≤ high ∧ high < 0xDC00 then
        match rest with
        | some '\\' :: some 'u' :: some a :: some b :: some c :: some d :: after =>
          match hex4? a b c d with
          | none => none
          | some low =>
            if 0xDC00 ≤ low ∧ low < 0xE000 then
              piece (some (Char.ofNat (0x10000 + (high - 0xD800) * 1024 + (low - 0xDC00))))
                (textPieces fuel after)
            else piece none (textPieces fuel rest)
        | _ => piece none (textPieces fuel rest)
      else if 0xDC00 ≤ high ∧ high < 0xE000 then piece none (textPieces fuel rest)
      else piece (some (Char.ofNat high)) (textPieces fuel rest)
  | fuel + 1, some '\\' :: some e :: rest =>
    match letterEscape? e with
    | none => none
    | some c => piece (some c) (textPieces fuel rest)
  | fuel + 1, some c :: rest =>
    if c = '\\' ∨ c.toNat < 0x20 then none else piece (some c) (textPieces fuel rest)
where
  piece (p : Option Char) (tail : Option (List (Option Char) × Input)) :
      Option (List (Option Char) × Input) :=
    tail.map fun (ps, rest) => (p :: ps, rest)

/-- The tree of a text: unreadable when a part of it stands for no character. -/
def textNode (ps : List (Option Char)) : Node :=
  match Utf8.intact? ps with
  | some cs => .text (String.ofList cs)
  | none => .unreadable

/-- A text whose opening quote has been read. -/
def text? (input : Input) : Option (Node × Input) :=
  (textPieces (input.length + 1) input).map fun (ps, rest) => (textNode ps, rest)

/-- The input after a fixed word. -/
def word? : List Char → Input → Option Input
  | [], input => some input
  | w :: ws, some c :: rest => if w = c then word? ws rest else none
  | _ :: _, _ => none

mutual

/-- The first value of the input, after blanks, and what follows it. -/
def value? : Nat → Input → Option (Node × Input)
  | 0, _ => none
  | fuel + 1, input =>
    match skipBlanks input with
    | some '"' :: rest => text? rest
    | some '[' :: rest =>
      match skipBlanks rest with
      | some ']' :: after => some (.seq [], after)
      | _ => (items? fuel rest).map fun (ns, after) => (.seq ns, after)
    | some '\x7b' :: rest =>
      match skipBlanks rest with
      | some '\x7d' :: after => some (.map [], after)
      | _ => (entries? fuel rest).map fun (es, after) => (.map es, after)
    | some 'n' :: rest => (word? ['u', 'l', 'l'] rest).map fun after => (.null, after)
    | some 't' :: rest => (word? ['r', 'u', 'e'] rest).map fun after => (.bool true, after)
    | some 'f' :: rest => (word? ['a', 'l', 's', 'e'] rest).map fun after => (.bool false, after)
    | some '-' :: rest => number? true rest
    | rest => number? false rest

/-- One item or more, up to the closing bracket. -/
def items? : Nat → Input → Option (List Node × Input)
  | 0, _ => none
  | fuel + 1, input =>
    match value? fuel input with
    | none => none
    | some (n, rest) =>
      match skipBlanks rest with
      | some ',' :: after => (items? fuel after).map fun (ns, after) => (n :: ns, after)
      | some ']' :: after => some ([n], after)
      | _ => none

/-- One entry or more, up to the closing brace. -/
def entries? : Nat → Input → Option (List (Node × Node) × Input)
  | 0, _ => none
  | fuel + 1, input =>
    match skipBlanks input with
    | some '"' :: rest =>
      match text? rest with
      | none => none
      | some (k, rest) =>
        match skipBlanks rest with
        | some ':' :: rest =>
          match value? fuel rest with
          | none => none
          | some (v, rest) =>
            match skipBlanks rest with
            | some ',' :: after =>
              (entries? fuel after).map fun (es, after) => ((k, v) :: es, after)
            | some '\x7d' :: after => some ([(k, v)], after)
            | _ => none
        | _ => none
    | _ => none

end

/-- The tree of octets that hold one value and blanks. -/
def decode? (bytes : Bytes) : Option Node :=
  let input := Utf8.pieces bytes
  match value? (2 * input.length + 2) input with
  | some (n, rest) => if (skipBlanks rest).isEmpty then some n else none
  | none => none

end Json

end Courier
