/-!
# UTF-8

Text as octets. `decode?` reads well-formed octets only. `pieces` reads any octets: every
maximal part of an ill-formed sequence that could still have begun a character becomes one
`none`, and `lossy` shows each of those as the replacement character.
-/

namespace Courier

/-- A sequence of octets. -/
abbrev Bytes := List UInt8

namespace Utf8

/-- Where a reader stands between two octets. -/
inductive State where
  /-- Between characters. -/
  | boundary
  /-- Inside a character: `owed + 1` octets are missing, the next one must lie between `low` and
  `high`, and `code` holds the bits read so far. -/
  | inside (owed : Nat) (low high : UInt8) (code : Nat)
  deriving DecidableEq

/-- What the first octet of a character says. -/
inductive Lead where
  /-- A character of one octet. -/
  | single (c : Char)
  /-- The beginning of a longer character. -/
  | opens (state : State)
  /-- No character begins with this octet. -/
  | stray

/-- The reading of an octet at a character boundary. -/
def lead (b : UInt8) : Lead :=
  if b < 0x80 then .single (Char.ofNat b.toNat)
  else if b < 0xC2 then .stray
  else if b < 0xE0 then .opens (.inside 0 0x80 0xBF (b.toNat - 0xC0))
  else if b = 0xE0 then .opens (.inside 1 0xA0 0xBF 0)
  else if b = 0xED then .opens (.inside 1 0x80 0x9F 0xD)
  else if b < 0xF0 then .opens (.inside 1 0x80 0xBF (b.toNat - 0xE0))
  else if b = 0xF0 then .opens (.inside 2 0x90 0xBF 0)
  else if b < 0xF4 then .opens (.inside 2 0x80 0xBF (b.toNat - 0xF0))
  else if b = 0xF4 then .opens (.inside 2 0x80 0x8F 4)
  else .stray

/-- One octet at a character boundary: the pieces it completes and the state after it. -/
def start (b : UInt8) : List (Option Char) × State :=
  match lead b with
  | .single c => ([some c], .boundary)
  | .opens s => ([], s)
  | .stray => ([none], .boundary)

/-- One octet in any state. An octet that does not fit ends the broken piece before it and is
read again as the beginning of a character. -/
def step : State → UInt8 → List (Option Char) × State
  | .boundary, b => start b
  | .inside owed low high code, b =>
    if low ≤ b ∧ b ≤ high then
      let code := code * 64 + (b.toNat - 0x80)
      match owed with
      | 0 => ([some (Char.ofNat code)], .boundary)
      | n + 1 => ([], .inside n 0x80 0xBF code)
    else
      let (found, s) := start b
      (none :: found, s)

/-- The pieces of octets read from a state on: characters, and `none` for each broken part. -/
def piecesFrom : State → Bytes → List (Option Char)
  | .boundary, [] => []
  | .inside .., [] => [none]
  | s, b :: rest =>
    let (found, s) := step s b
    found ++ piecesFrom s rest

/-- The pieces of a sequence of octets. -/
def pieces (bytes : Bytes) : List (Option Char) := piecesFrom .boundary bytes

/-- The characters of pieces none of which is broken. -/
def intact? : List (Option Char) → Option (List Char)
  | [] => some []
  | none :: _ => none
  | some c :: rest => (intact? rest).map (c :: ·)

/-- The text of well-formed octets. -/
def decode? (bytes : Bytes) : Option String := (intact? (pieces bytes)).map String.ofList

/-- The characters of any octets, with U+FFFD for each broken part. -/
def lossy (bytes : Bytes) : List Char := (pieces bytes).map (·.getD '\uFFFD')

/-- The octets of a list of characters. -/
def ofChars (cs : List Char) : Bytes := cs.flatMap String.utf8EncodeChar

/-- The octets of a text. -/
def encode (s : String) : Bytes := ofChars s.toList

@[simp] theorem ofChars_nil : ofChars [] = [] := rfl

@[simp] theorem ofChars_append (a b : List Char) : ofChars (a ++ b) = ofChars a ++ ofChars b := by
  simp [ofChars]

@[simp] theorem pieces_nil : pieces [] = [] := rfl

end Utf8

end Courier
