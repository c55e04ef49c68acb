import Courier.Payload.Node

/-!
# MessagePack output

Every part of a tree takes the shortest form that MessagePack has for it: integers, texts,
sequences and maps are written with as few octets as their size allows.
-/

namespace Courier

namespace Pack

/-- The last `width` octets of a number, the most significant first. -/
def bigEndian : Nat → Nat → Bytes
  | 0, _ => []
  | width + 1, n => UInt8.ofNat (n / Nat.pow 256 width % 256) :: bigEndian width n

/-- An integer that is not negative. -/
def printNat (n : Nat) : Bytes :=
  if n < 0x80 then [UInt8.ofNat n]
  else if n < Nat.pow 2 8 then 0xCC :: bigEndian 1 n
  else if n < Nat.pow 2 16 then 0xCD :: bigEndian 2 n
  else if n < Nat.pow 2 32 then 0xCE :: bigEndian 4 n
  else 0xCF :: bigEndian 8 n

/-- A negative integer, given by the number `-1 - n` that is not. -/
def printNegative (n : Nat) : Bytes :=
  if n < 0x20 then [UInt8.ofNat (0xFF - n)]
  else if n < Nat.pow 2 7 then 0xD0 :: bigEndian 1 (Nat.pow 2 8 - 1 - n)
  else if n < Nat.pow 2 15 then 0xD1 :: bigEndian 2 (Nat.pow 2 16 - 1 - n)
  else if n < Nat.pow 2 31 then 0xD2 :: bigEndian 4 (Nat.pow 2 32 - 1 - n)
  else 0xD3 :: bigEndian 8 (Nat.pow 2 64 - 1 - n)

def printInt : Int → Bytes
  | .ofNat n => printNat n
  | .negSucc n => printNegative n

/-- The head of a text of so many octets. -/
def textHead (n : Nat) : Bytes :=
  if n < 0x20 then [UInt8.ofNat (0xA0 + n)]
  else if n < Nat.pow 2 8 then 0xD9 :: bigEndian 1 n
  else if n < Nat.pow 2 16 then 0xDA :: bigEndian 2 n
  else 0xDB :: bigEndian 4 n

/-- The head of so many octets that are no text. -/
def octetsHead (n : Nat) : Bytes :=
  if n < Nat.pow 2 8 then 0xC4 :: bigEndian 1 n
  else if n < Nat.pow 2 16 then 0xC5 :: bigEndian 2 n
  else 0xC6 :: bigEndian 4 n

/-- The head of a sequence of so many items. -/
def seqHead (n : Nat) : Bytes :=
  if n < 0x10 then [UInt8.ofNat (0x90 + n)]
  else if n < Nat.pow 2 16 then 0xDC :: bigEndian 2 n
  else 0xDD :: bigEndian 4 n

/-- The head of a map of so many entries. -/
def mapHead (n : Nat) : Bytes :=
  if n < 0x10 then [UInt8.ofNat (0x80 + n)]
  else if n < Nat.pow 2 16 then 0xDE :: bigEndian 2 n
  else 0xDF :: bigEndian 4 n

mutual

/-- The octets of a tree; what stands for no value is written as nil. -/
def encode : Node → Bytes
  | .null => [0xC0]
  | .bool false => [0xC2]
  | .bool true => [0xC3]
  | .nat n => printNat n
  | .int n => printInt n
  | .float bits => 0xCB :: bigEndian 8 bits.toNat
  | .text s =>
    let bytes := Utf8.encode s
    textHead bytes.length ++ bytes
  | .octets bytes => octetsHead bytes.length ++ bytes
  | .unreadable => [0xC0]
  | .seq items => seqHead items.length ++ encodeItems items
  | .map entries => mapHead entries.length ++ encodeEntries entries

def encodeItems : List Node → Bytes
  | [] => []
  | n :: rest => encode n ++ encodeItems rest

def encodeEntries : List (Node × Node) → Bytes
  | [] => []
  | (k, v) :: rest => encode k ++ encode v ++ encodeEntries rest

end

end Pack

end Courier
