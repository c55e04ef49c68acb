import Courier.Payload.Value
import Courier.Text.Utf8

/-!
# Syntax trees

Both wire formats read octets into the same syntax tree and write it from the same tree. A tree
keeps what a format says and a value does not: the order of entries, keys that are no text,
texts that are not well formed, and whether an integer was written in a form that has a sign.

Reading a tree as a value or as a text, and finding the fields of a structure in it, is the same
for both formats.
-/

namespace Courier

/-- A syntax tree. -/
inductive Node where
  | null
  | bool (b : Bool)
  /-- An integer in a form without sign. -/
  | nat (n : Nat)
  /-- An integer in a form with a sign. -/
  | int (n : Int)
  | float (bits : UInt64)
  | text (s : String)
  /-- Octets that are not marked as text, or that are and are not well formed. -/
  | octets (bytes : Bytes)
  | seq (items : List Node)
  | map (entries : List (Node × Node))
  /-- Something well formed that stands for no value. -/
  | unreadable
  deriving Inhabited

namespace Node

mutual

/-- The tree of a value, with the entries of records in the order of their keys. -/
def ofValue : Value → Node
  | .null => .null
  | .bool b => .bool b
  | .int n => if 0 ≤ n then .nat n.toNat else .int n
  | .float bits => .float bits
  | .text s => .text s
  | .list items => .seq (ofItems items)
  | .record fields => .map ((sortFields (ofFields fields)).map fun (k, n) => (.text k, n))

def ofItems : List Value → List Node
  | [] => []
  | v :: rest => ofValue v :: ofItems rest

def ofFields : List (String × Value) → List (String × Node)
  | [] => []
  | (k, v) :: rest => (k, ofValue v) :: ofFields rest

end

mutual

/-- The value of a tree in which at most `depth` containers stand inside each other. Keys have to
be texts, and of equal keys the last counts. -/
def toValue? (depth : Nat) : Node → Option Value
  | .null => some .null
  | .bool b => some (.bool b)
  | .nat n => some (.int n)
  | .int n => some (.int n)
  | .float bits => some (.float bits)
  | .text s => some (.text s)
  | .octets _ => none
  | .unreadable => none
  | .seq items =>
    match depth with
    | 0 => none
    | d + 1 => (toItems? d items).map .list
  | .map entries =>
    match depth with
    | 0 => none
    | d + 1 => (toFields? d entries).map .ofFields

def toItems? (depth : Nat) : List Node → Option (List Value)
  | [] => some []
  | n :: rest => do
    let v ← toValue? depth n
    let vs ← toItems? depth rest
    return v :: vs

def toFields? (depth : Nat) : List (Node × Node) → Option (List (String × Value))
  | [] => some []
  | (.text k, n) :: rest => do
    let v ← toValue? depth n
    let fields ← toFields? depth rest
    return (k, v) :: fields
  | (_, _) :: _ => none

end

/-- A text, whether or not it was marked as one. -/
def toText? : Node → Option String
  | .text s => some s
  | .octets bytes => Utf8.decode? bytes
  | _ => none

/-- The integer of either form. -/
def toInt? : Node → Option Int
  | .nat n => some n
  | .int n => some n
  | _ => none

def toBool? : Node → Option Bool
  | .bool b => some b
  | _ => none

/-- A text that may be missing. -/
def toTextOption? : Node → Option (Option String)
  | .null => some none
  | n => n.toText?.map some

/-- Which field a key names. -/
inductive Key where
  | field (index : Nat)
  /-- No field of the structure; its value is passed over. -/
  | unknown

/-- The field a key names: by its name, as text or octets, or by its position, as an integer
without sign. Anything else is no key. -/
def toKey? (names : List String) : Node → Option Key
  | .text s => some (named (names.findIdx? (· == s)))
  | .octets bytes => some (named (names.findIdx? (Utf8.encode · == bytes)))
  | .nat n => some (if n < names.length then .field n else .unknown)
  | _ => none
where
  named : Option Nat → Key
    | some i => .field i
    | none => .unknown

/-- Puts the values of a map's entries into the slots of their fields. A field that occurs twice
and an entry whose key is none are refused. -/
def collect? (names : List String) :
    List (Node × Node) → List (Option Node) → Option (List (Option Node))
  | [], slots => some slots
  | (k, v) :: rest, slots =>
    match toKey? names k with
    | none => none
    | some .unknown => collect? names rest slots
    | some (.field i) =>
      match slots[i]? with
      | some none => collect? names rest (slots.set i (some v))
      | _ => none

/-- The fields of a structure, one slot for each name. A map gives them by key, a sequence in
order; a sequence has to hold all of them, up to the last `spare` ones. -/
def slots? (names : List String) (spare : Nat) : Node → Option (List (Option Node))
  | .map entries => collect? names entries (names.map fun _ => none)
  | .seq items =>
    if items.length ≤ names.length ∧ names.length ≤ items.length + spare then
      some (items.map some ++ List.replicate (names.length - items.length) none)
    else none
  | _ => none

end Node

end Courier
