/-!
# Values

A value is what a payload without a fixed shape can hold. Records are maps: of entries with one
key the last counts and the order of keys means nothing, which `Value.normal` makes visible by
sorting the entries of every record and keeping one entry per key.
-/

namespace Courier

/-- A value of any shape. A floating point number is held by its 64 bits. -/
inductive Value where
  | null
  | bool (b : Bool)
  | int (n : Int)
  | float (bits : UInt64)
  | text (s : String)
  | list (items : List Value)
  | record (fields : List (String × Value))
  deriving Inhabited

/-- The entries of a map in the order of their keys with one more entry. An entry of the same key
is replaced. -/
def insertField {α : Type} (key : String) (value : α) : List (String × α) → List (String × α)
  | [] => [(key, value)]
  | (k, v) :: rest =>
    if key < k then (key, value) :: (k, v) :: rest
    else if key = k then (key, value) :: rest
    else (k, v) :: insertField key value rest

/-- Entries sorted by key, the last of each key only. -/
def sortFields {α : Type} (fields : List (String × α)) : List (String × α) :=
  fields.foldl (fun sorted (k, v) => insertField k v sorted) []

namespace Value

mutual

/-- The same value with every record sorted and free of repeated keys. -/
def normal : Value → Value
  | .list items => .list (normalItems items)
  | .record fields => .record (sortFields (normalFields fields))
  | .null => .null
  | .bool b => .bool b
  | .int n => .int n
  | .float bits => .float bits
  | .text s => .text s

def normalItems : List Value → List Value
  | [] => []
  | v :: rest => v.normal :: normalItems rest

def normalFields : List (String × Value) → List (String × Value)
  | [] => []
  | (k, v) :: rest => (k, v.normal) :: normalFields rest

end

/-- A record of entries in any order. -/
def ofFields (fields : List (String × Value)) : Value := .record (sortFields fields)

end Value

end Courier
