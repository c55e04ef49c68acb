import Courier.Payload.Node

/-!
# Payload shapes

A schema says which shape the payloads of a channel have. A payload is a value of one of these
shapes. Structures are written as maps in the order of their fields and are read from maps, in
which unknown entries are passed over, or from sequences.
-/

namespace Courier

/-- The shapes of payloads. -/
inductive Schema where
  /-- Any value. -/
  | value
  | u32
  | i64
  | text
  /-- An order: its number. -/
  | order
  /-- An upload: its name. What is attached to it is never carried. -/
  | upload
  /-- A parcel: whether it is packed, and the carrier if there is one. -/
  | shipping
  /-- A number with a note that may be missing. -/
  | noted
  /-- A unit of work: like `noted`, but a missing note is not written. -/
  | task
  deriving DecidableEq

/-- A payload of some shape. -/
inductive Payload where
  | value (v : Value)
  | u32 (n : UInt32)
  | i64 (n : Int64)
  | text (s : String)
  | order (id : UInt32)
  | upload (name : String)
  | shipping (packed : Bool) (carrier : Option String)
  | noted (id : UInt32) (note : Option String)
  | task (id : UInt32) (note : Option String)
  deriving Inhabited

namespace Payload

def schema : Payload → Schema
  | .value _ => .value
  | .u32 _ => .u32
  | .i64 _ => .i64
  | .text _ => .text
  | .order _ => .order
  | .upload _ => .upload
  | .shipping .. => .shipping
  | .noted .. => .noted
  | .task .. => .task

def ofInt (n : Int) : Node := if 0 ≤ n then .nat n.toNat else .int n

def ofTextOption : Option String → Node
  | some s => .text s
  | none => .null

/-- The syntax tree of a payload. -/
def toNode : Payload → Node
  | .value v => .ofValue v
  | .u32 n => .nat n.toNat
  | .i64 n => ofInt n.toInt
  | .text s => .text s
  | .order id => .map [(.text "id", .nat id.toNat)]
  | .upload name => .map [(.text "name", .text name)]
  | .shipping packed carrier =>
    .map [(.text "packed", .bool packed), (.text "carrier", ofTextOption carrier)]
  | .noted id note => .map [(.text "id", .nat id.toNat), (.text "note", ofTextOption note)]
  | .task id none => .map [(.text "id", .nat id.toNat)]
  | .task id (some note) => .map [(.text "id", .nat id.toNat), (.text "note", .text note)]

/-- An integer that fits 32 bits without sign. -/
def u32? (n : Node) : Option UInt32 := do
  let i ← n.toInt?
  if 0 ≤ i ∧ i < Int.pow 2 32 then some (.ofNat i.toNat) else none

/-- An integer that fits 64 bits with a sign. -/
def i64? (n : Node) : Option Int64 := do
  let i ← n.toInt?
  if -Int.pow 2 63 ≤ i ∧ i < Int.pow 2 63 then some (.ofInt i) else none

/-- The number and the note of a structure whose note may be missing. -/
def idAndNote? (n : Node) : Option (UInt32 × Option String) := do
  match ← n.slots? ["id", "note"] 1 with
  | [some id, note] =>
    let id ← u32? id
    let note ← (note.getD .null).toTextOption?
    return (id, note)
  | _ => none

/-- The payload of a shape that a tree describes. `depth` bounds the containers that stand inside
each other in a payload of any shape. -/
def ofNode? (depth : Nat) : Schema → Node → Option Payload
  | .value, n => (n.toValue? depth).map .value
  | .u32, n => (u32? n).map .u32
  | .i64, n => (i64? n).map .i64
  | .text, n => n.toText?.map .text
  | .order, n => do
    match ← n.slots? ["id"] 0 with
    | [some id] => return .order (← u32? id)
    | _ => none
  | .upload, n => do
    match ← n.slots? ["name"] 0 with
    | [some name] => return .upload (← name.toText?)
    | _ => none
  | .shipping, n => do
    match ← n.slots? ["packed", "carrier"] 0 with
    | [some packed, carrier] =>
      let packed ← packed.toBool?
      let carrier ← (carrier.getD .null).toTextOption?
      return .shipping packed carrier
    | _ => none
  | .noted, n => do
    let (id, note) ← idAndNote? n
    return .noted id note
  | .task, n => do
    let (id, note) ← idAndNote? n
    return .task id note

/-- The payload as a value of any shape, for showing it. -/
def toValue : Payload → Value
  | .value v => v.normal
  | .u32 n => .int n.toNat
  | .i64 n => .int n.toInt
  | .text s => .text s
  | .order id => .record [("id", .int id.toNat)]
  | .upload name => .record [("name", .text name)]
  | .shipping packed carrier =>
    .record [("carrier", textOrNull carrier), ("packed", .bool packed)]
  | .noted id note => .record [("id", .int id.toNat), ("note", textOrNull note)]
  | .task id none => .record [("id", .int id.toNat)]
  | .task id (some note) => .record [("id", .int id.toNat), ("note", .text note)]
where
  textOrNull : Option String → Value
    | some s => .text s
    | none => .null

end Payload

end Courier
