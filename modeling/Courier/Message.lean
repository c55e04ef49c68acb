import Courier.Payload.Value
import Courier.Text.Utf8

/-!
# Messages

A message has an identity given by its queue, a body, a label for the body's format, and a bag of
properties. A delivery is a message handed out for the `count`-th time, under a lock token that
settles this delivery and no other.
-/

namespace Courier

/-- A bag of properties: entries sorted by key, one for each key. -/
structure Properties where
  entries : List (String × String) := []
  deriving DecidableEq, Inhabited

namespace Properties

/-- The property that links messages of one conversation. -/
def correlationId : String := "correlation-id"

/-- The properties of a list of entries, of which the last for each key counts. -/
def ofList (entries : List (String × String)) : Properties := ⟨sortFields entries⟩

def get? (p : Properties) (key : String) : Option String := p.entries.lookup key

def contains (p : Properties) (key : String) : Bool := (p.get? key).isSome

def insert (p : Properties) (key value : String) : Properties :=
  ⟨insertField key value p.entries⟩

def erase (p : Properties) (key : String) : Properties :=
  ⟨p.entries.filter fun (k, _) => k != key⟩

def size (p : Properties) : Nat := p.entries.length

def isEmpty (p : Properties) : Bool := p.entries.isEmpty

end Properties

/-- What an answer to a delivery makes of it. -/
inductive Disposition where
  | completed
  | abandoned
  | deadLettered
  deriving DecidableEq

namespace Disposition

/-- The word for a disposition in messages and labels. -/
def label : Disposition → String
  | .completed => "completed"
  | .abandoned => "abandoned"
  | .deadLettered => "dead_lettered"

end Disposition

/-- The name under which one delivery is settled. -/
inductive LockToken where
  /-- The token that a queue issued as its `serial`-th. -/
  | issued (serial : Nat)
  /-- A token that no queue issued. -/
  | foreign (text : String)
  deriving DecidableEq

/-- What a sender hands to a queue. -/
structure Outgoing where
  body : Bytes
  contentType : Option String := none
  properties : Properties := {}
  /-- How often the message has been delivered elsewhere before. -/
  priorDeliveries : UInt32 := 0

/-- A message as its queue keeps it. -/
structure Message where
  id : String
  body : Bytes
  contentType : Option String
  properties : Properties
  deriving DecidableEq, Inhabited

/-- A message handed out, for the `count`-th time, under a lock. -/
structure Delivery where
  message : Message
  count : UInt32
  token : LockToken
  deriving DecidableEq

end Courier
