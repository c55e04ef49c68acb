import Courier.Fault
import Courier.Payload.Json.Parser
import Courier.Payload.Json.Printer
import Courier.Payload.Pack.Parser
import Courier.Payload.Pack.Printer
import Courier.Payload.Schema

/-!
# Wire formats

Payloads are carried as JSON or as MessagePack. A format writes the tree of a payload, and reads
octets into a tree and the tree into a payload of the wanted shape. A body may be labelled with
the content type of its format; the label is compared without regard to the case of ASCII letters.
-/

namespace Courier

/-- A wire format. -/
inductive Format where
  | json
  | pack
  deriving DecidableEq

namespace Format

def contentType : Format → String
  | .json => "application/json"
  | .pack => "application/msgpack"

/-- How deep containers may stand inside each other in a payload of any shape. -/
def depth : Format → Nat
  | .json => 127
  | .pack => Pack.room

/-- Two texts that differ in the case of ASCII letters at most. -/
def sameIgnoringCase (a b : String) : Bool :=
  a.toList.map Char.toLower == b.toList.map Char.toLower

/-- Accepts a body without label and one labelled with the format's own content type. -/
def checkContentType (f : Format) : Option String → Except CodecFault Unit
  | none => .ok ()
  | some label =>
    if sameIgnoringCase label f.contentType then .ok ()
    else .error (.contentType f.contentType label)

/-- The octets of a payload. -/
def encode (f : Format) (p : Payload) : Bytes :=
  match f with
  | .json => Json.encode p.toNode
  | .pack => Pack.encode p.toNode

/-- The tree of octets. -/
def node? : Format → Bytes → Option Node
  | .json, bytes => Json.decode? bytes
  | .pack, bytes => Pack.decode? bytes

/-- The payload of a shape that octets hold. -/
def decode (f : Format) (s : Schema) (bytes : Bytes) : Except CodecFault Payload :=
  match (f.node? bytes).bind (Payload.ofNode? f.depth s) with
  | some p => .ok p
  | none => .error (.decode none)

end Format

end Courier
