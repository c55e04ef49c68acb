import Courier.Payload.Node

/-!
# MessagePack input

The reader takes the first complete tree of a sequence of octets and leaves the rest. Containers
may stand inside each other up to `room` deep. Every form of MessagePack is read: texts that are
not well formed become octets, and extensions, which stand for no value, become unreadable trees.
-/

namespace Courier

namespace Pack

/-- How many containers may stand inside each other. -/
def room : Nat := 1023

/-- The first `n` octets and the others, if there are so many. -/
def split? : Nat → Bytes → Option (Bytes × Bytes)
  | 0, bytes => some ([], bytes)
  | _ + 1, [] => none
  | n + 1, b :: rest => (split? n rest).map fun (taken, after) => (b :: taken, after)

/-- The number of octets whose first is the most significant. -/
def ofBigEndian (bytes : Bytes) : Nat := bytes.foldl (fun n b => 256 * n + b.toNat) 0

/-- A number of `width` octets and what follows it. -/
def nat? (width : Nat) (bytes : Bytes) : Option (Nat × Bytes) :=
  (split? width bytes).map fun (taken, after) => (ofBigEndian taken, after)

/-- A number of `width` octets in two's complement. -/
def int? (width : Nat) (bytes : Bytes) : Option (Int × Bytes) :=
  (nat? width bytes).map fun (n, after) =>
    (if n < Nat.pow 2 (8 * width - 1) then (n : Int) else (n : Int) - Int.pow 2 (8 * width), after)

/-- The tree of octets marked as text. -/
def textNode (bytes : Bytes) : Node :=
  match Utf8.decode? bytes with
  | some s => .text s
  | none => .octets bytes

/-- So many octets, made into a tree. -/
def body? (make : Bytes → Node) (length : Nat) (bytes : Bytes) : Option (Node × Bytes) :=
  (split? length bytes).map fun (taken, after) => (make taken, after)

/-- Octets after their length, which itself takes `width` octets. -/
def sized? (make : Bytes → Node) (width : Nat) (bytes : Bytes) : Option (Node × Bytes) :=
  (nat? width bytes).bind fun (n, after) => body? make n after

/-- The bits of the double that a single stands for. -/
def widen (bits : Nat) : UInt64 := (Float32.ofBits (UInt32.ofNat bits)).toFloat.toBits

/-- What the first octet of a tree announces. -/
inductive Head where
  | node (n : Node)
  | nat (width : Nat)
  | int (width : Nat)
  | single
  | double
  | text (length : Nat)
  | textSized (width : Nat)
  | octetsSized (width : Nat)
  | ext (length : Nat)
  | extSized (width : Nat)
  | seq (length : Nat)
  | seqSized (width : Nat)
  | map (length : Nat)
  | mapSized (width : Nat)
  | reserved

/-- The form that an octet announces. -/
def head (b : UInt8) : Head :=
  let n := b.toNat
  if n < 0x80 then .node (.nat n)
  else if n < 0x90 then .map (n - 0x80)
  else if n < 0xA0 then .seq (n - 0x90)
  else if n < 0xC0 then .text (n - 0xA0)
  else if 0xE0 ≤ n then .node (.int ((n : Int) - 0x100))
  else match n with
    | 0xC0 => .node .null
    | 0xC2 => .node (.bool false)
    | 0xC3 => .node (.bool true)
    | 0xC4 => .octetsSized 1
    | 0xC5 => .octetsSized 2
    | 0xC6 => .octetsSized 4
    | 0xC7 => .extSized 1
    | 0xC8 => .extSized 2
    | 0xC9 => .extSized 4
    | 0xCA => .single
    | 0xCB => .double
    | 0xCC => .nat 1
    | 0xCD => .nat 2
    | 0xCE => .nat 4
    | 0xCF => .nat 8
    | 0xD0 => .int 1
    | 0xD1 => .int 2
    | 0xD2 => .int 4
    | 0xD3 => .int 8
    | 0xD4 => .ext 1
    | 0xD5 => .ext 2
    | 0xD6 => .ext 4
    | 0xD7 => .ext 8
    | 0xD8 => .ext 16
    | 0xD9 => .textSized 1
    | 0xDA => .textSized 2
    | 0xDB => .textSized 4
    | 0xDC => .seqSized 2
    | 0xDD => .seqSized 4
    | 0xDE => .mapSized 2
    | 0xDF => .mapSized 4
    | _ => .reserved

/-- So many trees, each read by `one`. -/
def items? (one : Bytes → Option (Node × Bytes)) : Nat → Bytes → Option (List Node × Bytes)
  | 0, bytes => some ([], bytes)
  | n + 1, bytes =>
    match one bytes with
    | none => none
    | some (first, rest) => (items? one n rest).map fun (ns, after) => (first :: ns, after)

/-- So many pairs of trees, each read by `one`. -/
def entries? (one : Bytes → Option (Node × Bytes)) :
    Nat → Bytes → Option (List (Node × Node) × Bytes)
  | 0, bytes => some ([], bytes)
  | n + 1, bytes =>
    match one bytes with
    | none => none
    | some (k, rest) =>
      match one rest with
      | none => none
      | some (v, rest) => (entries? one n rest).map fun (es, after) => ((k, v) :: es, after)

/-- A container whose parts are read by `one`, which is missing when there is no room for one
more container. -/
def container? (one : Option (Bytes → Option (Node × Bytes))) (bytes : Bytes) :
    Head → Option (Node × Bytes)
  | .seq n => one.bind fun one => (items? one n bytes).map fun (ns, after) => (.seq ns, after)
  | .map n => one.bind fun one => (entries? one n bytes).map fun (es, after) => (.map es, after)
  | .seqSized width => (nat? width bytes).bind fun (n, bytes) =>
    one.bind fun one => (items? one n bytes).map fun (ns, after) => (.seq ns, after)
  | .mapSized width => (nat? width bytes).bind fun (n, bytes) =>
    one.bind fun one => (entries? one n bytes).map fun (es, after) => (.map es, after)
  | .ext n => one.bind fun _ => body? (fun _ => .unreadable) (n + 1) bytes
  | .extSized width => (nat? width bytes).bind fun (n, bytes) =>
    one.bind fun _ => body? (fun _ => .unreadable) (n + 1) bytes
  | .node n => some (n, bytes)
  | .nat width => (nat? width bytes).map fun (n, after) => (.nat n, after)
  | .int width => (int? width bytes).map fun (n, after) => (.int n, after)
  | .single => (nat? 4 bytes).map fun (n, after) => (.float (widen n), after)
  | .double => (nat? 8 bytes).map fun (n, after) => (.float (UInt64.ofNat n), after)
  | .text n => body? textNode n bytes
  | .textSized width => sized? textNode width bytes
  | .octetsSized width => sized? .octets width bytes
  | .reserved => none

/-- The first tree of the octets, with containers inside each other at most so deep, and what
follows it. -/
def node? : Nat → Bytes → Option (Node × Bytes)
  | _, [] => none
  | 0, b :: rest => container? none rest (head b)
  | depth + 1, b :: rest => container? (some (node? depth)) rest (head b)

/-- The first tree of the octets; what follows it has no meaning. -/
def decode? (bytes : Bytes) : Option Node := (node? room bytes).map (·.1)

end Pack

end Courier
