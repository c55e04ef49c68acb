import Courier.Payload.Format
import Courier.Proofs.Payload.Pack
import Courier.Proofs.Payload.Values
import Courier.Text.Decimal

/-!
# Payloads in MessagePack

MessagePack carries every payload whose parts it has a form for (`Payload.isPackable`): integers fit
64 bits, and texts, lists and records have fewer than 2³² octets, items and entries. Only a payload
of any shape can be too deep. Such a payload is read back whatever follows it, and nothing is read
from a proper beginning of its octets.

A record is written in the order of its keys, so what is read back is the payload in its normal
form. The normal form is the same payload: both have one tree (`toNode_normal`).
-/

namespace Courier

namespace Node

/-- A value and its normal form have one tree. -/
@[simp] theorem ofValue_normal (v : Value) : ofValue v.normal = ofValue v := by
  induction v with
  | null | bool | int | float | text => rfl
  | list items ih =>
      rw [Value.normal, Value.normalItems_eq, ofValue, ofValue, ofItems_eq, ofItems_eq,
        List.map_map]
      exact congrArg Node.seq (List.map_congr_left ih)
  | record fields ih =>
      have same : (sortFields fields).map (fun e => (text e.1, ofValue e.2.normal)) =
          (sortFields fields).map fun e => (text e.1, ofValue e.2) :=
        List.map_congr_left fun e mem =>
          congrArg (text e.1, ·) (ih e (mem_of_mem_sortFields mem))
      rw [Value.normal, Value.normalFields_eq, sortFields_map, ofValue_record, ofValue_record,
        ← sortFields_map, sortFields_sortFields, sortFields_map, List.map_map]
      exact congrArg Node.map same

end Node

/-! ## What can be carried -/

/-- Whether a text has fewer octets than MessagePack can count. -/
def isShort (s : String) : Bool := (Utf8.encode s).length < 2 ^ 32

namespace Value

mutual

/-- Whether MessagePack has a form for everything in a value. -/
def isPackable : Value → Bool
  | .null => true
  | .bool _ => true
  | .int n => -2 ^ 63 ≤ n ∧ n < 2 ^ 64
  | .float bits => Decimal.isFinite bits
  | .text s => isShort s
  | .list items => items.length < 2 ^ 32 && arePackable items
  | .record fields => fields.length < 2 ^ 32 && entriesPackable fields

def arePackable : List Value → Bool
  | [] => true
  | v :: rest => v.isPackable && arePackable rest

def entriesPackable : List (String × Value) → Bool
  | [] => true
  | (k, v) :: rest => isShort k && v.isPackable && entriesPackable rest

end

theorem arePackable_iff {items : List Value} :
    arePackable items = true ↔ ∀ v ∈ items, v.isPackable = true := by
  induction items with
  | nil => simp [arePackable]
  | cons first rest ih => simp [arePackable, ih]

theorem entriesPackable_iff {fields : List (String × Value)} :
    entriesPackable fields = true ↔
      ∀ e ∈ fields, isShort e.1 = true ∧ e.2.isPackable = true := by
  induction fields with
  | nil => simp [entriesPackable]
  | cons first rest ih => simp [entriesPackable, ih, and_assoc]

end Value

namespace Pack

variable {depth : Nat}

theorem packable_text {s : String} (short : isShort s = true) : Packable depth (.text s) :=
  .text depth (of_decide_eq_true short)

/-- The tree of a value that MessagePack has a form for. -/
theorem packable_ofValue {v : Value} (fits : v.isPackable = true) (deep : v.depth ≤ depth) :
    Packable depth (.ofValue v) := by
  induction v generalizing depth with
  | null => exact .null depth
  | bool b => exact .bool depth b
  | int n =>
      have range : -2 ^ 63 ≤ n ∧ n < 2 ^ 64 := of_decide_eq_true fits
      cases n with
      | ofNat n => exact .nat depth (by omega)
      | negSucc n => exact .int depth (by omega)
  | float bits => exact .float depth bits
  | text s => exact packable_text fits
  | list items ih =>
      obtain ⟨few, each⟩ := Bool.and_eq_true_iff.mp fits
      obtain _ | depth := depth
      · exact absurd deep (Nat.not_succ_le_zero _)
      rw [Node.ofValue, Node.ofItems_eq]
      refine .seq (by simpa using few) ?_
      rw [List.forall_mem_map]
      intro v mem
      have shallow := Nat.le_trans (Value.depth_le_items mem) (Nat.le_of_succ_le_succ deep)
      exact ih v mem (Value.arePackable_iff.mp each v mem) shallow
  | record fields ih =>
      obtain ⟨few, each⟩ := Bool.and_eq_true_iff.mp fits
      obtain _ | depth := depth
      · exact absurd deep (Nat.not_succ_le_zero _)
      rw [Node.ofValue_record]
      refine .map ?_ ?_ ?_
      · rw [List.length_map]
        exact Nat.lt_of_le_of_lt (length_sortFields fields) (of_decide_eq_true few)
      · rw [List.forall_mem_map]
        intro e mem
        exact packable_text (Value.entriesPackable_iff.mp each e (mem_of_mem_sortFields mem)).1
      · rw [List.forall_mem_map]
        intro e mem
        have old := mem_of_mem_sortFields mem
        have shallow := Nat.le_trans (Value.depth_le_fields old) (Nat.le_of_succ_le_succ deep)
        exact ih e old (Value.entriesPackable_iff.mp each e old).2 shallow

end Pack

namespace Payload

/-- Whether MessagePack carries a payload. -/
def isPackable : Payload → Bool
  | .value v => v.isPackable && v.depth ≤ Pack.room
  | .u32 _ => true
  | .i64 _ => true
  | .text s => isShort s
  | .order _ => true
  | .upload name => isShort name
  | .shipping _ carrier => carrier.all isShort
  | .noted _ note => note.all isShort
  | .task _ note => note.all isShort

/-- The same payload with every record in it sorted and free of repeated keys. -/
def normal : Payload → Payload
  | .value v => .value v.normal
  | p => p

theorem normal_normal (p : Payload) : p.normal.normal = p.normal := by
  cases p with
  | value v => exact congrArg Payload.value v.normal_normal
  | u32 | i64 | text | order | upload | shipping | noted | task => rfl

theorem toNode_normal (p : Payload) : p.normal.toNode = p.toNode := by
  cases p with
  | value v => exact Node.ofValue_normal v
  | u32 | i64 | text | order | upload | shipping | noted | task => rfl

/-! ## Reading the trees of payloads -/

theorem u32?_toNat (n : UInt32) : u32? (.nat n.toNat) = some n := by
  have small := n.toNat_lt
  have lower : 0 ≤ (n.toNat : Int) := Int.natCast_nonneg _
  have upper : (n.toNat : Int) < (2 : Int) ^ 32 := by omega
  have fits : 0 ≤ (n.toNat : Int) ∧ (n.toNat : Int) < Int.pow 2 32 := ⟨lower, upper⟩
  unfold u32?
  rw [Node.toInt?, Option.bind_eq_bind, Option.bind_some, if_pos fits, Int.toNat_natCast,
    UInt32.ofNat_toNat]

theorem toInt?_ofInt (n : Int) : (ofInt n).toInt? = some n := by
  unfold ofInt
  split
  · rename_i positive
    exact congrArg some (Int.toNat_of_nonneg positive)
  · rfl

theorem i64?_ofInt (n : Int64) : i64? (ofInt n.toInt) = some n := by
  have fits : -Int.pow 2 63 ≤ n.toInt ∧ n.toInt < Int.pow 2 63 := ⟨n.le_toInt, n.toInt_lt⟩
  unfold i64?
  rw [toInt?_ofInt, Option.bind_eq_bind, Option.bind_some, if_pos fits, Int64.ofInt_toInt]

theorem toTextOption?_ofTextOption (s : Option String) :
    (ofTextOption s).toTextOption? = some s := by
  cases s <;> rfl

theorem idAndNote?_id (id : UInt32) :
    idAndNote? (.map [(.text "id", .nat id.toNat)]) = some (id, none) := by
  have slots : Node.slots? ["id", "note"] 1 (.map [(.text "id", .nat id.toNat)]) =
      some [some (.nat id.toNat), none] := rfl
  unfold idAndNote?
  rw [slots, Option.bind_eq_bind, Option.bind_some]
  change (u32? (.nat id.toNat)).bind _ = _
  rw [u32?_toNat]
  rfl

theorem idAndNote?_both (id : UInt32) (note : Option String) :
    idAndNote? (.map [(.text "id", .nat id.toNat), (.text "note", ofTextOption note)]) =
      some (id, note) := by
  have slots : Node.slots? ["id", "note"] 1
      (.map [(.text "id", .nat id.toNat), (.text "note", ofTextOption note)]) =
      some [some (.nat id.toNat), some (ofTextOption note)] := rfl
  unfold idAndNote?
  rw [slots, Option.bind_eq_bind, Option.bind_some]
  change (u32? (.nat id.toNat)).bind _ = _
  rw [u32?_toNat, Option.bind_some, Option.getD_some, toTextOption?_ofTextOption]
  rfl

/-- The tree of a payload is read as the payload in its normal form, if there is room. -/
theorem ofNode?_toNode (p : Payload) {depth : Nat}
    (deep : ∀ v, p = .value v → v.depth ≤ depth) :
    ofNode? depth p.schema p.toNode = some p.normal := by
  cases p with
  | value v =>
      rw [schema, toNode, ofNode?, Node.toValue?_ofValue v (deep v rfl)]
      rfl
  | u32 n =>
      rw [schema, toNode, ofNode?, u32?_toNat]
      rfl
  | i64 n =>
      rw [schema, toNode, ofNode?, i64?_ofInt]
      rfl
  | text s => rfl
  | order id =>
      have slots : Node.slots? ["id"] 0 (.map [(.text "id", .nat id.toNat)]) =
          some [some (.nat id.toNat)] := rfl
      rw [schema, toNode, ofNode?, slots, Option.bind_eq_bind, Option.bind_some]
      change (u32? (.nat id.toNat)).bind _ = _
      rw [u32?_toNat]
      rfl
  | upload name => rfl
  | shipping packed carrier => cases carrier <;> rfl
  | noted id note =>
      rw [schema, toNode, ofNode?, idAndNote?_both]
      rfl
  | task id note =>
      cases note with
      | none =>
          rw [schema, toNode, ofNode?, idAndNote?_id]
          rfl
      | some note =>
          have both := idAndNote?_both id (some note)
          rw [schema, toNode, ofNode?]
          change (idAndNote? (.map [_, (_, ofTextOption (some note))])).bind _ = _
          rw [both]
          rfl

theorem packable_ofTextOption {depth : Nat} {s : Option String} (short : s.all isShort = true) :
    Pack.Packable depth (ofTextOption s) := by
  cases s with
  | none => exact .null depth
  | some s => exact Pack.packable_text short

/-- The tree of a structure of two fields. -/
theorem packable_pair {depth : Nat} {first second : String} {a b : Node}
    (first_short : isShort first = true) (second_short : isShort second = true)
    (a_fits : Pack.Packable depth a) (b_fits : Pack.Packable depth b) :
    Pack.Packable (depth + 1) (.map [(.text first, a), (.text second, b)]) := by
  refine .map (by simp) ?_ ?_
  · intro e mem
    simp only [List.mem_cons, List.not_mem_nil, or_false] at mem
    obtain rfl | rfl := mem
    · exact Pack.packable_text first_short
    · exact Pack.packable_text second_short
  · intro e mem
    simp only [List.mem_cons, List.not_mem_nil, or_false] at mem
    obtain rfl | rfl := mem
    · exact a_fits
    · exact b_fits

/-- The tree of a structure of one field. -/
theorem packable_single {depth : Nat} {name : String} {a : Node} (short : isShort name = true)
    (fits : Pack.Packable depth a) : Pack.Packable (depth + 1) (.map [(.text name, a)]) := by
  refine .map (by simp) ?_ ?_
  · intro e mem
    obtain rfl := List.mem_singleton.mp mem
    exact Pack.packable_text short
  · intro e mem
    obtain rfl := List.mem_singleton.mp mem
    exact fits

/-- MessagePack has a form for the tree of every payload that it carries. -/
theorem packable_toNode {p : Payload} (fits : p.isPackable = true) :
    Pack.Packable Pack.room p.toNode := by
  have number (n : UInt32) (depth : Nat) : Pack.Packable depth (.nat n.toNat) := by
    have small := n.toNat_lt
    exact .nat depth (by omega)
  cases p with
  | value v =>
      obtain ⟨fits, deep⟩ := Bool.and_eq_true_iff.mp fits
      exact Pack.packable_ofValue fits (of_decide_eq_true deep)
  | u32 n => exact number n Pack.room
  | i64 n =>
      have lower := n.le_toInt
      have upper := n.toInt_lt
      have fits : (Value.int n.toInt).isPackable = true := decide_eq_true (by omega)
      exact Pack.packable_ofValue fits (Nat.zero_le _)
  | text s => exact Pack.packable_text fits
  | order id => exact packable_single (by decide) (number id _)
  | upload name => exact packable_single (by decide) (Pack.packable_text fits)
  | shipping packed carrier =>
      exact packable_pair (by decide) (by decide) (.bool _ packed) (packable_ofTextOption fits)
  | noted id note =>
      exact packable_pair (by decide) (by decide) (number id _) (packable_ofTextOption fits)
  | task id note =>
      cases note with
      | none => exact packable_single (by decide) (number id _)
      | some note =>
          exact packable_pair (by decide) (by decide) (number id _) (Pack.packable_text fits)

theorem shallow_of_isPackable {p : Payload} (fits : p.isPackable = true) (v : Value)
    (shape : p = .value v) : v.depth ≤ Pack.room := by
  subst shape
  exact of_decide_eq_true (Bool.and_eq_true_iff.mp fits).2

end Payload

namespace Format

/-- A payload that MessagePack carries is read back, in its normal form, from its octets and
whatever follows them. The normal form of a structure is the structure, and that of a value is
written with the same octets. From a proper beginning of the octets no payload of any shape is
read. -/
theorem pack_round_trip {p : Payload} (fits : p.isPackable = true) :
    (∀ more, Format.pack.decode p.schema (Format.pack.encode p ++ more) = .ok p.normal) ∧
    (p.schema ≠ .value → p.normal = p) ∧
    Format.pack.encode p.normal = Format.pack.encode p ∧
    ∀ s front back, Format.pack.encode p = front ++ back → back ≠ [] →
      Format.pack.decode s front = .error (.decode none) := by
  have tree := Payload.packable_toNode fits
  refine ⟨fun more => ?_, fun shape => ?_, ?_, fun s front back parts proper => ?_⟩
  · have taken : Format.pack.node? (Format.pack.encode p ++ more) = some p.toNode :=
      congrArg (Option.map Prod.fst) (Pack.node?_encode Pack.room more tree)
    have typed : Payload.ofNode? Format.pack.depth p.schema p.toNode = some p.normal :=
      Payload.ofNode?_toNode p (Payload.shallow_of_isPackable fits)
    rw [decode, taken, Option.bind_some, typed]
  · cases p with
    | value v => exact absurd rfl shape
    | u32 | i64 | text | order | upload | shipping | noted | task => rfl
  · exact congrArg Pack.encode p.toNode_normal
  · have nothing : Format.pack.node? front = none :=
      congrArg (Option.map Prod.fst) (Pack.node?_of_proper_prefix Pack.room tree parts proper)
    rw [decode, nothing]
    rfl

/-- A record with the least and the greatest integer, and a text of two octets a character. -/
def extremes : Payload :=
  .value (.record [("z", .list [.int (-2 ^ 63), .int (2 ^ 64 - 1)]), ("a", .text "éß")])

theorem pack_round_trip_extremes :
    extremes.isPackable = true ∧
    Format.pack.decode .value (Format.pack.encode extremes ++ [0xC1]) = .ok extremes.normal ∧
    Format.pack.decode .value (Format.pack.encode extremes).dropLast = .error (.decode none) := by
  have fits : extremes.isPackable = true := by decide
  obtain ⟨whole, -, -, part⟩ := pack_round_trip fits
  have last : Format.pack.encode extremes = (Format.pack.encode extremes).dropLast ++ [0xFF] := by
    decide
  exact ⟨fits, whole [0xC1], part .value _ [0xFF] last (by decide)⟩

end Format

end Courier
