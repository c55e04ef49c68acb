import Courier.Proofs.Payload.Json.Trees
import Courier.Proofs.Payload.RoundTrip
import Courier.Proofs.Payload.Sameness

/-!
# Payloads in JSON

JSON carries every payload without floating point numbers whose integers fit 64 bits
(`Payload.isPlain`); only a payload of any shape can be too deep. Such a payload is read back with
blanks before and after it (`json_round_trip`).

Records are written in the order of their keys, so the octets of a value depend only on what it is:
two values that are the same in the sense of `Value.Same` have the same octets.
-/

namespace Courier

/-! ## What can be carried -/

namespace Value

mutual

/-- Whether a value holds no floating point number and no integer of more than 64 bits. -/
def isPlain : Value → Bool
  | .null => true
  | .bool _ => true
  | .int n => -2 ^ 63 ≤ n ∧ n < 2 ^ 64
  | .float _ => false
  | .text _ => true
  | .list items => arePlain items
  | .record fields => entriesPlain fields

def arePlain : List Value → Bool
  | [] => true
  | v :: rest => v.isPlain && arePlain rest

def entriesPlain : List (String × Value) → Bool
  | [] => true
  | (_, v) :: rest => v.isPlain && entriesPlain rest

end

theorem arePlain_iff {items : List Value} :
    arePlain items = true ↔ ∀ v ∈ items, v.isPlain = true := by
  induction items with
  | nil => simp [arePlain]
  | cons first rest ih => simp [arePlain, ih]

theorem entriesPlain_iff {fields : List (String × Value)} :
    entriesPlain fields = true ↔ ∀ e ∈ fields, e.2.isPlain = true := by
  induction fields with
  | nil => simp [entriesPlain]
  | cons first rest ih => simp [entriesPlain, ih]

end Value

namespace Json

theorem echoItems_of_each {items : List Node} (each : ∀ n ∈ items, echo n = n) :
    echoItems items = items := by
  induction items with
  | nil => rfl
  | cons first rest ih =>
      rw [echoItems, each first List.mem_cons_self,
        ih fun n mem => each n (List.mem_cons_of_mem _ mem)]

theorem echoEntries_of_each {entries : List (Node × Node)} (each : ∀ e ∈ entries, echo e.2 = e.2) :
    echoEntries entries = entries := by
  induction entries with
  | nil => rfl
  | cons first rest ih =>
      rw [echoEntries, each first List.mem_cons_self,
        ih fun e mem => each e (List.mem_cons_of_mem _ mem)]

/-- The tree of a value that JSON carries, which is read as it was written. -/
theorem printable_ofValue {v : Value} (plain : v.isPlain = true) :
    Printable (.ofValue v) ∧ echo (.ofValue v) = .ofValue v := by
  induction v with
  | null => exact ⟨.null, rfl⟩
  | bool b => exact ⟨.bool b, rfl⟩
  | int n =>
      have range : -2 ^ 63 ≤ n ∧ n < 2 ^ 64 := of_decide_eq_true plain
      cases n with
      | ofNat n => exact ⟨.nat (by omega), rfl⟩
      | negSucc n => exact ⟨.int (by omega), rfl⟩
  | float bits => exact nomatch plain
  | text s => exact ⟨.text s, rfl⟩
  | list items ih =>
      have each : ∀ n ∈ items.map Node.ofValue, Printable n ∧ echo n = n :=
        List.forall_mem_map.mpr fun v mem => ih v mem (Value.arePlain_iff.mp plain v mem)
      rw [Node.ofValue, Node.ofItems_eq]
      refine ⟨.seq fun n mem => (each n mem).1, ?_⟩
      rw [echo, echoItems_of_each fun n mem => (each n mem).2]
  | record fields ih =>
      have each : ∀ e ∈ (sortFields fields).map fun e => (Node.text e.1, Node.ofValue e.2),
          (∃ s, e.1 = .text s) ∧ Printable e.2 ∧ echo e.2 = e.2 := by
        refine List.forall_mem_map.mpr fun e mem => ⟨⟨e.1, rfl⟩, ?_⟩
        have old := mem_of_mem_sortFields mem
        exact ih e old (Value.entriesPlain_iff.mp plain e old)
      rw [Node.ofValue_record]
      refine ⟨.map (fun e mem => (each e mem).1) fun e mem => (each e mem).2.1, ?_⟩
      rw [echo, echoEntries_of_each fun e mem => (each e mem).2.2]

/-- Whether octets are nothing but what JSON allows between tokens. -/
def areBlank (bytes : Bytes) : Bool :=
  bytes.all fun b => b == 0x20 || b == 0x09 || b == 0x0A || b == 0x0D

theorem exists_blanks {bytes : Bytes} (blank : areBlank bytes = true) :
    ∃ cs, (∀ c ∈ cs, isBlank c = true) ∧ bytes = Utf8.ofChars cs := by
  induction bytes with
  | nil => exact ⟨[], by simp, rfl⟩
  | cons b bytes ih =>
      obtain ⟨first, rest⟩ := Bool.and_eq_true_iff.mp blank
      obtain ⟨cs, all, rfl⟩ := ih rest
      have octet : ∃ c, isBlank c = true ∧ String.utf8EncodeChar c = [b] := by
        simp only [Bool.or_eq_true, beq_iff_eq] at first
        obtain ((rfl | rfl) | rfl) | rfl := first
        · exact ⟨' ', rfl, rfl⟩
        · exact ⟨'\t', rfl, rfl⟩
        · exact ⟨'\n', rfl, rfl⟩
        · exact ⟨'\r', rfl, rfl⟩
      obtain ⟨c, visible, one⟩ := octet
      refine ⟨c :: cs, List.forall_mem_cons.mpr ⟨visible, all⟩, ?_⟩
      change _ = String.utf8EncodeChar c ++ Utf8.ofChars cs
      rw [one]
      rfl

end Json

namespace Payload

/-- Whether JSON carries a payload. -/
def isPlain : Payload → Bool
  | .value v => v.isPlain && v.depth ≤ Format.json.depth
  | _ => true

/-- Two payloads that are the same where records mean maps. -/
inductive Same : Payload → Payload → Prop where
  | value {v w : Value} : v.Same w → Same (.value v) (.value w)
  | refl (p : Payload) : Same p p

theorem same_normal (p : Payload) : p.Same p.normal := by
  cases p with
  | value v => exact .value v.same_normal
  | u32 | i64 | text | order | upload | shipping | noted | task => exact .refl _

theorem Same.normal_eq {p q : Payload} (same : p.Same q) : p.normal = q.normal := by
  cases same with
  | value same => exact congrArg Payload.value same.normal_eq
  | refl => rfl

theorem shallow_of_isPlain {p : Payload} (plain : p.isPlain = true) (v : Value)
    (shape : p = .value v) : v.depth ≤ Format.json.depth := by
  subst shape
  exact of_decide_eq_true (Bool.and_eq_true_iff.mp plain).2

open Json in
/-- The tree of a payload that JSON carries, which is read as it was written. -/
theorem printable_toNode {p : Payload} (plain : p.isPlain = true) :
    Printable p.toNode ∧ echo p.toNode = p.toNode := by
  have number (n : UInt32) : Printable (.nat n.toNat) := by
    have small := n.toNat_lt
    exact .nat (by omega)
  have text (s : Option String) : Printable (ofTextOption s) := by
    cases s with
    | none => exact .null
    | some s => exact .text s
  cases p with
  | value v => exact printable_ofValue (Bool.and_eq_true_iff.mp plain).1
  | u32 n => exact ⟨number n, rfl⟩
  | i64 n =>
      have lower := n.le_toInt
      have upper := n.toInt_lt
      have fits : (Value.int n.toInt).isPlain = true := decide_eq_true (by omega)
      exact printable_ofValue fits
  | text s => exact ⟨.text s, rfl⟩
  | order id => exact ⟨.map (by simp) (by simp [number]), rfl⟩
  | upload name => exact ⟨.map (by simp) (by simp [Printable.text]), rfl⟩
  | shipping packed carrier =>
      exact ⟨.map (by simp) (by simp [Printable.bool, text]), by cases carrier <;> rfl⟩
  | noted id note => exact ⟨.map (by simp) (by simp [number, text]), by cases note <;> rfl⟩
  | task id note =>
      cases note with
      | none => exact ⟨.map (by simp) (by simp [number]), rfl⟩
      | some note => exact ⟨.map (by simp) (by simp [number, Printable.text]), rfl⟩

end Payload

namespace Format

/-- A payload that JSON carries is read back, in its normal form, from its octets and blanks before
and after them. The normal form of a payload is the same payload, and payloads that are the same
have the same octets: those of a value do not tell in which order the keys of a record came, nor
what a key meant before it was given its last value. -/
theorem json_round_trip :
    (∀ p : Payload, p.isPlain = true →
      ∀ before after, Json.areBlank before = true → Json.areBlank after = true →
        Format.json.decode p.schema (before ++ Format.json.encode p ++ after) = .ok p.normal) ∧
    (∀ p : Payload, p.Same p.normal) ∧
    ∀ p q : Payload, p.Same q → Format.json.encode p = Format.json.encode q := by
  refine ⟨fun p plain before after blank blank' => ?_, Payload.same_normal, fun p q same => ?_⟩
  · obtain ⟨before, visible, rfl⟩ := Json.exists_blanks blank
    obtain ⟨after, visible', rfl⟩ := Json.exists_blanks blank'
    obtain ⟨printable, unchanged⟩ := Payload.printable_toNode plain
    have taken : Format.json.node?
        (Utf8.ofChars before ++ Format.json.encode p ++ Utf8.ofChars after) = some p.toNode :=
      (Json.decode?_encode printable visible visible').trans (congrArg some unchanged)
    have typed : Payload.ofNode? Format.json.depth p.schema p.toNode = some p.normal :=
      Payload.ofNode?_toNode p (Payload.shallow_of_isPlain plain)
    rw [decode, taken, Option.bind_some, typed]
  · have one : p.toNode = q.toNode := by
      rw [← p.toNode_normal, same.normal_eq, q.toNode_normal]
    exact congrArg Json.encode one

/-- A record whose keys are out of order, one of them given twice, with a text of quotes, controls
and characters of two and four octets. -/
def jumble : Payload :=
  .value (.record [("z", .null), ("a", .text "\"\\\n\x01é𝄞"),
    ("z", .list [.int (-2 ^ 63), .int (2 ^ 64 - 1)])])

/-- The same record with its keys in order. -/
def tidy : Payload :=
  .value (.record [("a", .text "\"\\\n\x01é𝄞"),
    ("z", .list [.int (-2 ^ 63), .int (2 ^ 64 - 1)])])

theorem json_round_trip_jumble :
    jumble.isPlain = true ∧ Json.areBlank [0x20, 0x0A] = true ∧ Json.areBlank [0x09] = true ∧
    Format.json.decode .value ([0x20, 0x0A] ++ Format.json.encode jumble ++ [0x09]) = .ok tidy ∧
    jumble.Same tidy ∧ Format.json.encode jumble = Format.json.encode tidy := by
  have plain : jumble.isPlain = true := by decide
  have sorted : jumble.normal = tidy := by rfl
  obtain ⟨read, normal, one⟩ := json_round_trip
  have same : jumble.Same tidy := sorted ▸ normal jumble
  exact ⟨plain, rfl, rfl, sorted ▸ read jumble plain _ _ rfl rfl, same, one _ _ same⟩

end Format

end Courier
