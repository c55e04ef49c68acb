import Courier.Proofs.Payload.Canonical
import Courier.Proofs.Payload.Fields

/-!
# Structures that grew

A structure is written as a map of its fields, and read by their names alone. A reader takes a map
in any order and passes over entries it has no name for, whatever they hold; a field that may be
missing is taken as null, one that may not is asked for, and none may be given twice
(`structures_read_by_name`). So fields can be added to a structure without breaking older readers
or writers: what is written with a note is read without, and what is written without is read with
none.
-/

namespace Courier

/-! ## The fields of a structure -/

namespace Schema

/-- The names of the fields of a structure, and of each whether it may be missing. -/
def fields : Schema → List (String × Bool)
  | .order => [("id", false)]
  | .upload => [("name", false)]
  | .shipping => [("packed", false), ("carrier", true)]
  | .noted | .task => [("id", false), ("note", true)]
  | .value | .u32 | .i64 | .text => []

def names (s : Schema) : List String := s.fields.map Prod.fst

/-- The names that may not be missing. -/
def required (s : Schema) : List String := (s.fields.filter fun e => !e.2).map Prod.fst

theorem names_nodup (s : Schema) : s.names.Nodup := by cases s <;> decide

end Schema

namespace Payload

/-- The fields of a structure with what they hold. -/
def entries : Payload → List (String × Node)
  | .order id => [("id", .nat id.toNat)]
  | .upload name => [("name", .text name)]
  | .shipping packed carrier => [("packed", .bool packed), ("carrier", ofTextOption carrier)]
  | .noted id note => [("id", .nat id.toNat), ("note", ofTextOption note)]
  | .task id none => [("id", .nat id.toNat)]
  | .task id (some note) => [("id", .nat id.toNat), ("note", .text note)]
  | .value _ | .u32 _ | .i64 _ | .text _ => []

/-- The fields of a structure that hold something. -/
def held (p : Payload) : List (String × Node) :=
  p.entries.filter fun
    | (_, .null) => false
    | _ => true

theorem toNode_eq_ofEntries {p : Payload} (structured : p.schema.fields ≠ []) :
    p.toNode = .ofEntries p.entries := by
  cases p with
  | value | u32 | i64 | text => exact absurd rfl structured
  | order | upload | shipping | noted => rfl
  | task id note => cases note <;> rfl

theorem entries_sublist_names (p : Payload) : (p.entries.map Prod.fst).Sublist p.schema.names := by
  cases p with
  | value | u32 | i64 | text | order | upload | shipping | noted => exact .refl _
  | task id note =>
      cases note with
      | none => exact .cons_cons "id" (.cons "note" .slnil)
      | some note => exact .refl _

theorem held_sublist (p : Payload) : p.held.Sublist p.entries := List.filter_sublist

/-! ## Reading by name -/

variable {s : Schema} {entries others : List (String × Node)} {depth : Nat}

theorem exists_idAndNote?_eq :
    ∃ read, (∀ n, idAndNote? n = (n.slots? ["id", "note"] 1).bind read) ∧
      ∀ rest, read (none :: rest) = none :=
  ⟨_, fun _ => rfl, fun _ => rfl⟩

/-- A structure is read from the slots of its fields alone, and not if the first is empty. -/
theorem exists_ofNode?_eq (structured : s.fields ≠ []) (depth : Nat) :
    ∃ spare read, (∀ n, ofNode? depth s n = (n.slots? s.names spare).bind read) ∧
      ∀ rest, read (none :: rest) = none := by
  cases s with
  | value | u32 | i64 | text => exact absurd rfl structured
  | order | upload | shipping => exact ⟨0, _, fun _ => rfl, fun _ => rfl⟩
  | noted =>
      obtain ⟨read, reads, missing⟩ := exists_idAndNote?_eq
      refine ⟨1, fun found => (read found).bind fun e => some (.noted e.1 e.2), fun n => ?_, ?_⟩
      · rw [ofNode?, reads]
        exact Option.bind_assoc ..
      · intro rest
        simp only [missing, Option.bind_none]
  | task =>
      obtain ⟨read, reads, missing⟩ := exists_idAndNote?_eq
      refine ⟨1, fun found => (read found).bind fun e => some (.task e.1 e.2), fun n => ?_, ?_⟩
      · rw [ofNode?, reads]
        exact Option.bind_assoc ..
      · intro rest
        simp only [missing, Option.bind_none]

/-- What is read depends on the entries of the names only. -/
theorem ofNode?_congr (structured : s.fields ≠ [])
    (same : ∀ name ∈ s.names, valuesOf name entries = valuesOf name others) :
    ofNode? depth s (.ofEntries entries) = ofNode? depth s (.ofEntries others) := by
  obtain ⟨spare, read, reads, -⟩ := exists_ofNode?_eq structured depth
  rw [reads, reads, Node.slots?_congr s.names_nodup same]

/-- A structure that gives one of its names twice is refused. -/
theorem ofNode?_of_twice (structured : s.fields ≠ []) {name : String} (mem : name ∈ s.names)
    (twice : 2 ≤ (valuesOf name entries).length) :
    ofNode? depth s (.ofEntries entries) = none := by
  obtain ⟨spare, read, reads, -⟩ := exists_ofNode?_eq structured depth
  rw [reads, Node.slots?_of_twice s.names_nodup mem twice, Option.bind_none]

/-- A structure that lacks a name which may not be missing is refused. -/
theorem ofNode?_of_missing {name : String} (mem : name ∈ s.required)
    (missing : valuesOf name entries = []) : ofNode? depth s (.ofEntries entries) = none := by
  have structured : s.fields ≠ [] := by
    rintro none'
    rw [Schema.required, none'] at mem
    exact nomatch mem
  have first : ∃ others, s.names = name :: others := by
    cases s with
    | value | u32 | i64 | text => exact nomatch mem
    | order | upload | shipping | noted | task =>
        obtain rfl := List.mem_singleton.mp mem
        exact ⟨_, rfl⟩
  obtain ⟨others, names⟩ := first
  obtain ⟨spare, read, reads, refuses⟩ := exists_ofNode?_eq structured depth
  rw [reads]
  cases found : Node.slots? s.names spare (.ofEntries entries) with
  | none => rfl
  | some slots =>
      obtain ⟨rest, rfl⟩ :=
        Node.exists_slots_of_missing (names ▸ s.names_nodup) missing (names ▸ found)
      exact refuses rest

/-- A structure is read from its fields, also where those that hold nothing are left out. -/
theorem ofNode?_entries {p : Payload} (structured : p.schema.fields ≠ []) (depth : Nat) :
    ofNode? depth p.schema (.ofEntries p.entries) = some p ∧
      ofNode? depth p.schema (.ofEntries p.held) = some p := by
  have whole : ofNode? depth p.schema (.ofEntries p.entries) = some p := by
    have deep : ∀ v, p = .value v → v.depth ≤ depth := by
      rintro v rfl
      exact absurd rfl structured
    rw [← toNode_eq_ofEntries structured, ofNode?_toNode p deep]
    cases p with
    | value => exact absurd rfl structured
    | u32 | i64 | text | order | upload | shipping | noted | task => rfl
  refine ⟨whole, ?_⟩
  cases p with
  | value | u32 | i64 | text => exact absurd rfl structured
  | order | upload => exact whole
  | shipping packed carrier => cases carrier <;> rfl
  | noted id note =>
      cases note with
      | none =>
          have one : (noted id none).held = [("id", .nat id.toNat)] := rfl
          rw [one, schema, ofNode?]
          change (idAndNote? (.map [(.text "id", .nat id.toNat)])).bind _ = _
          rw [idAndNote?_id]
          rfl
      | some note => exact whole
  | task id note => cases note <;> exact whole

end Payload

/-! ## Trees on the wire -/

namespace Format

variable {f : Format} {n : Node} {entries : List (String × Node)}

/-- The octets of a tree. -/
def octets : Format → Node → Bytes
  | .json, n => Json.encode n
  | .pack, n => Pack.encode n

/-- Whether a format has a form for everything in a tree. -/
def Carries : Format → Node → Prop
  | .json, n => Json.Printable n
  | .pack, n => Pack.Packable Pack.room n

/-- What is read where a tree was written. In JSON a floating point number is read from its
decimal. -/
def echo : Format → Node → Node
  | .json, n => Json.echo n
  | .pack, n => n

theorem node?_octets (carried : f.Carries n) : f.node? (f.octets n) = some (f.echo n) := by
  cases f with
  | json =>
      have read : Json.decode? (Utf8.ofChars [] ++ Json.encode n ++ Utf8.ofChars []) =
          some (Json.echo n) := Json.decode?_encode carried nofun nofun
      rw [Utf8.ofChars_nil, List.nil_append, List.append_nil] at read
      exact read
  | pack =>
      have read := Pack.node?_encode Pack.room [] carried
      rw [List.append_nil] at read
      exact congrArg (Option.map Prod.fst) read

theorem echo_ofEntries :
    f.echo (.ofEntries entries) = .ofEntries (entries.map fun e => (e.1, f.echo e.2)) := by
  cases f with
  | json =>
      refine congrArg Node.map ?_
      induction entries with
      | nil => rfl
      | cons first rest ih => exact congrArg (_ :: ·) ih
  | pack => exact congrArg Node.ofEntries (List.map_id' entries).symm

/-- No field holds a floating point number. -/
theorem echo_entries (p : Payload) : ∀ e ∈ p.entries, f.echo e.2 = e.2 := by
  cases f with
  | json =>
      have text (s : Option String) :
          Json.echo (Payload.ofTextOption s) = Payload.ofTextOption s := by
        cases s <;> rfl
      cases p with
      | value | u32 | i64 | text => exact nofun
      | order | upload | shipping | noted => simp [Payload.entries, echo, Json.echo, text]
      | task id note => cases note <;> simp [Payload.entries, echo, Json.echo]
  | pack => exact fun _ _ => rfl

/-- A tree is read as a structure from the entries as they come back. -/
theorem decode_octets (carried : f.Carries (.ofEntries entries)) (s : Schema) :
    f.decode s (f.octets (.ofEntries entries)) =
      match Payload.ofNode? f.depth s (.ofEntries (entries.map fun e => (e.1, f.echo e.2))) with
      | some p => .ok p
      | none => .error (.decode none) := by
  rewrite [decode, node?_octets carried, echo_ofEntries, Option.bind_some]
  rfl

theorem decode_of_perm (carried : f.Carries (.ofEntries entries)) {p : Payload}
    (structured : p.schema.fields ≠ []) (fields extra : List (String × Node))
    (whole : fields = p.entries ∨ fields = p.held) (unknown : ∀ e ∈ extra, e.1 ∉ p.schema.names)
    (perm : entries.Perm (fields ++ extra)) :
    f.decode p.schema (f.octets (.ofEntries entries)) = .ok p := by
  have part : fields.Sublist p.entries := by
    obtain rfl | rfl := whole
    · exact .refl _
    · exact p.held_sublist
  have once (name : String) : (valuesOf name fields).length ≤ 1 := by
    have distinct := ((part.map Prod.fst).trans p.entries_sublist_names).nodup p.schema.names_nodup
    rw [length_valuesOf]
    exact List.nodup_iff_count_le_one.mp distinct name
  have same : ∀ name ∈ p.schema.names,
      valuesOf name (entries.map fun e => (e.1, f.echo e.2)) = valuesOf name fields := by
    intro name mem
    have none' : valuesOf name extra = [] := by
      refine valuesOf_eq_nil_iff.mpr fun mem' => ?_
      obtain ⟨e, added, rfl⟩ := List.mem_map.mp mem'
      exact unknown e added mem
    have only : valuesOf name (fields ++ extra) = valuesOf name fields := by
      rw [valuesOf_append, none', List.append_nil]
    have unchanged : fields.map (fun e => (e.1, f.echo e.2)) = fields.map id :=
      List.map_congr_left fun e mem => Prod.ext rfl (echo_entries p e (part.subset mem))
    calc valuesOf name (entries.map fun e => (e.1, f.echo e.2))
      _ = (valuesOf name entries).map f.echo := valuesOf_map f.echo
      _ = (valuesOf name fields).map f.echo := by
          rw [valuesOf_perm perm (only ▸ once name), only]
      _ = valuesOf name (fields.map fun e => (e.1, f.echo e.2)) := (valuesOf_map f.echo).symm
      _ = valuesOf name fields := by rw [unchanged, List.map_id]
  rw [decode_octets carried, Payload.ofNode?_congr structured same]
  obtain ⟨all, held⟩ := Payload.ofNode?_entries structured f.depth
  obtain rfl | rfl := whole
  · rw [all]
  · rw [held]

theorem decode_refuses (carried : f.Carries (.ofEntries entries)) {s : Schema}
    (structured : s.fields ≠ [])
    (wrong : (∃ name ∈ s.required, name ∉ entries.map Prod.fst) ∨
      ∃ name ∈ s.names, 2 ≤ (entries.map Prod.fst).count name) :
    f.decode s (f.octets (.ofEntries entries)) = .error (.decode none) := by
  rw [decode_octets carried]
  obtain ⟨name, mem, missing⟩ | ⟨name, mem, twice⟩ := wrong
  · have none' : valuesOf name (entries.map fun e => (e.1, f.echo e.2)) = [] := by
      rw [valuesOf_map, valuesOf_eq_nil_iff.mpr missing, List.map_nil]
    rw [Payload.ofNode?_of_missing mem none']
  · have two : 2 ≤ (valuesOf name (entries.map fun e => (e.1, f.echo e.2))).length := by
      rw [valuesOf_map, List.length_map, length_valuesOf]
      exact twice
    rw [Payload.ofNode?_of_twice structured mem two]

theorem printable_ofEntries (values : ∀ e ∈ entries, Json.Printable e.2) :
    Json.Printable (.ofEntries entries) :=
  .map (List.forall_mem_map.mpr fun e _ => ⟨e.1, rfl⟩) (List.forall_mem_map.mpr values)

theorem packable_ofEntries {depth : Nat} (few : entries.length < 2 ^ 32)
    (keys : ∀ e ∈ entries, isShort e.1 = true) (values : ∀ e ∈ entries, Pack.Packable depth e.2) :
    Pack.Packable (depth + 1) (.ofEntries entries) :=
  .map (by rwa [List.length_map])
    (List.forall_mem_map.mpr fun e mem => Pack.packable_text (keys e mem))
    (List.forall_mem_map.mpr values)

/-- Every format carries a structure whose texts it carries. -/
theorem carries_toNode {p : Payload} (packable : p.isPackable = true) (plain : p.isPlain = true) :
    f.Carries p.toNode := by
  cases f with
  | json => exact (Payload.printable_toNode plain).1
  | pack => exact Payload.packable_toNode packable

/-- A structure is written as the map of its fields. From a map it is read by the names of its
fields, in whatever order they stand and whatever else is in the map; of the fields that may be
missing, those that hold nothing may be left out. A map that lacks a field which may not be
missing, or has a field twice, is refused. So a number with a note is read as an order, and an
order as a number without a note. -/
theorem structures_read_by_name (f : Format) :
    (∀ p : Payload, p.schema.fields ≠ [] → f.encode p = f.octets (.ofEntries p.entries)) ∧
    (∀ entries, f.Carries (.ofEntries entries) →
      (∀ p : Payload, p.schema.fields ≠ [] → ∀ fields extra,
        fields = p.entries ∨ fields = p.held → (∀ e ∈ extra, e.1 ∉ p.schema.names) →
        entries.Perm (fields ++ extra) →
        f.decode p.schema (f.octets (.ofEntries entries)) = .ok p) ∧
      ∀ s : Schema, s.fields ≠ [] →
        (∃ name ∈ s.required, name ∉ entries.map Prod.fst) ∨
          (∃ name ∈ s.names, 2 ≤ (entries.map Prod.fst).count name) →
        f.decode s (f.octets (.ofEntries entries)) = .error (.decode none)) ∧
    (∀ id note, f.Carries (Payload.noted id note).toNode →
      f.decode .order (f.encode (.noted id note)) = .ok (.order id)) ∧
    ∀ id, f.decode .noted (f.encode (.order id)) = .ok (.noted id none) := by
  have written (p : Payload) (structured : p.schema.fields ≠ []) :
      f.encode p = f.octets (.ofEntries p.entries) := by
    rw [← Payload.toNode_eq_ofEntries structured]
    cases f <;> rfl
  refine ⟨written, fun entries carried => ⟨?_, ?_⟩, fun id note carried => ?_, fun id => ?_⟩
  · intro p structured fields extra whole unknown perm
    exact decode_of_perm carried structured fields extra whole unknown perm
  · intro s structured wrong
    exact decode_refuses carried structured wrong
  · have unknown : ∀ e ∈ [("note", Payload.ofTextOption note)], e.1 ∉ Schema.order.names :=
      List.forall_mem_singleton.mpr (by simp [Schema.names, Schema.fields])
    rw [written (.noted id note) (List.cons_ne_nil _ _)]
    exact decode_of_perm (p := .order id) carried (List.cons_ne_nil _ _) _ _ (.inl rfl) unknown
      (.refl _)
  · have carried : f.Carries (Payload.order id).toNode := carries_toNode rfl rfl
    rw [written (.order id) (List.cons_ne_nil _ _)]
    exact decode_of_perm (p := .noted id none) carried (List.cons_ne_nil _ _) _ [] (.inr rfl) nofun
      (.refl _)

/-- What is attached to a parcel: a list with a record that has a field of the parcel. -/
def attachment : Node :=
  .seq [.ofEntries [("packed", .float 0x3FF8000000000000)], .int (.negSucc 4)]

/-- A parcel written by someone who knows more fields, in another order. -/
def parcel : List (String × Node) :=
  [("carrier", .text "north"), ("attachment", attachment), ("packed", .bool true),
    ("attachment", .null)]

theorem carries_parcel (f : Format) : f.Carries (.ofEntries parcel) := by
  cases f with
  | json =>
      have inside : Json.Printable (.ofEntries [("packed", .float 0x3FF8000000000000)]) :=
        printable_ofEntries (List.forall_mem_singleton.mpr (.float _))
      have attached : Json.Printable attachment :=
        .seq (List.forall_mem_cons.mpr ⟨inside, List.forall_mem_singleton.mpr (.int (by decide))⟩)
      refine printable_ofEntries ?_
      simp [parcel, attached, Json.Printable.text, Json.Printable.bool, Json.Printable.null]
  | pack =>
      have inside (depth : Nat) :
          Pack.Packable (depth + 1) (.ofEntries [("packed", .float 0x3FF8000000000000)]) :=
        packable_ofEntries (by decide) (by decide) (List.forall_mem_singleton.mpr (.float _ _))
      have attached (depth : Nat) : Pack.Packable (depth + 2) attachment :=
        .seq (by decide) (List.forall_mem_cons.mpr
          ⟨inside depth, List.forall_mem_singleton.mpr (.int _ (by decide))⟩)
      refine packable_ofEntries (by decide) (by decide) ?_
      have north (depth : Nat) : Pack.Packable depth (.text "north") :=
        Pack.packable_text (by decide)
      simp [parcel, attached, north, Pack.Packable.bool, Pack.Packable.null]

theorem structures_read_by_name_parcel :
    Format.json.Carries (.ofEntries parcel) ∧ Format.pack.Carries (.ofEntries parcel) ∧
    Format.json.decode .shipping (Format.json.octets (.ofEntries parcel)) =
      .ok (.shipping true (some "north")) ∧
    Format.pack.decode .shipping (Format.pack.octets (.ofEntries parcel)) =
      .ok (.shipping true (some "north")) ∧
    Format.json.decode .order (Format.json.octets (.ofEntries parcel)) = .error (.decode none) ∧
    Format.pack.decode .order (Format.pack.encode (.noted 7 (some "late"))) = .ok (.order 7) := by
  obtain ⟨-, json, -⟩ := structures_read_by_name .json
  obtain ⟨-, pack, newer, -⟩ := structures_read_by_name .pack
  obtain ⟨read, refuse⟩ := json parcel (carries_parcel .json)
  obtain ⟨read', -⟩ := pack parcel (carries_parcel .pack)
  let sent : Payload := .shipping true (some "north")
  let extra : List (String × Node) := [("attachment", attachment), ("attachment", .null)]
  have perm : parcel.Perm (sent.entries ++ extra) :=
    .trans (.cons _ (.swap ..)) (.swap ..)
  have unknown : ∀ e ∈ extra, e.1 ∉ sent.schema.names := by
    simp [extra, sent, Payload.schema, Schema.names, Schema.fields]
  have lost : ∃ name ∈ Schema.order.required, name ∉ parcel.map Prod.fst :=
    ⟨"id", List.mem_singleton.mpr rfl, by decide⟩
  exact ⟨carries_parcel .json, carries_parcel .pack,
    read sent (List.cons_ne_nil _ _) _ _ (.inl rfl) unknown perm,
    read' sent (List.cons_ne_nil _ _) _ _ (.inl rfl) unknown perm,
    refuse .order (List.cons_ne_nil _ _) (.inl lost),
    newer 7 (some "late") (carries_toNode (by decide) rfl)⟩

end Format

end Courier
