import Courier.Payload.Node

/-!
# Values and their trees

A record means a map, so of a value in hand only its normal form counts: records sorted by key, one
entry for each key. `normal_normal` says that a normal form is one of its own. The tree of a value
is read back as the normal form of the value, as long as its containers do not stand too deep inside
each other (`toValue?_ofValue`).

Values are nested in lists, so proofs about them go by `Value.induction`.
-/

namespace Courier

/-! ## Entries in the order of their keys -/

section

variable {α β : Type}

/-- Entries in strictly increasing order of their keys. -/
def Sorted (fields : List (String × α)) : Prop := fields.Pairwise fun a b => a.1 < b.1

theorem mem_insertField {key : String} {value : α} {fields : List (String × α)}
    {e : String × α} (mem : e ∈ insertField key value fields) : e = (key, value) ∨ e ∈ fields := by
  induction fields with
  | nil => exact .inl (List.mem_singleton.mp mem)
  | cons first rest ih =>
      simp only [insertField] at mem
      split at mem
      · exact (List.mem_cons.mp mem)
      · split at mem
        · obtain new | old := List.mem_cons.mp mem
          · exact .inl new
          · exact .inr (List.mem_cons_of_mem _ old)
        · obtain same | later := List.mem_cons.mp mem
          · exact .inr (same ▸ List.mem_cons_self)
          · exact (ih later).imp_right (List.mem_cons_of_mem _)

theorem Sorted.insertField {fields : List (String × α)} (sorted : Sorted fields) (key : String)
    (value : α) : Sorted (insertField key value fields) := by
  induction fields with
  | nil => exact List.pairwise_singleton ..
  | cons first rest ih =>
      obtain ⟨k, v⟩ := first
      obtain ⟨before, rest_sorted⟩ := List.pairwise_cons.mp sorted
      simp only [Courier.insertField]
      split
      · rename_i lt
        refine List.pairwise_cons.mpr ⟨fun e mem => ?_, sorted⟩
        obtain rfl | later := List.mem_cons.mp mem
        · exact lt
        · exact String.lt_trans lt (before e later)
      · rename_i not_lt
        split
        · rename_i same
          subst same
          exact List.pairwise_cons.mpr ⟨before, rest_sorted⟩
        · rename_i other
          have lt : k < key := Std.lt_of_le_of_ne (String.not_lt.mp not_lt) (Ne.symm other)
          refine List.pairwise_cons.mpr ⟨fun e mem => ?_, ih rest_sorted⟩
          obtain rfl | old := mem_insertField mem
          · exact lt
          · exact before e old

/-- An entry that comes after all others is added at the end. -/
theorem insertField_of_last {fields : List (String × α)} {key : String} (value : α)
    (last : ∀ e ∈ fields, e.1 < key) : insertField key value fields = fields ++ [(key, value)] := by
  induction fields with
  | nil => rfl
  | cons first rest ih =>
      have lt : first.1 < key := last first List.mem_cons_self
      have other : key ≠ first.1 := fun same => String.lt_irrefl _ (same ▸ lt)
      rw [insertField, if_neg (String.lt_asymm lt), if_neg other,
        ih fun e mem => last e (List.mem_cons_of_mem _ mem)]
      rfl

/-- Entries put one after the other among others. -/
def insertFields (sorted fields : List (String × α)) : List (String × α) :=
  fields.foldl (fun sorted e => insertField e.1 e.2 sorted) sorted

theorem insertFields_cons (sorted : List (String × α)) (e : String × α)
    (fields : List (String × α)) :
    insertFields sorted (e :: fields) = insertFields (insertField e.1 e.2 sorted) fields := rfl

theorem Sorted.insertFields {sorted : List (String × α)} (start : Sorted sorted)
    (fields : List (String × α)) : Sorted (insertFields sorted fields) := by
  induction fields generalizing sorted with
  | nil => exact start
  | cons first rest ih => exact ih (start.insertField first.1 first.2)

theorem sorted_sortFields (fields : List (String × α)) : Sorted (sortFields fields) :=
  Sorted.insertFields List.Pairwise.nil fields

theorem mem_insertFields {sorted fields : List (String × α)} {e : String × α}
    (mem : e ∈ insertFields sorted fields) : e ∈ fields ∨ e ∈ sorted := by
  induction fields generalizing sorted with
  | nil => exact .inr mem
  | cons first rest ih =>
      obtain later | before := ih mem
      · exact .inl (List.mem_cons_of_mem _ later)
      · obtain rfl | old := mem_insertField before
        · exact .inl List.mem_cons_self
        · exact .inr old

theorem mem_of_mem_sortFields {fields : List (String × α)} {e : String × α}
    (mem : e ∈ sortFields fields) : e ∈ fields := by
  simpa using mem_insertFields mem

theorem length_insertField (key : String) (value : α) (fields : List (String × α)) :
    (insertField key value fields).length ≤ fields.length + 1 := by
  induction fields with
  | nil => simp [insertField]
  | cons first rest ih =>
      simp only [insertField]
      split
      · simp
      · split
        · simp
        · simpa using ih

theorem length_insertFields (sorted fields : List (String × α)) :
    (insertFields sorted fields).length ≤ fields.length + sorted.length := by
  induction fields generalizing sorted with
  | nil => simp [insertFields]
  | cons first rest ih =>
      have one := length_insertField first.1 first.2 sorted
      have all := ih (insertField first.1 first.2 sorted)
      rw [insertFields_cons, List.length_cons]
      omega

theorem length_sortFields (fields : List (String × α)) :
    (sortFields fields).length ≤ fields.length :=
  length_insertFields [] fields

theorem insertFields_of_sorted {sorted fields : List (String × α)}
    (whole : Sorted (sorted ++ fields)) : insertFields sorted fields = sorted ++ fields := by
  induction fields generalizing sorted with
  | nil => simp [insertFields]
  | cons first rest ih =>
      have last : ∀ e ∈ sorted, e.1 < first.1 := fun e mem =>
        (List.pairwise_append.mp whole).2.2 e mem first List.mem_cons_self
      rw [List.append_cons] at whole ⊢
      rw [insertFields_cons, insertField_of_last first.2 last]
      exact ih whole

/-- Sorting what is sorted changes nothing. -/
theorem sortFields_of_sorted {fields : List (String × α)} (sorted : Sorted fields) :
    sortFields fields = fields :=
  insertFields_of_sorted sorted

@[simp] theorem sortFields_sortFields (fields : List (String × α)) :
    sortFields (sortFields fields) = sortFields fields :=
  sortFields_of_sorted (sorted_sortFields fields)

/-- Sorting looks at keys only. -/
theorem insertField_map (f : α → β) (key : String) (value : α) (fields : List (String × α)) :
    insertField key (f value) (fields.map fun e => (e.1, f e.2)) =
      (insertField key value fields).map fun e => (e.1, f e.2) := by
  induction fields with
  | nil => rfl
  | cons first rest ih =>
      simp only [insertField, List.map_cons]
      split
      · rfl
      · split
        · rfl
        · rw [ih, List.map_cons]

theorem insertFields_map (f : α → β) (sorted fields : List (String × α)) :
    insertFields (sorted.map fun e => (e.1, f e.2)) (fields.map fun e => (e.1, f e.2)) =
      (insertFields sorted fields).map fun e => (e.1, f e.2) := by
  induction fields generalizing sorted with
  | nil => rfl
  | cons first rest ih =>
      have one := insertField_map f first.1 first.2 sorted
      rw [List.map_cons, insertFields_cons, insertFields_cons, ← ih, ← one]

theorem sortFields_map (f : α → β) (fields : List (String × α)) :
    sortFields (fields.map fun e => (e.1, f e.2)) =
      (sortFields fields).map fun e => (e.1, f e.2) :=
  insertFields_map f [] fields

end

/-! ## Values -/

namespace Value

/-- What holds of a list or a record as soon as it holds of everything in it holds of every
value. -/
@[elab_as_elim, induction_eliminator]
theorem induction {motive : Value → Prop} (null : motive .null) (bool : ∀ b, motive (.bool b))
    (int : ∀ n, motive (.int n)) (float : ∀ bits, motive (.float bits))
    (text : ∀ s, motive (.text s))
    (list : ∀ items, (∀ v ∈ items, motive v) → motive (.list items))
    (record : ∀ fields, (∀ e ∈ fields, motive e.2) → motive (.record fields)) (v : Value) :
    motive v := by
  refine @Value.rec motive (fun items => ∀ v ∈ items, motive v)
    (fun fields => ∀ e ∈ fields, motive e.2) (fun e => motive e.2)
    null bool int float text list record (by simp) ?_ (by simp) ?_ (fun _ _ ih => ih) v
  · intro first rest ih ihs v mem
    obtain rfl | later := List.mem_cons.mp mem
    · exact ih
    · exact ihs v later
  · intro first rest ih ihs e mem
    obtain rfl | later := List.mem_cons.mp mem
    · exact ih
    · exact ihs e later

theorem normalItems_eq (items : List Value) : normalItems items = items.map normal := by
  induction items with
  | nil => rfl
  | cons first rest ih => rw [normalItems, ih, List.map_cons]

theorem normalFields_eq (fields : List (String × Value)) :
    normalFields fields = fields.map fun e => (e.1, e.2.normal) := by
  induction fields with
  | nil => rfl
  | cons first rest ih => rw [normalFields, ih, List.map_cons]

/-- A normal form is one of its own. -/
@[simp] theorem normal_normal (v : Value) : v.normal.normal = v.normal := by
  induction v with
  | null | bool | int | float | text => rfl
  | list items ih =>
      simp only [normal, normalItems_eq, List.map_map, Value.list.injEq]
      exact List.map_congr_left ih
  | record fields ih =>
      have again : (fields.map fun e => (e.1, e.2.normal)).map (fun e => (e.1, e.2.normal)) =
          fields.map fun e => (e.1, e.2.normal) := by
        rw [List.map_map]
        exact List.map_congr_left fun e mem => congrArg (e.1, ·) (ih e mem)
      simp only [normal, normalFields_eq, Value.record.injEq]
      rw [← sortFields_map, again, sortFields_sortFields]

/-! ## Depth -/

mutual

/-- How many containers stand inside each other. -/
def depth : Value → Nat
  | .list items => depthItems items + 1
  | .record fields => depthFields fields + 1
  | _ => 0

def depthItems : List Value → Nat
  | [] => 0
  | v :: rest => max v.depth (depthItems rest)

def depthFields : List (String × Value) → Nat
  | [] => 0
  | (_, v) :: rest => max v.depth (depthFields rest)

end

theorem depth_le_items {items : List Value} {v : Value} (mem : v ∈ items) :
    v.depth ≤ depthItems items := by
  induction items with
  | nil => simp at mem
  | cons first rest ih =>
      rw [depthItems]
      obtain rfl | later := List.mem_cons.mp mem
      · exact Nat.le_max_left ..
      · exact Nat.le_trans (ih later) (Nat.le_max_right ..)

theorem depth_le_fields {fields : List (String × Value)} {e : String × Value} (mem : e ∈ fields) :
    e.2.depth ≤ depthFields fields := by
  induction fields with
  | nil => simp at mem
  | cons first rest ih =>
      rw [depthFields]
      obtain rfl | later := List.mem_cons.mp mem
      · exact Nat.le_max_left ..
      · exact Nat.le_trans (ih later) (Nat.le_max_right ..)

end Value

/-! ## Trees of values -/

namespace Node

theorem ofItems_eq (items : List Value) : ofItems items = items.map ofValue := by
  induction items with
  | nil => rfl
  | cons first rest ih => rw [ofItems, ih, List.map_cons]

theorem ofFields_eq (fields : List (String × Value)) :
    ofFields fields = fields.map fun e => (e.1, ofValue e.2) := by
  induction fields with
  | nil => rfl
  | cons first rest ih => rw [ofFields, ih, List.map_cons]

/-- The entries of the tree of a record, in the order of their keys. -/
theorem ofValue_record (fields : List (String × Value)) :
    ofValue (.record fields) =
      .map ((sortFields fields).map fun e => (.text e.1, ofValue e.2)) := by
  rw [ofValue, ofFields_eq, sortFields_map, List.map_map]
  rfl

theorem toItems?_ofItems {d : Nat} {items : List Value}
    (each : ∀ v ∈ items, (ofValue v).toValue? d = some v.normal) :
    toItems? d (items.map ofValue) = some (items.map Value.normal) := by
  induction items with
  | nil => rfl
  | cons first rest ih =>
      have front := each first List.mem_cons_self
      have back := ih fun v mem => each v (List.mem_cons_of_mem _ mem)
      simp [toItems?, front, back]

theorem toFields?_ofFields {d : Nat} {fields : List (String × Value)}
    (each : ∀ e ∈ fields, (ofValue e.2).toValue? d = some e.2.normal) :
    toFields? d (fields.map fun e => (.text e.1, ofValue e.2)) =
      some (fields.map fun e => (e.1, e.2.normal)) := by
  induction fields with
  | nil => rfl
  | cons first rest ih =>
      have front := each first List.mem_cons_self
      have back := ih fun e mem => each e (List.mem_cons_of_mem _ mem)
      simp [toFields?, front, back]

/-- The tree of a value is read as the normal form of the value. -/
theorem toValue?_ofValue (v : Value) {d : Nat} (deep : v.depth ≤ d) :
    (ofValue v).toValue? d = some v.normal := by
  induction v generalizing d with
  | null | bool | float | text => rfl
  | int n =>
      rw [ofValue]
      split
      · rename_i positive
        simp [toValue?, Value.normal, Int.toNat_of_nonneg positive]
      · rfl
  | list items ih =>
      rw [Value.depth] at deep
      obtain _ | d := d
      · omega
      have each : ∀ v ∈ items, (ofValue v).toValue? d = some v.normal := fun v mem =>
        ih v mem (Nat.le_trans (Value.depth_le_items mem) (Nat.le_of_succ_le_succ deep))
      rw [ofValue, ofItems_eq, toValue?, toItems?_ofItems each, Value.normal,
        Value.normalItems_eq]
      rfl
  | record fields ih =>
      rw [Value.depth] at deep
      obtain _ | d := d
      · omega
      have each : ∀ e ∈ sortFields fields, (ofValue e.2).toValue? d = some e.2.normal :=
        fun e mem =>
          have old := mem_of_mem_sortFields mem
          ih e old (Nat.le_trans (Value.depth_le_fields old) (Nat.le_of_succ_le_succ deep))
      rw [ofValue_record, toValue?, toFields?_ofFields each, ← sortFields_map Value.normal,
        Option.map_some, Value.ofFields, sortFields_sortFields, Value.normal,
        Value.normalFields_eq]

end Node

end Courier
