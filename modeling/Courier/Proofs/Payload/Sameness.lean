import Courier.Proofs.Entries
import Courier.Proofs.Payload.Values

/-!
# When two values are the same

A record means a map from keys to values. `Value.Same` says when two values are the same in this
sense, without any order: their records have the same keys, and the last value that a key was given
is the same. Values that are the same have one normal form (`Same.normal_eq`), and a value and its
normal form are the same (`same_normal`).
-/

namespace Courier

/-! ## The entries that count -/

section

variable {α : Type}

/-- Adding an entry to a map replaces the one of its key. -/
theorem mem_insertField_iff {key : String} {value : α} {fields : List (String × α)}
    (sorted : Sorted fields) {e : String × α} :
    e ∈ insertField key value fields ↔ e = (key, value) ∨ e ∈ fields ∧ e.1 ≠ key := by
  induction fields with
  | nil => simp [insertField]
  | cons first rest ih =>
      obtain ⟨k, v⟩ := first
      obtain ⟨before, rest_sorted⟩ := List.pairwise_cons.mp sorted
      have irrefl := String.lt_irrefl key
      have trans : ∀ e ∈ rest, key < k → key < e.1 := fun e mem lt =>
        String.lt_trans lt (before e mem)
      rw [insertField]
      split
      · grind
      · split
        · grind
        · grind [ih rest_sorted]

theorem sortFields_concat (fields : List (String × α)) (e : String × α) :
    sortFields (fields ++ [e]) = insertField e.1 e.2 (sortFields fields) := by
  simp [sortFields]

/-- Sorting keeps the last value of each key. -/
theorem mem_sortFields_iff {fields : List (String × α)} {e : String × α} :
    e ∈ sortFields fields ↔ latest? e.1 fields = some e.2 := by
  induction fields using List.reverseRecOn with
  | nil => simp [sortFields, latest?]
  | append_singleton fields last ih =>
      rw [sortFields_concat, mem_insertField_iff (sorted_sortFields fields), ih, latest?_concat]
      split
      · rename_i same
        grind
      · grind

@[simp] theorem latest?_sortFields (key : String) (fields : List (String × α)) :
    latest? key (sortFields fields) = latest? key fields := by
  refine Option.ext fun value => ?_
  rw [← mem_sortFields_iff (e := (key, value)), sortFields_sortFields, mem_sortFields_iff]

/-- Entries in the order of their keys are told apart by what they are. -/
theorem Sorted.ext {fields others : List (String × α)} (sorted : Sorted fields)
    (sorted' : Sorted others) (same : ∀ e, e ∈ fields ↔ e ∈ others) : fields = others := by
  have apart (a b : String × α) (lt : a.1 < b.1) (same : a = b) : False :=
    String.lt_irrefl b.1 (same ▸ lt)
  have distinct {fields : List (String × α)} (sorted : Sorted fields) : fields.Nodup :=
    List.Pairwise.imp (apart _ _) sorted
  have perm := (List.perm_ext_iff_of_nodup (distinct sorted) (distinct sorted')).mpr same
  exact perm.eq_of_pairwise (fun a b _ _ lt gt => absurd gt (String.lt_asymm lt)) sorted sorted'

end

/-! ## Values -/

namespace Value

/-- Two values that are the same where records mean maps: a key counts once, with the last value
it was given, and keys have no order. -/
inductive Same : Value → Value → Prop where
  | null : Same .null .null
  | bool (b : Bool) : Same (.bool b) (.bool b)
  | int (n : Int) : Same (.int n) (.int n)
  | float (bits : UInt64) : Same (.float bits) (.float bits)
  | text (s : String) : Same (.text s) (.text s)
  | list {items others : List Value} :
      items.length = others.length →
      (∀ (i : Nat) (v w : Value), items[i]? = some v → others[i]? = some w → Same v w) →
      Same (.list items) (.list others)
  | record {fields others : List (String × Value)} :
      (∀ key, (latest? key fields).isSome = (latest? key others).isSome) →
      (∀ key v w, latest? key fields = some v → latest? key others = some w → Same v w) →
      Same (.record fields) (.record others)

theorem normal_list (items : List Value) : normal (.list items) = .list (items.map normal) := by
  rw [normal, normalItems_eq]

theorem normal_record (fields : List (String × Value)) :
    normal (.record fields) =
      .record (sortFields (fields.map fun e => (e.1, e.2.normal))) := by
  rw [normal, normalFields_eq]

theorem sortFields_congr {fields others : List (String × Value)}
    (same : ∀ key, latest? key fields = latest? key others) :
    sortFields fields = sortFields others := by
  refine (sorted_sortFields fields).ext (sorted_sortFields others) fun e => ?_
  rw [mem_sortFields_iff, mem_sortFields_iff, same]

theorem map_normal_congr {a b : Option Value} (some' : a.isSome = b.isSome)
    (each : ∀ v w, a = some v → b = some w → v.normal = w.normal) :
    a.map normal = b.map normal := by
  cases a with
  | none =>
      cases b with
      | none => rfl
      | some w => exact nomatch some'
  | some v =>
      obtain ⟨w, rfl⟩ := Option.isSome_iff_exists.mp some'.symm
      exact congrArg some (each v w rfl rfl)

/-- Of values that are the same there is one normal form. -/
theorem Same.normal_eq {v w : Value} (same : v.Same w) : v.normal = w.normal := by
  induction same with
  | null | bool | int | float | text => rfl
  | @list items others long _ ih =>
      rw [normal_list, normal_list]
      refine congrArg Value.list (List.ext_getElem? fun i => ?_)
      rw [List.getElem?_map, List.getElem?_map]
      exact map_normal_congr (by grind) (ih i)
  | @record fields others some' _ ih =>
      rw [normal_record, normal_record]
      refine congrArg Value.record (sortFields_congr fun key => ?_)
      rw [latest?_map, latest?_map]
      exact map_normal_congr (some' key) (ih key)

theorem same_normal (v : Value) : v.Same v.normal := by
  induction v with
  | null => exact .null
  | bool b => exact .bool b
  | int n => exact .int n
  | float bits => exact .float bits
  | text s => exact .text s
  | list items ih =>
      rw [normal_list]
      refine .list (List.length_map _).symm fun i v w at' at'' => ?_
      rw [List.getElem?_map, at'] at at''
      exact Option.some.inj at'' ▸ ih v (List.mem_of_getElem? at')
  | record fields ih =>
      rw [normal_record]
      refine .record (fun key => ?_) fun key v w at' at'' => ?_
      · rw [latest?_sortFields, latest?_map, Option.isSome_map]
      · rw [latest?_sortFields, latest?_map, at'] at at''
        have mem := mem_of_mem_sortFields (mem_sortFields_iff (e := (key, v)).mpr at')
        exact Option.some.inj at'' ▸ ih _ mem

end Value
end Courier
