import Courier.Payload.Schema
import Mathlib.Data.List.Basic

/-!
# Fields by name

A structure is read from a map by the names of its fields. What is found for a name are the values
of the entries with that name (`valuesOf`), and nothing else of the map counts: not the order of
its entries, nor entries of other names (`slots?_eq_some_iff`). A name that two entries have is
refused.
-/

namespace Courier

/-- The values of the entries with a name. -/
def valuesOf {α : Type} (name : String) (entries : List (String × α)) : List α :=
  (entries.filter fun e => e.1 == name).map Prod.snd

section

variable {α β : Type} {name key : String} {entries others : List (String × α)}

@[simp] theorem valuesOf_nil : valuesOf name ([] : List (String × α)) = [] := rfl

theorem valuesOf_cons_self (value : α) :
    valuesOf name ((name, value) :: entries) = value :: valuesOf name entries := by
  simp [valuesOf]

theorem valuesOf_cons_ne (other : key ≠ name) (value : α) :
    valuesOf name ((key, value) :: entries) = valuesOf name entries := by
  simp [valuesOf, other]

theorem valuesOf_append :
    valuesOf name (entries ++ others) = valuesOf name entries ++ valuesOf name others := by
  simp [valuesOf]

theorem valuesOf_eq_nil_iff : valuesOf name entries = [] ↔ name ∉ entries.map Prod.fst := by
  rw [valuesOf, List.map_eq_nil_iff, List.filter_eq_nil_iff]
  simp only [beq_iff_eq, List.mem_map, not_exists, not_and]

theorem length_valuesOf : (valuesOf name entries).length = (entries.map Prod.fst).count name := by
  rw [valuesOf, List.length_map, List.count, List.countP_map, List.countP_eq_length_filter]
  rfl

theorem valuesOf_map (f : α → β) :
    valuesOf name (entries.map fun e => (e.1, f e.2)) = (valuesOf name entries).map f := by
  rw [valuesOf, valuesOf, List.filter_map, List.map_map, List.map_map]
  rfl

/-- The order of the entries does not count for a name that at most one of them has. -/
theorem valuesOf_perm (perm : entries.Perm others) (few : (valuesOf name others).length ≤ 1) :
    valuesOf name entries = valuesOf name others := by
  have same : (valuesOf name entries).Perm (valuesOf name others) :=
    (perm.filter _).map Prod.snd
  match others' : valuesOf name others, few with
  | [], _ => exact List.perm_nil.mp (others' ▸ same)
  | [v], _ => exact List.perm_singleton.mp (others' ▸ same)

end

namespace Node

/-- The tree of a map whose keys are texts. -/
def ofEntries (entries : List (String × Node)) : Node :=
  .map (entries.map fun e => (.text e.1, e.2))

variable {names : List String} {entries : List (String × Node)} {slots found : List (Option Node)}

/-- What each slot holds and what the entries of its name hold, taken together. -/
def offers (names : List String) (slots : List (Option Node)) (entries : List (String × Node)) :
    List (List Node) :=
  List.zipWith (fun slot name => slot.toList ++ valuesOf name entries) slots names

theorem offers_nil (long : slots.length = names.length) :
    offers names slots [] = slots.map Option.toList := by
  refine List.ext_getElem (by simp [offers, long]) fun j inside _ => ?_
  simp only [offers, List.getElem_zipWith, List.getElem_map, valuesOf_nil, List.append_nil]

theorem offers_of_unknown {key : String} (unknown : key ∉ names) (value : Node) :
    offers names slots ((key, value) :: entries) = offers names slots entries := by
  refine List.ext_getElem? fun j => ?_
  rw [offers, offers, List.getElem?_zipWith, List.getElem?_zipWith]
  cases at' : names[j]? with
  | none => cases slots[j]? <;> rfl
  | some name =>
      have other : key ≠ name := fun same => unknown (same ▸ List.mem_of_getElem? at')
      cases slots[j]? with
      | none => rfl
      | some slot => exact congrArg (fun vs => some (slot.toList ++ vs)) (valuesOf_cons_ne other _)

/-- A value that is put into its slot is no longer among the entries. -/
theorem offers_set (distinct : names.Nodup) {i : Nat} {key : String} (at' : names[i]? = some key)
    (free : slots[i]? = some none) (value : Node) :
    offers names (slots.set i (some value)) entries =
      offers names slots ((key, value) :: entries) := by
  refine List.ext_getElem? fun j => ?_
  rw [offers, offers, List.getElem?_zipWith, List.getElem?_zipWith]
  by_cases here : i = j
  · subst here
    obtain ⟨inside, -⟩ := List.getElem?_eq_some_iff.mp free
    simp only [List.getElem?_set_self inside, at', free, valuesOf_cons_self]
    rfl
  · rw [List.getElem?_set_ne here]
    cases at'' : names[j]? with
    | none => cases slots[j]? <;> rfl
    | some name =>
        obtain ⟨inside, -⟩ := List.getElem?_eq_some_iff.mp at'
        have other : key ≠ name := fun same =>
          here ((List.getElem?_inj inside distinct).mp (at'.trans (same ▸ at''.symm)))
        cases slots[j]? with
        | none => rfl
        | some slot =>
            exact congrArg (fun vs => some (slot.toList ++ vs)) (valuesOf_cons_ne other _).symm

theorem toList_injective : Function.Injective (Option.toList : Option Node → List Node) := by
  intro a b same
  cases a <;> cases b <;> simp_all

/-- A slot that is taken and an entry of its name are two values for one field. -/
theorem offers_of_taken {i : Nat} {key : String} (at' : names[i]? = some key) {old : Node}
    (taken : slots[i]? = some (some old)) (value : Node) :
    found.map Option.toList ≠ offers names slots ((key, value) :: entries) := by
  intro same
  have two : (offers names slots ((key, value) :: entries))[i]? =
      some (old :: value :: valuesOf key entries) := by
    rw [offers, List.getElem?_zipWith, at', taken]
    exact congrArg (fun vs => some (old :: vs)) (valuesOf_cons_self value)
  rw [← same, List.getElem?_map] at two
  obtain ⟨slot, -, many⟩ := Option.map_eq_some_iff.mp two
  cases slot with
  | none => exact nomatch many
  | some one => exact nomatch (List.cons.inj many).2

/-- A map is read slot by slot: a slot and the entries of its name hold one value at most, and that
stands in the slot afterwards. -/
theorem collect?_eq_some_iff (distinct : names.Nodup) (long : slots.length = names.length) :
    collect? names (entries.map fun e => (.text e.1, e.2)) slots = some found ↔
      found.map Option.toList = offers names slots entries := by
  induction entries generalizing slots with
  | nil =>
      rw [offers_nil long, (List.map_injective_iff.mpr toList_injective).eq_iff, eq_comm]
      exact Option.some_inj
  | cons first entries ih =>
      obtain ⟨key, value⟩ := first
      rw [List.map_cons, collect?, toKey?]
      cases index : names.findIdx? (· == key) with
      | none =>
          have unknown : key ∉ names := fun mem =>
            absurd (List.findIdx?_eq_none_iff.mp index key mem) (by simp)
          rw [offers_of_unknown unknown]
          exact ih long
      | some i =>
          obtain ⟨inside, matches', -⟩ := List.findIdx?_eq_some_iff_getElem.mp index
          have at' : names[i]? = some key := by
            rw [List.getElem?_eq_getElem inside, beq_iff_eq.mp matches']
          simp only [toKey?.named]
          match slot : slots[i]? with
          | some none =>
              rw [← offers_set distinct at' slot value]
              exact ih ((List.length_set).trans long)
          | some (some old) =>
              exact iff_of_false nofun (offers_of_taken at' slot value)
          | none =>
              exact absurd (List.getElem?_eq_none_iff.mp slot) (by omega)

theorem slots?_eq_some_iff (distinct : names.Nodup) {spare : Nat} :
    slots? names spare (ofEntries entries) = some found ↔
      found.map Option.toList = names.map fun name => valuesOf name entries := by
  have fresh : offers names (names.map fun _ => none) entries =
      names.map fun name => valuesOf name entries := by
    refine List.ext_getElem (by simp [offers]) fun j _ _ => ?_
    simp only [offers, List.getElem_zipWith, List.getElem_map]
    rfl
  rw [ofEntries, slots?, collect?_eq_some_iff distinct (List.length_map _), fresh]

/-- Only the entries of the names count. -/
theorem slots?_congr (distinct : names.Nodup) {others : List (String × Node)} {spare : Nat}
    (same : ∀ name ∈ names, valuesOf name entries = valuesOf name others) :
    slots? names spare (ofEntries entries) = slots? names spare (ofEntries others) := by
  refine Option.ext fun found => ?_
  rw [slots?_eq_some_iff distinct, slots?_eq_some_iff distinct, List.map_congr_left same]

/-- A map in which a name occurs twice is refused. -/
theorem slots?_of_twice (distinct : names.Nodup) {name : String} (mem : name ∈ names)
    (twice : 2 ≤ (valuesOf name entries).length) {spare : Nat} :
    slots? names spare (ofEntries entries) = none := by
  refine Option.eq_none_iff_forall_ne_some.mpr fun found read => ?_
  have same := (slots?_eq_some_iff distinct).mp read
  have some' : valuesOf name entries ∈ found.map Option.toList :=
    same ▸ List.mem_map_of_mem mem
  obtain ⟨slot, -, one⟩ := List.mem_map.mp some'
  rw [← one] at twice
  cases slot <;> simp at twice

/-- The slot of a first name that no entry has stays empty. -/
theorem exists_slots_of_missing {name : String} (distinct : (name :: names).Nodup)
    (missing : valuesOf name entries = []) {spare : Nat}
    (read : slots? (name :: names) spare (ofEntries entries) = some found) :
    ∃ rest, found = none :: rest := by
  have same := (slots?_eq_some_iff distinct).mp read
  rw [List.map_cons, missing] at same
  match found, same with
  | none :: rest, _ => exact ⟨rest, rfl⟩

end Node

end Courier
