import Mathlib.Data.List.Induction

/-!
# Entries under keys

A map is kept as a list of entries here, and looking up a key finds the first entry that has it.
Setting a key puts an entry in front and takes the old ones of the key away (`lookup_set`). A list
in which nothing was ever taken away is a history instead: the last entry of a key is the one that
counts (`latest?`).
-/

namespace Courier

section

variable {κ α β : Type} [BEq κ] [LawfulBEq κ]

theorem lookup_filter_ne (entries : List (κ × α)) {key other : κ} (ne : key ≠ other) :
    (entries.filter fun (k, _) => k != other).lookup key = entries.lookup key := by
  induction entries with
  | nil => rfl
  | cons entry rest ih =>
      obtain ⟨k, v⟩ := entry
      by_cases same : k = other
      · subst same
        have apart : (key == k) = false := beq_eq_false_iff_ne.mpr ne
        simpa [List.lookup_cons, apart] using ih
      · simp only [List.filter_cons, bne_iff_ne.mpr same, if_true, List.lookup_cons, ih]

/-- Setting a key changes what is found under it and nothing else. -/
theorem lookup_set [DecidableEq κ] (entries : List (κ × α)) (key other : κ) (value : α) :
    ((key, value) :: entries.filter fun (k, _) => k != key).lookup other =
      if key = other then some value else entries.lookup other := by
  split
  case isTrue same =>
    subst same
    exact List.lookup_cons_self
  case isFalse ne =>
    have apart : (other == key) = false := beq_eq_false_iff_ne.mpr (Ne.symm ne)
    rw [List.lookup_cons, apart]
    exact lookup_filter_ne entries (Ne.symm ne)

end

/-! ## Histories -/

section

variable {α β : Type}

/-- The last value of a key. -/
def latest? (key : String) (fields : List (String × α)) : Option α := fields.reverse.lookup key

@[simp] theorem latest?_nil (key : String) : latest? key ([] : List (String × α)) = none := rfl

theorem latest?_append (key : String) (fields more : List (String × α)) :
    latest? key (fields ++ more) = (latest? key more).or (latest? key fields) := by
  rw [latest?, List.reverse_append, List.lookup_append]
  rfl

theorem latest?_concat (key : String) (fields : List (String × α)) (e : String × α) :
    latest? key (fields ++ [e]) = if e.1 = key then some e.2 else latest? key fields := by
  rw [latest?, List.reverse_concat, List.lookup_cons]
  split
  · rename_i same
    rw [if_pos (eq_of_beq same).symm]
  · rename_i other
    rw [if_neg (Ne.symm (ne_of_beq_false other))]
    rfl

theorem latest?_singleton (key : String) (e : String × α) :
    latest? key [e] = if e.1 = key then some e.2 else none :=
  latest?_concat key [] e

theorem latest?_map (f : α → β) (key : String) (fields : List (String × α)) :
    latest? key (fields.map fun e => (e.1, f e.2)) = (latest? key fields).map f := by
  induction fields using List.reverseRecOn with
  | nil => rfl
  | append_singleton fields e ih =>
      rw [List.map_append, List.map_singleton, latest?_concat, latest?_concat, ih]
      split <;> rfl

theorem isSome_latest? {key : String} {fields : List (String × α)} :
    (latest? key fields).isSome ↔ key ∈ fields.map Prod.fst := by
  induction fields using List.reverseRecOn with
  | nil => simp [latest?]
  | append_singleton fields e ih =>
      rw [latest?_concat, List.map_append, List.mem_append, ← ih]
      split
      · rename_i same
        simp [same]
      · rename_i other
        simp [Ne.symm other]

theorem latest?_eq_none {key : String} {fields : List (String × α)} :
    latest? key fields = none ↔ ∀ value, (key, value) ∉ fields := by
  rw [← Option.not_isSome_iff_eq_none, isSome_latest?]
  simp

/-- Where every key is given once, what is given counts. -/
theorem latest?_of_nodup {fields : List (String × α)} (once : (fields.map Prod.fst).Nodup)
    {e : String × α} (mem : e ∈ fields) : latest? e.1 fields = some e.2 := by
  induction fields using List.reverseRecOn with
  | nil => exact absurd mem List.not_mem_nil
  | append_singleton fields last ih =>
      rw [List.map_append, List.nodup_append] at once
      obtain ⟨once, -, apart⟩ := once
      rw [latest?_concat]
      rcases List.mem_append.mp mem with before | now
      · have ne : e.1 ≠ last.1 := apart _ (List.mem_map_of_mem before) _ (by simp)
        rw [if_neg (Ne.symm ne)]
        exact ih once before
      · rw [List.mem_singleton.mp now, if_pos rfl]

end

end Courier
