/-!
# Places in lists

Attempts, loops and runs are known by their places in lists that only grow. What stands at a place
once something was added at the end, or once one entry was changed.
-/

namespace Courier

theorem getElem?_append_of_some {α : Type} {l : List α} {k : Nat} {a : α} (h : l[k]? = some a)
    (l' : List α) : (l ++ l')[k]? = some a :=
  (List.getElem?_append_left (List.getElem?_eq_some_iff.mp h).1).trans h

theorem getElem?_concat_cases {α : Type} {l : List α} {k : Nat} {a b : α}
    (h : (l ++ [a])[k]? = some b) : l[k]? = some b ∨ k = l.length ∧ b = a := by
  obtain ⟨within, rfl⟩ := List.getElem?_eq_some_iff.mp h
  by_cases before : k < l.length
  · exact .inl ((List.getElem?_append_left before).symm.trans h)
  · obtain rfl : k = l.length := by
      simp at within
      omega
    exact .inr ⟨rfl, by simp⟩

theorem getElem?_set_cases {α : Type} {l : List α} {j k : Nat} {a a' b : α} (ha : l[k]? = some a)
    (h : (l.set k a')[j]? = some b) : j = k ∧ b = a' ∨ j ≠ k ∧ l[j]? = some b := by
  by_cases here : j = k
  · subst here
    rw [List.getElem?_set_self (List.getElem?_eq_some_iff.mp ha).1] at h
    exact .inl ⟨rfl, (Option.some.inj h).symm⟩
  · rw [List.getElem?_set_ne (Ne.symm here)] at h
    exact .inr ⟨here, h⟩

theorem map_set_same {α β : Type} {f : α → β} {l : List α} {k : Nat} {a a' : α}
    (h : l[k]? = some a) (same : f a' = f a) : (l.set k a').map f = l.map f := by
  apply List.ext_getElem?
  intro j
  rw [List.getElem?_map, List.getElem?_map, List.getElem?_set]
  split
  · rename_i here
    subst here
    obtain ⟨within, rfl⟩ := List.getElem?_eq_some_iff.mp h
    simp [within, same]
  · rfl

/-- What stands at increasing places is a sublist. -/
theorem sublist_of_places {α β : Type} {l : List α} {p : β → Nat} {f : β → α} {bs : List β}
    (stands : ∀ b ∈ bs, l[p b]? = some (f b))
    (increasing : bs.Pairwise fun b b' => p b < p b') : (bs.map f).Sublist l := by
  have within (b : β) (mem : b ∈ bs) : p b < l.length :=
    (List.getElem?_eq_some_iff.mp (stands b mem)).1
  have found : bs.map f = (bs.pmap (fun b bound => (⟨p b, bound⟩ : Fin l.length)) within).map
      fun k => l[k] := by
    rw [List.map_pmap, ← List.pmap_eq_map (p := fun b => p b < l.length) within]
    refine List.pmap_congr_left _ fun b mem _ _ => ?_
    exact (List.getElem?_eq_some_iff.mp (stands b mem)).2.symm
  rw [found]
  exact List.map_getElem_sublist (increasing.pmap within fun _ _ _ _ lt => lt)

/-- Of things told of places, one is told anew. -/
theorem map_range_set {α : Type} {f g : Nat → α} {k : Nat} (same : ∀ j, k ≠ j → g j = f j)
    (n : Nat) : (List.range n).map g = ((List.range n).map f).set k (g k) := by
  apply List.ext_getElem?
  intro j
  rw [List.getElem?_set, List.length_map, List.length_range]
  by_cases within : j < n
  · by_cases here : k = j
    · subst here
      simp [within]
    · simp [within, here, same j here]
  · by_cases here : k = j
    · subst here
      simp [within]
    · simp [within, here]

end Courier
