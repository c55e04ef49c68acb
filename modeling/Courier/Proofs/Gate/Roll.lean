import Courier.Proofs.Gate

/-!
# The roll of a gate

A ticket has its slot from the moment the slot is handed to it. The roll of a gate lists the tickets
in the order in which they got their slots: whatever happens at the gate, those that have a slot
then and had none before are added (`newlySeated`).

Slots are handed out in the order of the requests, so the roll is increasing, and whoever waits
comes after all that are on it (`Gate.Rolled`). A slot that is given back or given up goes to the
first in the queue.
-/

namespace Courier

namespace Gate

/-- The tickets that have a slot: it was handed to them, or they hold it. -/
def seated (g : Gate) : List Nat := g.granted ++ g.holding

/-- The tickets that have a slot now and had none before. -/
def newlySeated (before now : Gate) : List Nat :=
  now.seated.filter fun t => !before.seated.contains t

/-- A gate whose slots were handed out in the order of a roll. -/
structure Rolled (g : Gate) (roll : List Nat) : Prop where
  sorted : roll.Pairwise (· < ·)
  entered : ∀ t ∈ g.seated, t ∈ roll
  ahead : ∀ t ∈ roll, ∀ u ∈ g.waiting, t < u
  known : ∀ t ∈ roll, t < g.issued

variable {g g' : Gate} {roll : List Nat}

theorem newlySeated_of_perm {new old : List Nat} (perm : g'.seated.Perm (new ++ old))
    (kept : ∀ t ∈ old, t ∈ g.seated) (fresh : ∀ t ∈ new, t ∉ g.seated) :
    (newlySeated g g').Perm new := by
  have new' : new.filter (fun t => !g.seated.contains t) = new :=
    List.filter_eq_self.mpr fun t mem => by simpa using fresh t mem
  have old' : old.filter (fun t => !g.seated.contains t) = [] :=
    List.filter_eq_nil_iff.mpr fun t mem => by simpa using kept t mem
  have filtered := perm.filter fun t => !g.seated.contains t
  rwa [List.filter_append, new', old', List.append_nil] at filtered

theorem newlySeated_self (g : Gate) : newlySeated g g = [] :=
  List.filter_eq_nil_iff.mpr fun t mem => by simpa using mem

/-- The first in the queue, if anyone waits, gets a slot that is passed on. -/
theorem passOn_seated (g : Gate) : g.passOn.seated.Perm (g.waiting.take 1 ++ g.seated) := by
  unfold passOn
  cases waiting : g.waiting with
  | nil => exact .refl _
  | cons next rest =>
      simp only [seated, List.append_assoc]
      exact List.perm_middle

theorem passOn_waiting (g : Gate) : g.passOn.waiting = g.waiting.drop 1 := by
  unfold passOn
  cases waiting : g.waiting with
  | nil => rfl
  | cons => rfl

theorem passOn_free {g : Gate} (nobody : g.waiting = []) : g.passOn.free = g.free + 1 := by
  unfold passOn
  rw [nobody]

theorem passOn_issued (g : Gate) : g.passOn.issued = g.issued := by
  unfold passOn
  split <;> rfl

theorem passOn_closed (g : Gate) : g.passOn.closed = g.closed := by
  unfold passOn
  split <;> rfl

theorem withdraw_closed (g : Gate) (t : Nat) : (g.withdraw t).closed = g.closed := by
  unfold withdraw
  split
  · exact passOn_closed _
  · rfl

theorem release_closed (g : Gate) (t : Nat) : (g.release t).closed = g.closed := by
  unfold release
  split
  · exact passOn_closed _
  · rfl

theorem passOn_capacity (g : Gate) : g.passOn.capacity = g.capacity := by
  unfold passOn
  split <;> rfl

theorem withdraw_capacity (g : Gate) (t : Nat) : (g.withdraw t).capacity = g.capacity := by
  unfold withdraw
  split
  · exact passOn_capacity _
  · rfl

theorem release_capacity (g : Gate) (t : Nat) : (g.release t).capacity = g.capacity := by
  unfold release
  split
  · exact passOn_capacity _
  · rfl

theorem request_capacity (g : Gate) : g.request.1.capacity = g.capacity := by
  unfold request
  split
  · rfl
  · simp only
    split <;> rfl

/-- At an open gate a request is answered by a slot or by a place in the queue. -/
theorem request_answer {g : Gate} (opened : g.closed = false) :
    g.request.2 = if g.free = 0 then .queued g.issued else .admitted g.issued := by
  rw [request, if_neg (by simp [opened])]
  cases g.free <;> rfl

namespace Rolled

theorem ofCapacity (n : Nat) : (ofCapacity n).Rolled [] := by
  constructor <;> simp [Gate.ofCapacity, seated]

theorem waiting_not_mem (rolled : g.Rolled roll) {t : Nat} (waits : t ∈ g.waiting) : t ∉ roll :=
  fun mem => Nat.lt_irrefl t (rolled.ahead t mem t waits)

/-- Nobody gets a slot. -/
theorem unseated (rolled : g.Rolled roll) (seated : ∀ t ∈ g'.seated, t ∈ g.seated)
    (waiting : ∀ t ∈ g'.waiting, t ∈ g.waiting ∨ t = g.issued) (issued : g.issued ≤ g'.issued) :
    newlySeated g g' = [] ∧ g'.Rolled roll := by
  refine ⟨?_, rolled.sorted, ?_, ?_, ?_⟩
  · exact List.filter_eq_nil_iff.mpr fun t mem => by simpa using seated t mem
  · exact fun t mem => rolled.entered t (seated t mem)
  · intro t mem u waits
    obtain old | rfl := waiting u waits
    · exact rolled.ahead t mem u old
    · exact rolled.known t mem
  · exact fun t mem => Nat.lt_of_lt_of_le (rolled.known t mem) issued

/-- A slot that someone leaves goes to the first in the queue. -/
theorem passOn (rolled : g.Rolled roll) (orderly : g.Orderly)
    (seated : ∀ t ∈ g'.seated, t ∈ g.seated) (waiting : g'.waiting = g.waiting)
    (issued : g'.issued = g.issued) :
    newlySeated g g'.passOn = g.waiting.take 1 ∧
      g'.passOn.Rolled (roll ++ g.waiting.take 1) := by
  have perm := passOn_seated g'
  rw [waiting] at perm
  have fresh : ∀ t ∈ g.waiting.take 1, t ∉ roll := fun t mem =>
    rolled.waiting_not_mem (List.mem_of_mem_take mem)
  have seats : newlySeated g g'.passOn = g.waiting.take 1 := by
    have new := newlySeated_of_perm perm seated fun t mem old =>
      fresh t mem (rolled.entered t old)
    match first : g.waiting.take 1, List.length_take_le 1 g.waiting with
    | [], _ => exact List.perm_nil.mp (first ▸ new)
    | [t], _ => exact List.perm_singleton.mp (first ▸ new)
  have sorted := orderly.sorted
  rw [← List.take_append_drop 1 g.waiting, List.pairwise_append] at sorted
  refine ⟨seats, ?_, fun t mem => ?_, fun t mem u waits => ?_, fun t mem => ?_⟩
  · refine List.pairwise_append.mpr ⟨rolled.sorted, sorted.1, fun t mem u first => ?_⟩
    exact rolled.ahead t mem u (List.mem_of_mem_take first)
  · obtain first | old := List.mem_append.mp (perm.subset mem)
    · exact List.mem_append_right _ first
    · exact List.mem_append_left _ (rolled.entered t (seated t old))
  · rw [passOn_waiting, waiting] at waits
    obtain old | first := List.mem_append.mp mem
    · exact rolled.ahead t old u (List.mem_of_mem_drop waits)
    · exact sorted.2.2 t first u waits
  · rw [passOn_issued, issued]
    obtain old | first := List.mem_append.mp mem
    · exact rolled.known t old
    · exact orderly.known t (.inl (List.mem_of_mem_take first))

theorem release (rolled : g.Rolled roll) (orderly : g.Orderly) {t : Nat} (held : t ∈ g.holding) :
    newlySeated g (g.release t) = g.waiting.take 1 ∧
      (g.release t).Rolled (roll ++ g.waiting.take 1) := by
  rw [Gate.release, if_pos (by simpa using held)]
  refine rolled.passOn orderly (fun u mem => ?_) rfl rfl
  exact (List.mem_append.mp mem).elim (List.mem_append_left _)
    fun held => List.mem_append_right _ (List.mem_of_mem_erase held)

/-- A ticket that is taken back: the slot that it was handed goes on. -/
theorem withdraw (rolled : g.Rolled roll) (orderly : g.Orderly) (t : Nat) :
    newlySeated g (g.withdraw t) = (if t ∈ g.granted then g.waiting.take 1 else []) ∧
      (g.withdraw t).Rolled (roll ++ if t ∈ g.granted then g.waiting.take 1 else []) := by
  by_cases granted : t ∈ g.granted
  · rw [Gate.withdraw, if_pos (by simpa using granted), if_pos granted]
    refine rolled.passOn orderly (fun u mem => ?_) rfl rfl
    exact (List.mem_append.mp mem).elim
      (fun granted => List.mem_append_left _ (List.mem_of_mem_erase granted))
      (List.mem_append_right _)
  · rw [Gate.withdraw, if_neg (by simpa using granted), if_neg granted, List.append_nil]
    exact rolled.unseated (fun u mem => mem) (fun u waits => .inl (List.mem_of_mem_erase waits))
      (Nat.le_refl _)

/-- A slot that was handed to a ticket is taken. -/
theorem take (rolled : g.Rolled roll) {t : Nat} (granted : t ∈ g.granted) :
    let g' : Gate := { g with granted := g.granted.erase t, holding := g.holding ++ [t] }
    newlySeated g g' = [] ∧ g'.Rolled roll := by
  refine rolled.unseated (fun u mem => ?_) (fun u waits => .inl waits) (Nat.le_refl _)
  simp only [seated, List.mem_append, List.mem_singleton] at mem ⊢
  obtain erased | held | rfl := mem
  · exact .inl (List.mem_of_mem_erase erased)
  · exact .inr held
  · exact .inl granted

/-- Who asks gets the next ticket, and a slot with it or a place behind all others. -/
theorem request (rolled : g.Rolled roll) (orderly : g.Orderly) :
    g.request.1.Rolled (roll ++ newlySeated g g.request.1) := by
  have next : g.issued ∉ g.seated := fun mem =>
    Nat.lt_irrefl _ (rolled.known _ (rolled.entered _ mem))
  unfold Gate.request
  split
  · rw [newlySeated_self, List.append_nil]
    exact rolled
  · simp only
    split
    · rename_i n free
      have empty : g.waiting = [] := by
        by_contra some
        have busy := orderly.busy some
        omega
      set g' : Gate := { g with
      free := n
      holding := g.holding ++ [g.issued]
      issued := g.issued + 1 } with admitted
      have perm : g'.seated.Perm ([g.issued] ++ g.seated) := by
        rw [admitted, seated, ← List.append_assoc]
        exact List.perm_append_comm
      have new : newlySeated g g' = [g.issued] :=
        List.perm_singleton.mp (newlySeated_of_perm perm (fun _ mem => mem) (by simpa using next))
      rw [new]
      refine ⟨?_, fun t mem => ?_, fun t _ u waits => ?_, fun t mem => ?_⟩
      · refine List.pairwise_append.mpr ⟨rolled.sorted, List.pairwise_singleton _ _, ?_⟩
        exact fun t mem u last => List.mem_singleton.mp last ▸ rolled.known t mem
      · obtain last | old := List.mem_append.mp (perm.subset mem)
        · exact List.mem_append_right _ last
        · exact List.mem_append_left _ (rolled.entered t old)
      · exact absurd (empty ▸ waits) List.not_mem_nil
      · obtain old | last := List.mem_append.mp mem
        · exact Nat.lt_succ_of_lt (rolled.known t old)
        · obtain rfl := List.mem_singleton.mp last
          exact Nat.lt_succ_self _
    · set g' : Gate := { g with waiting := g.waiting ++ [g.issued], issued := g.issued + 1 }
      have unseated : newlySeated g g' = [] ∧ g'.Rolled roll := by
        refine rolled.unseated (fun _ mem => mem) (fun u waits => ?_) (Nat.le_succ _)
        exact (List.mem_append.mp waits).imp_right List.mem_singleton.mp
      rw [unseated.1, List.append_nil]
      exact unseated.2

theorem close (rolled : g.Rolled roll) : newlySeated g g.close = [] ∧ g.close.Rolled roll :=
  rolled.unseated (fun _ mem => mem) nofun (Nat.le_refl _)

end Rolled

end Gate

end Courier
