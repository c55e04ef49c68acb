import Courier.Gate
import Mathlib.Data.List.Basic

/-!
# Gates serve in order

Tickets are served in the order in which they were issued: what waits was issued after what was
handed a slot, and as long as something waits no slot is free. Every operation keeps this, and keeps
the place of every ticket but the one it is about.
-/

namespace Courier

namespace Gate

/-- The order in which a gate hands out its slots. -/
structure Orderly (g : Gate) : Prop where
  sorted : g.waiting.Pairwise (· < ·)
  ahead : ∀ t ∈ g.granted, ∀ u ∈ g.waiting, t < u
  busy : g.waiting ≠ [] → g.free = 0
  known : ∀ t, t ∈ g.waiting ∨ t ∈ g.granted → t < g.issued

/-- There is news for a ticket. -/
def Served (g : Gate) (t : Nat) : Prop := t ∈ g.granted ∨ g.closed = true

/-- A ticket waits, or there is news for it. -/
def Queued (g : Gate) (t : Nat) : Prop := t ∈ g.waiting ∨ g.Served t

theorem decided_iff (g : Gate) (t : Nat) : g.decided t = true ↔ g.Served t := by
  simp [decided, Served, or_comm]

theorem orderly_ofCapacity (n : Nat) : (ofCapacity n).Orderly := by
  constructor <;> simp [ofCapacity]

namespace Orderly

variable {g : Gate} {t : Nat}

/-- When a slot is free, there is news for everyone in the queue. -/
theorem served_of_free (orderly : g.Orderly) (free : g.free ≠ 0) (queued : g.Queued t) :
    g.Served t := by
  obtain waits | served := queued
  · exact absurd (orderly.busy (List.ne_nil_of_mem waits)) free
  · exact served

/-- When there is news for a ticket, there is for every earlier one in the queue. -/
theorem served_of_lt (orderly : g.Orderly) {u : Nat} (granted : u ∈ g.granted) (lt : t < u)
    (queued : g.Queued t) : g.Served t := by
  obtain waits | served := queued
  · exact absurd (orderly.ahead u granted t waits) (Nat.lt_asymm lt)
  · exact served

end Orderly

/-- A gate goes on in order, and no ticket but perhaps one loses its place. -/
structure Advances (lost : Option Nat) (g g' : Gate) : Prop where
  orderly : g.Orderly → g'.Orderly
  issued : g.issued ≤ g'.issued
  queued : ∀ t, lost ≠ some t → g.Queued t → g'.Queued t
  served : ∀ t, lost ≠ some t → g.Served t → g'.Served t

namespace Advances

variable {lost : Option Nat} {g g' g'' : Gate}

theorem refl (lost : Option Nat) (g : Gate) : Advances lost g g where
  orderly h := h
  issued := Nat.le_refl _
  queued _ _ h := h
  served _ _ h := h

theorem trans (h : Advances lost g g') (h' : Advances lost g' g'') : Advances lost g g'' where
  orderly o := h'.orderly (h.orderly o)
  issued := Nat.le_trans h.issued h'.issued
  queued t apart q := h'.queued t apart (h.queued t apart q)
  served t apart s := h'.served t apart (h.served t apart s)

theorem weaken (h : Advances none g g') (lost : Option Nat) : Advances lost g g' where
  orderly := h.orderly
  issued := h.issued
  queued t _ := h.queued t nofun
  served t _ := h.served t nofun

end Advances

theorem advances_passOn (g : Gate) : Advances none g g.passOn := by
  unfold passOn
  cases waiting : g.waiting with
  | nil =>
      refine ⟨fun o => ⟨.nil, by simp, by simp, fun t ht => ?_⟩, Nat.le_refl _, fun t _ q => ?_,
        fun _ _ s => s⟩
      · exact o.known t (.inr (by simpa using ht))
      · simpa [Queued, Served, waiting] using q
  | cons next rest =>
      refine ⟨fun o => ?_, Nat.le_refl _, fun t _ q => ?_, fun t _ s => ?_⟩
      · have sorted := o.sorted
        rw [waiting, List.pairwise_cons] at sorted
        refine ⟨sorted.2, fun t ht u hu => ?_, fun _ => o.busy (by simp [waiting]), fun t ht => ?_⟩
        · obtain ht | ht := List.mem_append.mp ht
          · exact o.ahead t ht u (by simp [waiting, hu])
          · obtain rfl := List.mem_singleton.mp ht
            exact sorted.1 u hu
        · apply o.known t
          simp only [List.mem_append, waiting, List.mem_cons] at ht ⊢
          tauto
      · simp only [Queued, Served, waiting, List.mem_cons, List.mem_append, List.not_mem_nil,
          or_false] at q ⊢
        tauto
      · simp only [Served, List.mem_append] at s ⊢
        tauto

theorem advances_release (g : Gate) (t : Nat) : Advances none g (g.release t) := by
  unfold release
  split
  · have held : Advances none g { g with holding := g.holding.erase t } :=
      ⟨fun o => ⟨o.sorted, o.ahead, o.busy, o.known⟩, Nat.le_refl _, fun _ _ q => q,
        fun _ _ s => s⟩
    exact held.trans (advances_passOn _)
  · exact .refl _ g

theorem advances_request (g : Gate) : Advances none g g.request.1 := by
  unfold request
  split
  · exact .refl _ g
  · simp only
    split
    · rename_i n free
      refine ⟨fun o => ⟨o.sorted, o.ahead, fun some => ?_, fun t ht => ?_⟩, Nat.le_succ _,
        fun _ _ q => q, fun _ _ s => s⟩
      · have := o.busy some
        omega
      · exact Nat.lt_succ_of_lt (o.known t ht)
    · rename_i free
      refine ⟨fun o => ?_, Nat.le_succ _, fun t _ q => ?_, fun _ _ s => s⟩
      · refine ⟨?_, fun t ht u hu => ?_, fun _ => free, fun t ht => ?_⟩
        · refine List.pairwise_append.mpr ⟨o.sorted, List.pairwise_singleton _ _, ?_⟩
          intro t ht u hu
          obtain rfl := List.mem_singleton.mp hu
          exact o.known t (.inl ht)
        · obtain hu | hu := List.mem_append.mp hu
          · exact o.ahead t ht u hu
          · obtain rfl := List.mem_singleton.mp hu
            exact o.known t (.inr ht)
        · simp only [List.mem_append, List.mem_singleton] at ht
          obtain (ht | rfl) | ht := ht
          · exact Nat.lt_succ_of_lt (o.known t (.inl ht))
          · exact Nat.lt_succ_self _
          · exact Nat.lt_succ_of_lt (o.known t (.inr ht))
      · obtain waits | served := q
        · exact .inl (List.mem_append_left _ waits)
        · exact .inr served

/-- A ticket that was handed a slot gives it up or takes it. -/
theorem advances_erase (g : Gate) (t : Nat) (holding : List Nat) :
    Advances (some t) g { g with granted := g.granted.erase t, holding := holding } := by
  refine ⟨fun o => ⟨o.sorted, fun u hu => o.ahead u (List.mem_of_mem_erase hu), o.busy,
    fun u hu => o.known u (hu.imp_right List.mem_of_mem_erase)⟩, Nat.le_refl _, ?_, ?_⟩
  · intro u apart q
    have other : u ≠ t := fun same => apart (same ▸ rfl)
    simpa [Queued, Served, List.mem_erase_of_ne other] using q
  · intro u apart s
    have other : u ≠ t := fun same => apart (same ▸ rfl)
    simpa [Served, List.mem_erase_of_ne other] using s

theorem advances_withdraw (g : Gate) (t : Nat) : Advances (some t) g (g.withdraw t) := by
  unfold withdraw
  split
  · exact (advances_erase g t g.holding).trans ((advances_passOn _).weaken _)
  · refine ⟨fun o => ?_, Nat.le_refl _, fun u apart q => ?_, fun _ _ s => s⟩
    · refine ⟨o.sorted.sublist List.erase_sublist, fun u hu v hv => ?_, fun some => ?_, ?_⟩
      · exact o.ahead u hu v (List.mem_of_mem_erase hv)
      · exact o.busy fun none => some (by simp [none])
      · exact fun u hu => o.known u (hu.imp_left List.mem_of_mem_erase)
    · have other : u ≠ t := fun same => apart (same ▸ rfl)
      simpa [Queued, Served, List.mem_erase_of_ne other] using q

theorem advances_surrender (g : Gate) (t : Nat) : Advances (some t) g (g.surrender t) :=
  (advances_withdraw g t).trans ((advances_release _ t).weaken _)

theorem advances_resume (g : Gate) (t : Nat) (cancelled : Bool) :
    Advances (some t) g (g.resume t cancelled).1 := by
  unfold resume
  split
  · exact advances_withdraw g t
  · split
    · exact advances_withdraw g t
    · split
      · exact advances_erase g t _
      · exact .refl _ g

theorem advances_close (g : Gate) : Advances none g g.close := by
  refine ⟨fun o => ⟨?_, ?_, ?_, ?_⟩, Nat.le_refl _, fun t _ _ => ?_, fun t _ _ => ?_⟩
  · simp [close]
  · simp [close]
  · simp [close]
  · exact fun t ht => o.known t (.inr (by simpa [close] using ht))
  · exact .inr (.inr rfl)
  · exact .inr rfl

/-- Who is admitted at once found a free slot. -/
theorem free_of_admitted {g : Gate} {t : Nat} (h : g.request.2 = .admitted t) : g.free ≠ 0 := by
  unfold request at h
  split at h
  · simp at h
  · simp only at h
    split at h
    · omega
    · simp at h

/-- Who has to wait waits under a new ticket. -/
theorem of_queued {g : Gate} {t : Nat} (h : g.request.2 = .queued t) :
    t = g.issued ∧ g.closed = false ∧
      g.request.1 = { g with waiting := g.waiting ++ [t], issued := t + 1 } := by
  unfold request at h ⊢
  split at h
  · simp at h
  · rename_i opened
    simp only at h
    split at h
    · simp at h
    · rename_i free
      simp only [Entry.queued.injEq] at h
      subst h
      rw [if_neg opened]
      exact ⟨rfl, by simpa using opened, by simp only [free]⟩

/-- A request that is not refused gets the next ticket. -/
theorem request_ticket {g : Gate} {t : Nat}
    (h : g.request.2 = .admitted t ∨ g.request.2 = .queued t) :
    t = g.issued ∧ t < g.request.1.issued := by
  unfold request at h ⊢
  split at h
  · simp at h
  · rename_i opened
    rw [if_neg opened]
    simp only at h ⊢
    split at h <;> simp at h <;> subst h <;> exact ⟨rfl, Nat.lt_succ_self _⟩

/-- Who takes a slot after waiting was handed it. -/
theorem granted_of_ok {g : Gate} {t : Nat} {cancelled : Bool}
    (h : (g.resume t cancelled).2 = some (.ok ())) : t ∈ g.granted := by
  unfold resume at h
  split at h
  · simp at h
  · split at h
    · simp at h
    · split at h
      · rename_i granted
        simpa using granted
      · simp at h

end Gate

end Courier
