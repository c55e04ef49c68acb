import Courier.Proofs.Handling.Passage
import Mathlib.Data.List.Perm.Basic

/-!
# Slots of a gate and who has them

Every slot of a gate is free, handed to a waiter that has not taken it yet, or held. `Gate.Seats`
joins this sum with the places of the handlings that use the gate: exactly those inside hold slots,
each by its ticket, and whoever is in the queue or was handed a slot waits for it. So there are
never more handlings inside than slots, and when all are outside, all slots are free.

A handling that keeps to its places keeps this up, whatever it does at its site
(`Site.Follows.seats`), and so does the closing of the gate.
-/

namespace Courier

namespace Place

/-- The ticket of a handling that is not outside. -/
def ticket? : Place → Option Nat
  | .outside => none
  | .waiting t => some t
  | .inside t => some t

/-- The ticket for which a handling waits. -/
def waits? : Place → Option Nat
  | .waiting t => some t
  | _ => none

/-- The ticket by which a handling holds a slot. -/
def holds? : Place → Option Nat
  | .inside t => some t
  | _ => none

theorem ticket_of_waits {places : List Place} {t : Nat} (h : t ∈ places.filterMap waits?) :
    t ∈ places.filterMap ticket? := by
  obtain ⟨pl, mem, waits⟩ := List.mem_filterMap.mp h
  refine List.mem_filterMap.mpr ⟨pl, mem, ?_⟩
  cases pl with
  | waiting => exact waits
  | outside | inside => cases waits

theorem ticket_of_holds {places : List Place} {t : Nat} (h : t ∈ places.filterMap holds?) :
    t ∈ places.filterMap ticket? := by
  obtain ⟨pl, mem, holds⟩ := List.mem_filterMap.mp h
  refine List.mem_filterMap.mpr ⟨pl, mem, ?_⟩
  cases pl with
  | inside => exact holds
  | outside | waiting => cases holds

theorem length_holds (places : List Place) :
    (places.filterMap holds?).length = places.countP isInside := by
  induction places with
  | nil => rfl
  | cons pl rest ih =>
      cases pl <;> simp [List.filterMap_cons, List.countP_cons, holds?, isInside, ih]

end Place

namespace Gate

/-- Of the `n` slots of a gate each is free, handed out, or held by one who is inside. -/
structure Seats (g : Gate) (n : Nat) (places : List Place) : Prop where
  slots : g.free + g.granted.length + g.holding.length = n
  holding : g.holding.Perm (places.filterMap Place.holds?)
  queue : ∀ t ∈ g.waiting ++ g.granted, t ∈ places.filterMap Place.waits?
  once : (g.waiting ++ g.granted).Nodup
  apart : (places.filterMap Place.ticket?).Nodup
  known : ∀ t ∈ places.filterMap Place.ticket?, t < g.issued

/-- What passing a slot on does: it is free or handed out then, and nothing else changes. -/
theorem passOn_slots (g : Gate) : g.passOn.holding = g.holding ∧ g.passOn.issued = g.issued ∧
    g.passOn.free + g.passOn.granted.length = g.free + g.granted.length + 1 ∧
    (g.passOn.waiting ++ g.passOn.granted).Perm (g.waiting ++ g.granted) := by
  unfold passOn
  cases waiting : g.waiting with
  | nil => exact ⟨rfl, rfl, by simp only; omega, by simp⟩
  | cons next rest =>
      refine ⟨rfl, rfl, by simp [Nat.add_assoc], ?_⟩
      rw [← List.append_assoc]
      exact List.perm_append_singleton next (rest ++ g.granted)

/-- Taking a ticket back takes it from the queue, and loses no slot. -/
theorem withdraw_slots (g : Gate) (t : Nat) : (g.withdraw t).holding = g.holding ∧
    (g.withdraw t).issued = g.issued ∧
    (g.withdraw t).free + (g.withdraw t).granted.length = g.free + g.granted.length ∧
    ((g.waiting ++ g.granted).Nodup →
      ((g.withdraw t).waiting ++ (g.withdraw t).granted).Perm
        ((g.waiting ++ g.granted).erase t)) := by
  unfold withdraw
  split
  · rename_i granted
    have mem : t ∈ g.granted := by simpa using granted
    obtain ⟨holding, issued, slots, queue⟩ :=
      passOn_slots { g with granted := g.granted.erase t }
    refine ⟨holding, issued, ?_, fun once => queue.trans ?_⟩
    · have some : 0 < g.granted.length := List.length_pos_of_mem mem
      simp only [List.length_erase_of_mem mem] at slots
      omega
    · have other : t ∉ g.waiting := fun waits =>
        (List.nodup_append.mp once).2.2 t waits t mem rfl
      rw [List.erase_append_right _ other]
  · rename_i granted
    have other : t ∉ g.granted := by simpa using granted
    refine ⟨rfl, rfl, rfl, fun _ => ?_⟩
    by_cases waits : t ∈ g.waiting
    · rw [List.erase_append_left _ waits]
    · rw [List.erase_of_not_mem waits, List.erase_of_not_mem]
      simp [waits, other]

namespace Seats

variable {g : Gate} {n : Nat} {places rest : List Place} {pl : Place} {t : Nat}

/-- At most as many are inside as there are slots. -/
theorem inside_le (seats : g.Seats n places) : places.countP Place.isInside ≤ n := by
  have slots := seats.slots
  rw [← Place.length_holds, ← seats.holding.length_eq]
  omega

/-- When all are outside, all slots are free. -/
theorem all_free (seats : g.Seats n places) (outside : ∀ pl ∈ places, pl = .outside) :
    g.free = n ∧ g.holding = [] ∧ g.granted = [] ∧ g.waiting = [] := by
  have none {f : Place → Option Nat} (h : f .outside = none) : places.filterMap f = [] :=
    List.filterMap_eq_nil_iff.mpr fun pl mem => by rw [outside pl mem, h]
  have holding : g.holding = [] := by
    have holding := seats.holding
    rwa [none rfl, List.perm_nil] at holding
  have queue : g.waiting ++ g.granted = [] := by
    refine List.eq_nil_iff_forall_not_mem.mpr fun t mem => ?_
    have waits := seats.queue t mem
    rw [none rfl] at waits
    exact List.not_mem_nil waits
  obtain ⟨waiting, granted⟩ := List.append_eq_nil_iff.mp queue
  have slots := seats.slots
  rw [holding, granted] at slots
  exact ⟨slots, holding, granted, waiting⟩

theorem of_perm (seats : g.Seats n places) {places' : List Place} (perm : places.Perm places') :
    g.Seats n places' where
  slots := seats.slots
  holding := seats.holding.trans (perm.filterMap _)
  queue t mem := (perm.filterMap _).subset (seats.queue t mem)
  once := seats.once
  apart := (perm.filterMap _).nodup_iff.mp seats.apart
  known t mem := seats.known t ((perm.filterMap _).symm.subset mem)

theorem ofCapacity (n : Nat) : (Gate.ofCapacity n).Seats n [] := by
  constructor <;> simp [Gate.ofCapacity]

/-- More come, who are outside. -/
theorem append (seats : g.Seats n places) {new : List Place}
    (outside : ∀ pl ∈ new, pl = .outside) : g.Seats n (places ++ new) := by
  have same {f : Place → Option Nat} (h : f .outside = none) :
      (places ++ new).filterMap f = places.filterMap f := by
    have none : new.filterMap f = [] :=
      List.filterMap_eq_nil_iff.mpr fun pl mem => by rw [outside pl mem, h]
    rw [List.filterMap_append, none, List.append_nil]
  refine ⟨seats.slots, ?_, ?_, seats.once, ?_, ?_⟩
  · rw [same rfl]
    exact seats.holding
  · rw [same rfl]
    exact seats.queue
  · rw [same rfl]
    exact seats.apart
  · rw [same rfl]
    exact seats.known

theorem close (seats : g.Seats n places) : g.close.Seats n places where
  slots := seats.slots
  holding := seats.holding
  queue t mem := seats.queue t (List.mem_append_right _ (by simpa [Gate.close] using mem))
  once := by simpa [Gate.close] using (List.nodup_append.mp seats.once).2.1
  apart := seats.apart
  known := seats.known

/-! ## One handling goes on -/

/-- A new ticket is nobody's yet. -/
theorem fresh (seats : g.Seats n (.outside :: rest)) : g.issued ∉ rest.filterMap Place.ticket? :=
  fun mem => Nat.lt_irrefl _ (seats.known _ mem)

theorem request (seats : g.Seats n (.outside :: rest)) :
    g.request.1.Seats n (Place.outside.after (.called (.request 0) g.request.2) :: rest) := by
  have fresh := seats.fresh
  have apart : (g.issued :: rest.filterMap Place.ticket?).Nodup :=
    List.nodup_cons.mpr ⟨fresh, seats.apart⟩
  have known : ∀ t ∈ g.issued :: rest.filterMap Place.ticket?, t < g.issued + 1 := by
    intro t mem
    obtain rfl | mem := List.mem_cons.mp mem
    · exact Nat.lt_succ_self _
    · exact Nat.lt_succ_of_lt (seats.known t mem)
  unfold Gate.request
  split
  · exact seats
  · simp only
    split
    · rename_i n free
      refine ⟨?_, ?_, seats.queue, seats.once, apart, known⟩
      · have slots := seats.slots
        simp only [List.length_append, List.length_singleton]
        omega
      · exact (List.perm_append_singleton _ _).trans (seats.holding.cons _)
    · rename_i free
      have later : g.issued ∉ g.waiting ++ g.granted := fun mem =>
        fresh (Place.ticket_of_waits (seats.queue _ mem))
      have queue : (g.waiting ++ [g.issued] ++ g.granted).Perm
          (g.issued :: (g.waiting ++ g.granted)) := by
        rw [List.append_assoc]
        exact List.perm_middle
      refine ⟨seats.slots, seats.holding, fun t mem => ?_, ?_, apart, known⟩
      · obtain rfl | mem := List.mem_cons.mp (queue.subset mem)
        · exact List.mem_cons_self
        · exact List.mem_cons_of_mem _ (seats.queue t mem)
      · exact queue.nodup_iff.mpr (List.nodup_cons.mpr ⟨later, seats.once⟩)

/-- The queue is that of the others, once a ticket is taken from it. -/
theorem queue_erase (seats : g.Seats n (.waiting t :: rest)) {u : Nat}
    (mem : u ∈ (g.waiting ++ g.granted).erase t) : u ∈ rest.filterMap Place.waits? := by
  obtain ⟨ne, mem⟩ := (seats.once.mem_erase_iff).mp mem
  exact (List.mem_cons.mp (seats.queue u mem)).resolve_left ne

theorem withdraw (seats : g.Seats n (.waiting t :: rest)) :
    (g.withdraw t).Seats n (.outside :: rest) := by
  obtain ⟨holding, issued, slots, queue⟩ := g.withdraw_slots t
  have queue := queue seats.once
  refine ⟨?_, ?_, fun u mem => ?_, ?_, ?_, fun u mem => ?_⟩
  · rw [slots, holding]
    exact seats.slots
  · rw [holding]
    exact seats.holding
  · exact seats.queue_erase (queue.subset mem)
  · exact queue.nodup_iff.mpr (seats.once.erase t)
  · exact (List.nodup_cons.mp seats.apart).2
  · rw [issued]
    exact seats.known u (List.mem_cons_of_mem _ mem)

/-- A slot that was handed out is taken. -/
theorem take (seats : g.Seats n (.waiting t :: rest)) (granted : t ∈ g.granted) :
    Gate.Seats { g with granted := g.granted.erase t, holding := g.holding ++ [t] } n
      (.inside t :: rest) := by
  have waits : t ∉ g.waiting := fun waits =>
    (List.nodup_append.mp seats.once).2.2 t waits t granted rfl
  have queue : g.waiting ++ g.granted.erase t = (g.waiting ++ g.granted).erase t :=
    (List.erase_append_right _ waits).symm
  refine ⟨?_, ?_, fun u mem => ?_, ?_, seats.apart, seats.known⟩
  · have slots := seats.slots
    have some : 0 < g.granted.length := List.length_pos_of_mem granted
    simp only [List.length_erase_of_mem granted, List.length_append, List.length_singleton]
    omega
  · exact (List.perm_append_singleton _ _).trans (seats.holding.cons _)
  · simp only [queue] at mem
    exact seats.queue_erase mem
  · simp only [queue]
    exact seats.once.erase t

theorem release (seats : g.Seats n (.inside t :: rest)) :
    (g.release t).Seats n (.outside :: rest) := by
  have held : t ∈ g.holding := seats.holding.symm.subset List.mem_cons_self
  unfold Gate.release
  rw [if_pos (by simpa using held)]
  obtain ⟨holding, issued, slots, queue⟩ :=
    passOn_slots { g with holding := g.holding.erase t }
  refine ⟨?_, ?_, fun u mem => ?_, ?_, ?_, fun u mem => ?_⟩
  · have before := seats.slots
    have some : 0 < g.holding.length := List.length_pos_of_mem held
    rw [slots, holding]
    simp only [List.length_erase_of_mem held]
    omega
  · rw [holding]
    have mine : (Place.inside t :: rest).filterMap Place.holds? =
        t :: rest.filterMap Place.holds? := rfl
    have others := seats.holding.erase t
    rwa [mine, List.erase_cons_head] at others
  · exact seats.queue u (queue.subset mem)
  · exact queue.nodup_iff.mpr seats.once
  · exact (List.nodup_cons.mp seats.apart).2
  · rw [issued]
    exact seats.known u (List.mem_cons_of_mem _ mem)

/-- Whoever gives up a ticket that no one else has is outside then, if the ticket was of any use. -/
theorem surrender (seats : g.Seats n (pl :: rest)) (other : t ∉ rest.filterMap Place.ticket?) :
    (g.surrender t).Seats n ((if pl.ticket? = some t then .outside else pl) :: rest) := by
  -- of no use are tickets that are neither waiting nor holding
  have useless (absent : t ∉ (pl :: rest).filterMap Place.ticket?) : g.surrender t = g := by
    have waits : t ∉ g.waiting ++ g.granted := fun mem =>
      absent (Place.ticket_of_waits (seats.queue t mem))
    obtain ⟨waiting, granted⟩ := not_or.mp (mt List.mem_append.mpr waits)
    have holding : t ∉ g.holding := fun mem =>
      absent (Place.ticket_of_holds (seats.holding.subset mem))
    simp [Gate.surrender, Gate.withdraw, Gate.release, waiting, granted, holding,
      List.erase_of_not_mem]
  by_cases mine : pl.ticket? = some t
  · rw [if_pos mine]
    cases pl with
    | outside => cases mine
    | waiting u =>
        obtain rfl := Option.some.inj mine
        have withdrawn := seats.withdraw
        have free : u ∉ (g.withdraw u).holding := fun mem =>
          other (Place.ticket_of_holds (withdrawn.holding.subset mem))
        rwa [Gate.surrender, Gate.release, if_neg (by simpa using free)]
    | inside u =>
        obtain rfl := Option.some.inj mine
        have queue : u ∉ g.waiting ++ g.granted := fun mem =>
          other (Place.ticket_of_waits (seats.queue u mem))
        obtain ⟨waiting, granted⟩ := not_or.mp (mt List.mem_append.mpr queue)
        have same : g.withdraw u = g := by
          simp [Gate.withdraw, granted, List.erase_of_not_mem waiting]
        rw [Gate.surrender, same]
        exact seats.release
  · rw [if_neg mine, useless]
    · exact seats
    · intro mem
      obtain ⟨p, here, ticket⟩ := List.mem_filterMap.mp mem
      obtain rfl | here := List.mem_cons.mp here
      · exact mine ticket
      · exact other (List.mem_filterMap.mpr ⟨p, here, ticket⟩)

/-- News for a ticket, or the ticket is refused. -/
theorem resume (seats : g.Seats n (.waiting t :: rest)) (cancelled : Bool) :
    match g.resume t cancelled with
    | (g', some answer) =>
      g'.Seats n ((Place.waiting t).after (.called (.enter 0 t) answer) :: rest)
    | (g', none) => (g'.withdraw t).Seats n (.outside :: rest) := by
  cases cancelled with
  | true => exact seats.withdraw
  | false =>
      by_cases closed : g.closed = true
      · have refused : g.resume t false = (g.withdraw t, some (.error .closed)) := by
          simp [Gate.resume, closed]
        rw [refused]
        exact seats.withdraw
      · by_cases granted : t ∈ g.granted
        · have taken : g.resume t false =
              ({ g with granted := g.granted.erase t, holding := g.holding ++ [t] },
                some (.ok ())) := by
            simp [Gate.resume, closed, granted]
          rw [taken]
          exact seats.take granted
        · have undecided : g.resume t false = (g, none) := by
            simp [Gate.resume, closed, granted]
          rw [undecided]
          exact seats.withdraw

end Seats

end Gate

/-! ## Handlings at their sites -/

namespace Site

variable {s s' : Site} {n : Nat} {pl : Place} {rest : List Place}

theorem perform_gate_of_not_gate (s : Site) {e : Effect} (h : e.isGate = false) :
    (s.perform e).1.gate = s.gate := by
  cases e with
  | settle how =>
      simp only [perform, settle]
      split <;> rfl
  | request i => simp [Effect.isGate] at h
  | enter i t => simp [Effect.isGate] at h
  | leave i t => simp [Effect.isGate] at h
  | _ => rfl

theorem gate_withGate_zero (some : s.premises.gates ≠ []) (g : Gate) :
    (s.withGate 0 g).gate = g := by
  rw [gate_withGate, if_pos ⟨rfl, some⟩]

/-- A call that is at its place keeps the slots with those who have them. -/
theorem perform_seats {e : Effect} (allowed : pl.Allows e) (seats : s.gate.Seats n (pl :: rest))
    (gates : s.premises.gates ≠ []) :
    (s.perform e).1.gate.Seats n (pl.after (.called e (s.perform e).2) :: rest) := by
  by_cases alone : e.isGate = false
  · rw [s.perform_gate_of_not_gate alone, Place.after_of_not_gate alone]
    exact seats
  · cases e with
    | request i =>
        obtain ⟨rfl, rfl⟩ := allowed
        have requested := seats.request
        simp only [perform]
        rw [gate_withGate_zero gates]
        exact requested
    | leave i t =>
        obtain ⟨rfl, rfl⟩ := allowed
        simp only [perform]
        rw [gate_withGate_zero gates]
        exact seats.release
    | enter i t =>
        obtain ⟨rfl, rfl⟩ := allowed
        have resumed := seats.resume s.isCancelled
        simp only [perform, enter]
        rw [gate] at resumed
        split
        · rename_i g answer found
          rw [found] at resumed
          rw [gate_withGate_zero gates]
          exact resumed
        · rename_i g found
          rw [found] at resumed
          rw [gate_withGate_zero gates]
          exact resumed
    | _ => exact absurd rfl alone

/-- A handling that is at its places goes on. -/
theorem Follows.seats {events : List Event} (h : s.Follows events s') (passes : pl.Passes events)
    (seats : s.gate.Seats n (pl :: rest)) (gates : s.premises.gates ≠ []) :
    s'.gate.Seats n (events.foldl Place.after pl :: rest) := by
  induction h generalizing pl with
  | refl => exact seats
  | settled _ _ ih => exact ih passes.2 seats gates
  | called _ _ ih =>
      exact ih passes.2 (perform_seats passes.1 seats gates) (perform_gates _ _ gates)
  | waited _ _ ih => exact ih passes.2 seats gates

/-! ## Tickets that are issued -/

/-- No ticket is taken back. -/
theorem perform_issued (s : Site) (e : Effect) : s.gate.issued ≤ (s.perform e).1.gate.issued := by
  cases enters : e.isEnter with
  | false => exact (s.perform_gate enters).issued
  | true =>
      cases e with
      | enter i t =>
          by_cases here : i = 0
          · rw [here]
            exact (s.perform_enter_gate t).issued
          · have same (g : Gate) : (s.withGate i g).gate = s.gate := by
              rw [gate_withGate, if_neg fun first => here first.1]
            simp only [perform, enter]
            split <;> exact Nat.le_of_eq (congrArg Gate.issued (same _)).symm
      | _ => cases enters

theorem Follows.issued {events : List Event} (h : s.Follows events s') :
    s.gate.issued ≤ s'.gate.issued := by
  induction h with
  | refl => exact Nat.le_refl _
  | settled _ _ ih => exact ih
  | called _ _ ih => exact Nat.le_trans (perform_issued _ _) ih
  | waited _ _ ih => exact ih

/-- Whoever is not outside after a call has the ticket that it had, or a new one. -/
theorem perform_ticket {e : Effect} (allowed : pl.Allows e) (gates : s.premises.gates ≠ [])
    {t : Nat} (ticket : (pl.after (.called e (s.perform e).2)).ticket? = some t) :
    pl.ticket? = some t ∨ t = s.gate.issued ∧ t < (s.perform e).1.gate.issued := by
  by_cases alone : e.isGate = false
  · rw [Place.after_of_not_gate alone] at ticket
    exact .inl ticket
  · cases e with
    | request i =>
        obtain ⟨rfl, rfl⟩ := allowed
        have requested := Gate.request_ticket (g := s.gate) (t := t)
        simp only [perform] at ticket ⊢
        rw [gate_withGate_zero gates]
        cases entry : (s.premises.gate 0).request.2 with
        | refused =>
            rw [entry] at ticket
            cases ticket
        | admitted u =>
            rw [entry] at ticket
            obtain rfl := Option.some.inj ticket
            exact .inr (requested (.inl entry))
        | queued u =>
            rw [entry] at ticket
            obtain rfl := Option.some.inj ticket
            exact .inr (requested (.inr entry))
    | leave i u =>
        obtain ⟨rfl, rfl⟩ := allowed
        cases ticket
    | enter i u =>
        obtain ⟨rfl, rfl⟩ := allowed
        generalize (s.perform (.enter 0 u)).2 = answer at ticket
        cases answer with
        | ok => exact .inl ticket
        | error f => cases ticket
    | _ => exact absurd rfl alone

/-- The ticket of a handling that goes on is the one that it had, or was issued meanwhile. -/
theorem Follows.ticket {events : List Event} (h : s.Follows events s') (passes : pl.Passes events)
    (gates : s.premises.gates ≠ []) {t : Nat}
    (ticket : (events.foldl Place.after pl).ticket? = some t) :
    pl.ticket? = some t ∨ s.gate.issued ≤ t ∧ t < s'.gate.issued := by
  induction h generalizing pl with
  | refl => exact .inl ticket
  | settled _ _ ih => exact ih passes.2 gates ticket
  | waited _ _ ih => exact ih passes.2 gates ticket
  | @called s e _ _ _ later ih =>
      obtain here | ⟨since, before⟩ := ih passes.2 (perform_gates _ _ gates) ticket
      · obtain had | ⟨rfl, new⟩ := perform_ticket passes.1 gates here
        · exact .inl had
        · exact .inr ⟨Nat.le_refl _, Nat.lt_of_lt_of_le new later.issued⟩
      · exact .inr ⟨Nat.le_trans (perform_issued _ _) since, before⟩

end Site

end Courier
