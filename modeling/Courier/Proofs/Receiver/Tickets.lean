import Courier.Proofs.Handling.Seats
import Courier.Proofs.Receiver.Deeds

/-!
# Tickets of attempts

An attempt remembers the tickets that gates have issued to it, and gives them up when it is aborted.
At the gate of the receiver no other attempt loses anything by that: the tickets of different
attempts are different (`Station.Ticketed`), since each was issued in a step of its attempt. One
that is not outside has its ticket among them, so it is outside afterwards
(`Premises.surrender_seats`).
-/

namespace Courier

namespace Gate

theorem release_issued (g : Gate) (t : Nat) : (g.release t).issued = g.issued := by
  unfold release
  split
  · exact (passOn_slots _).2.1
  · rfl

theorem surrender_issued (g : Gate) (t : Nat) : (g.surrender t).issued = g.issued :=
  (release_issued _ t).trans (g.withdraw_slots t).2.1

end Gate

namespace Premises

variable {p before : Premises} {tickets : List (Nat × Nat)} {n : Nat}

theorem gate_setGate (gates : p.gates ≠ []) (i : Nat) (g : Gate) :
    (p.setGate i g).gate 0 = if i = 0 then g else p.gate 0 := by
  obtain ⟨first, rest, same⟩ := List.exists_cons_of_ne_nil gates
  cases i with
  | zero => simp [setGate, gate, same]
  | succ i => simp [setGate, gate, same]

theorem setGate_gates (gates : p.gates ≠ []) (i : Nat) (g : Gate) : (p.setGate i g).gates ≠ [] := by
  simpa [setGate] using gates

theorem mem_ticketsSince (gates : p.gates ≠ []) :
    (0, n) ∈ before.ticketsSince p ↔ (before.gate 0).issued ≤ n ∧ n < (p.gate 0).issued := by
  have some := List.length_pos_iff.mpr gates
  simp only [ticketsSince, List.mem_flatMap, List.mem_range, List.mem_map, List.mem_range'_1,
    Prod.mk.injEq]
  constructor
  · rintro ⟨i, _, m, between, rfl, rfl⟩
    omega
  · rintro ⟨since, until_⟩
    exact ⟨0, some, n, by omega, rfl, rfl⟩

/-- What giving up each ticket keeps of the first gate is kept by giving up all. -/
theorem surrender_preserve {P : Gate → Prop} (gates : p.gates ≠ [])
    (one : ∀ g n, (0, n) ∈ tickets → P g → P (g.surrender n)) (start : P (p.gate 0)) :
    P ((p.surrender tickets).gate 0) := by
  induction tickets generalizing p with
  | nil => exact start
  | cons first rest ih =>
      obtain ⟨i, t⟩ := first
      refine ih (setGate_gates gates i _) (fun g n mem => one g n (List.mem_cons_of_mem _ mem)) ?_
      rw [gate_setGate gates]
      split
      · rename_i here
        subst here
        exact one _ t List.mem_cons_self start
      · exact start

theorem surrender_gates (gates : p.gates ≠ []) (tickets : List (Nat × Nat)) :
    (p.surrender tickets).gates ≠ [] := by
  induction tickets generalizing p with
  | nil => exact gates
  | cons first rest ih => exact ih (setGate_gates gates first.1 _)

theorem surrender_issued (gates : p.gates ≠ []) (tickets : List (Nat × Nat)) :
    ((p.surrender tickets).gate 0).issued = (p.gate 0).issued :=
  surrender_preserve (P := fun g => g.issued = (p.gate 0).issued) gates
    (fun g n _ same => (g.surrender_issued n).trans same) rfl

/-- Who waits under another ticket, or was served, does not notice. -/
theorem surrender_others (gates : p.gates ≠ []) (orderly : (p.gate 0).Orderly) :
    ((p.surrender tickets).gate 0).Orderly ∧ ∀ n, (0, n) ∉ tickets →
      ((p.gate 0).Queued n → ((p.surrender tickets).gate 0).Queued n) ∧
        ((p.gate 0).Served n → ((p.surrender tickets).gate 0).Served n) := by
  refine surrender_preserve (P := fun g => g.Orderly ∧ ∀ n, (0, n) ∉ tickets →
    ((p.gate 0).Queued n → g.Queued n) ∧ ((p.gate 0).Served n → g.Served n)) gates ?_
    ⟨orderly, fun _ _ => ⟨id, id⟩⟩
  intro g t mem ⟨orderly, others⟩
  have advances := g.advances_surrender t
  refine ⟨advances.orderly orderly, fun n away => ?_⟩
  have apart : some t ≠ some n := fun same => away (Option.some.inj same ▸ mem)
  obtain ⟨queued, served⟩ := others n away
  exact ⟨fun here => advances.queued n apart (queued here),
    fun here => advances.served n apart (served here)⟩

/-- Whoever gives up all of its tickets, which no one else has, is outside then. -/
theorem surrender_seats (p : Premises) (pl : Place) {rest : List Place} (gates : p.gates ≠ [])
    (seats : (p.gate 0).Seats n (pl :: rest))
    (mine : ∀ t, pl.ticket? = some t → (0, t) ∈ tickets)
    (others : ∀ t, (0, t) ∈ tickets → t ∉ rest.filterMap Place.ticket?) :
    ((p.surrender tickets).gate 0).Seats n (.outside :: rest) := by
  induction tickets generalizing p pl with
  | nil =>
      cases pl with
      | outside => exact seats
      | waiting t | inside t => exact absurd (mine t rfl) List.not_mem_nil
  | cons first left ih =>
      obtain ⟨i, t⟩ := first
      have others' (u : Nat) (mem : (0, u) ∈ left) := others u (List.mem_cons_of_mem _ mem)
      by_cases here : i = 0
      · subst here
        have surrendered := seats.surrender (others t List.mem_cons_self)
        refine ih _ (if pl.ticket? = some t then .outside else pl) (setGate_gates gates 0 _) ?_
          (fun u had => ?_) others'
        · rwa [gate_setGate gates, if_pos rfl]
        · split at had
          · cases had
          · rename_i other
            obtain same | mem := List.mem_cons.mp (mine u had)
            · exact absurd ((Prod.mk.inj same).2 ▸ had) other
            · exact mem
      · refine ih _ pl (setGate_gates gates i _) ?_ (fun u had => ?_) others'
        · rwa [gate_setGate gates, if_neg here]
        · obtain same | mem := List.mem_cons.mp (mine u had)
          · exact absurd (Prod.mk.inj same).1.symm here
          · exact mem

end Premises

namespace Station

/-- The tickets of attempts at the gate of the receiver: each was issued, and to one attempt. -/
structure Ticketed (s : Station) : Prop where
  gates : s.premises.gates ≠ []
  issued : ∀ t ∈ s.attempts, ∀ n, (0, n) ∈ t.tickets → n < s.gate.issued
  apart : ∀ (j k : Nat) (t u : Attempt), j ≠ k → s.attempts[j]? = some t →
    s.attempts[k]? = some u → ∀ n, (0, n) ∈ t.tickets → (0, n) ∉ u.tickets

namespace Ticketed

variable {s s' : Station} {a a' : Ambient} {i k : Nat} {t : Attempt}

theorem same (ticketed : s.Ticketed) (gates : s'.premises.gates = s.premises.gates)
    (attempts : s'.attempts = s.attempts) : s'.Ticketed where
  gates := gates ▸ ticketed.gates
  issued := by
    rw [attempts, gate, Premises.gate, gates]
    exact ticketed.issued
  apart := attempts ▸ ticketed.apart

theorem closeGate (ticketed : s.Ticketed) : s.closeGate.Ticketed where
  gates := Premises.setGate_gates ticketed.gates 0 _
  issued t mem n had := by
    have gate : s.closeGate.gate = s.gate.close := by
      rw [Station.gate, Station.closeGate, Premises.gate_setGate ticketed.gates, if_pos rfl]
    rw [gate]
    exact ticketed.issued t mem n had
  apart := ticketed.apart

/-- Attempts are made that have no tickets. -/
theorem append (ticketed : s.Ticketed) {made : List Attempt}
    (gates : s'.premises.gates = s.premises.gates) (attempts : s'.attempts = s.attempts ++ made)
    (none : ∀ t ∈ made, t.tickets = []) : s'.Ticketed := by
  have new {t : Attempt} (mem : t ∈ made) {n : Nat} : (0, n) ∉ t.tickets := by
    rw [none t mem]
    exact List.not_mem_nil
  -- whoever has a ticket was there before
  have old {j : Nat} {t : Attempt} (ht : s'.attempts[j]? = some t) {n : Nat}
      (had : (0, n) ∈ t.tickets) : s.attempts[j]? = some t := by
    rw [attempts] at ht
    by_cases known : j < s.attempts.length
    · rwa [List.getElem?_append_left known] at ht
    · rw [List.getElem?_append_right (Nat.le_of_not_lt known)] at ht
      exact absurd had (new (List.mem_of_getElem? ht))
  refine ⟨gates ▸ ticketed.gates, fun t mem n had => ?_, fun j k t u ne ht hu n had has => ?_⟩
  · obtain ⟨j, ht⟩ := List.mem_iff_getElem?.mp mem
    rw [gate, Premises.gate, gates]
    exact ticketed.issued t (List.mem_of_getElem? (old ht had)) n had
  · exact ticketed.apart j k t u ne (old ht had) (old hu has) n had has

theorem loop (ticketed : s.Ticketed) {l l' : ReceiveLoop} {made : List Attempt}
    (step : s.LoopStep a a' s' i l l' made) : s'.Ticketed :=
  ticketed.append (by rw [step.frame]) step.accepted.attempts
    fun t mem => (step.accepted.new t mem).tickets

/-- An attempt that steps gets tickets that nobody has. -/
theorem attempt (ticketed : s.Ticketed) (ht : s.attempts[k]? = some t) :
    ({ s with
      premises := (t.program.resume (s.site a t)).1.premises
      attempts := s.attempts.set k (s.resumed a t) } : Station).Ticketed := by
  obtain ⟨_, follows⟩ := t.program.resume_runs (s.site a t)
  have gates := follows.gates (s := s.site a t) ticketed.gates
  have issued : s.gate.issued ≤ (t.program.resume (s.site a t)).1.gate.issued := follows.issued
  have new {n : Nat} (had : (0, n) ∈ (s.resumed a t).tickets) : (0, n) ∈ t.tickets ∨
      s.gate.issued ≤ n ∧ n < (t.program.resume (s.site a t)).1.gate.issued :=
    (List.mem_append.mp had).imp_right (Premises.mem_ticketsSince gates).mp
  refine ⟨gates, fun u mem n had => ?_, fun i j u v ne hu hv n had has => ?_⟩
  · obtain old | rfl := List.mem_or_eq_of_mem_set mem
    · exact Nat.lt_of_lt_of_le (ticketed.issued u old n had) issued
    · obtain old | ⟨_, before⟩ := new had
      · exact Nat.lt_of_lt_of_le (ticketed.issued t (List.mem_of_getElem? ht) n old) issued
      · exact before
  · have known {j : Nat} {u : Attempt} (hu : s.attempts[j]? = some u) (had : (0, n) ∈ u.tickets) :=
      ticketed.issued u (List.mem_of_getElem? hu) n had
    obtain ⟨rfl, rfl⟩ | ⟨_, hu'⟩ := getElem?_set_cases ht hu
    · obtain ⟨rfl, rfl⟩ | ⟨_, hv⟩ := getElem?_set_cases ht hv
      · exact ne rfl
      · obtain old | ⟨since, _⟩ := new had
        · exact ticketed.apart i j t v ne ht hv n old has
        · exact absurd (known hv has) (Nat.not_lt.mpr since)
    · obtain ⟨rfl, rfl⟩ | ⟨_, hv⟩ := getElem?_set_cases ht hv
      · obtain old | ⟨since, _⟩ := new has
        · exact ticketed.apart i j u t ne hu' ht n had old
        · exact absurd (known hu' had) (Nat.not_lt.mpr since)
      · exact ticketed.apart i j u v ne hu' hv n had has

theorem abort (ticketed : s.Ticketed) (abort : s.Abort a a' s') : s'.Ticketed := by
  have before {j : Nat} {t : Attempt} (ht : s'.attempts[j]? = some t) :
      ∃ u, s.attempts[j]? = some u ∧ t.tickets = u.tickets := by
    obtain ⟨u, hu, same⟩ := abort.attempt_before ht
    exact ⟨u, hu, by rw [same]⟩
  have gates : s'.premises.gates ≠ [] := by
    cases abort with
    | intro => exact Premises.surrender_gates ticketed.gates _
  have issued : s'.gate.issued = s.gate.issued := by
    cases abort with
    | intro => exact Premises.surrender_issued ticketed.gates _
  refine ⟨gates, fun t mem n had => ?_, fun j k t u ne ht hu n had has => ?_⟩
  · obtain ⟨j, ht⟩ := List.mem_iff_getElem?.mp mem
    obtain ⟨v, hv, same⟩ := before ht
    rw [issued]
    exact ticketed.issued v (List.mem_of_getElem? hv) n (same ▸ had)
  · obtain ⟨t', ht', same⟩ := before ht
    obtain ⟨u', hu', same'⟩ := before hu
    exact ticketed.apart j k t' u' ne ht' hu' n (same ▸ had) (same' ▸ has)

end Ticketed

end Station

end Courier
