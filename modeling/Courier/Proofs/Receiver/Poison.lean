import Courier.Proofs.Handling.Reasons
import Courier.Proofs.Receiver.Turns
import Mathlib.Data.Finset.Card
import Mathlib.Order.Interval.Finset.Nat

/-!
# Poisonous messages and justified fates

A message that no processor can handle is delivered again and again, by locks that expire, by
settlements that fail and by deliveries given back. Its count grows with each delivery, and past the
limit it goes to no processor any more, so it is handed to processors only so often.

What is completed or dead-lettered was so for a reason: the delivery in question was handled so, or
could not be read.
-/

namespace Courier

open Queue (Record)

namespace Books

variable {base s : Station} {h : List Occurrence}

/-- The processor was handed the delivery of an attempt, and did some of what happened there, by
which it got to some program. -/
def Attended (p : Processor) (s : Station) (h : List Occurrence) (d : Delivery) (own : List Event)
    (z : Program (Verdict Cause)) : Prop :=
  ∃ k t, s.attempts[k]? = some t ∧ t.delivery = d ∧
    p.Did t.handling.context (eventsOf k h) own z

theorem delivered (books : Books base s h []) {k : Nat} {t : Attempt}
    (ht : s.attempts[k]? = some t) : t.delivery ∈ Queue.deliveries (records h) := by
  have mem : t.delivery ∈ s.attempts.map (·.delivery) ++ [] := by
    simpa using ⟨t, List.mem_of_getElem? ht, rfl⟩
  exact books.received.subset mem

theorem issued (books : Books base s h []) {k : Nat} {t : Attempt}
    (ht : s.attempts[k]? = some t) : t.delivery ∈ Queue.issues (records h) :=
  Queue.mem_issues_of_mem (books.delivered ht)

theorem justified (books : Books base s h []) {k : Nat} {t : Attempt}
    (ht : s.attempts[k]? = some t) :
    Justified base.processor t.handling.context (eventsOf k h) :=
  handle_justified (books.told k t ht).runs

/-- Of two attempts for one message the later one has the higher count. -/
theorem count_lt (books : Books base s h []) {i j : Nat} {t u : Attempt} (lt : i < j)
    (ht : s.attempts[i]? = some t) (hu : s.attempts[j]? = some u)
    (same : t.delivery.message.id = u.delivery.message.id) :
    t.delivery.count < u.delivery.count := by
  have received := books.received
  rw [List.append_nil] at received
  have increase := books.accounts.counts_increase.sublist
    (received.trans (Queue.deliveries_sublist _))
  obtain ⟨hi, rfl⟩ := List.getElem?_eq_some_iff.mp ht
  obtain ⟨hj, rfl⟩ := List.getElem?_eq_some_iff.mp hu
  have lt := List.pairwise_iff_getElem.mp increase i j (by simpa using hi) (by simpa using hj) lt
  simpa using lt (by simpa using same)

/-- Of two deliveries of one message that were handed to the processor, the one that was received
later has the higher count. -/
theorem invocations_increase (books : Books base s h []) {i j : Invocation}
    (hi : i ∈ invocations h) (hj : j ∈ invocations h) (lt : i.attempt < j.attempt)
    (same : i.delivery.message.id = j.delivery.message.id) :
    i.delivery.count < j.delivery.count := by
  obtain ⟨t, ht, delivery, _⟩ := books.handed i hi
  obtain ⟨u, hu, delivery', _⟩ := books.handed j hj
  rw [← delivery, ← delivery'] at same ⊢
  exact books.count_lt lt ht hu same

/-- Where a settlement under a token that was issued comes from: the delivery of the token was
received, and it is from a loop that could not read it, or from an attempt to handle it. -/
theorem settlement_origin (books : Books base s h []) {d : Delivery}
    (hd : d ∈ Queue.issues (records h)) {time : Nat} {how : Settling}
    (settled : .settled time d.token how (.ok ()) ∈ records h) :
    d ∈ Queue.deliveries (records h) ∧
      ((∃ f, base.decode d.message = .error f ∧ how = .deadLetter (Station.unreadableReason f)) ∨
        ∃ k t, s.attempts[k]? = some t ∧ t.delivery = d ∧
          .settled how (.ok ()) ∈ eventsOf k h) := by
  obtain ⟨o, ho, told⟩ := List.mem_flatMap.mp settled
  cases o with
  | queue r =>
      obtain rfl : _ = r := by simpa [Occurrence.records] using told
      obtain ⟨d', hd', token, unreadable⟩ := books.rejected _ _ _ _ ho
      obtain rfl := books.accounts.delivery_unique (Queue.mem_issues_of_mem hd') hd token
      exact ⟨hd', .inl unreadable⟩
  | invoked i => simp [Occurrence.records] at told
  | handling time' k d' e =>
      obtain ⟨t, ht, rfl⟩ := books.heard _ _ _ _ ho
      have event : e = .settled how (.ok ()) ∧ d.token = t.delivery.token := by
        cases e with
        | settled how' answer => simp_all [Occurrence.records, Event.records]
        | called e answer => cases e <;> simp [Occurrence.records, Event.records] at told
        | waited p => simp [Occurrence.records, Event.records] at told
      obtain ⟨rfl, token⟩ := event
      obtain rfl := books.accounts.delivery_unique (books.issued ht) hd token.symm
      exact ⟨books.delivered ht,
        .inr ⟨k, t, ht, rfl, List.mem_filterMap.mpr ⟨_, ho, if_pos rfl⟩⟩⟩

/-- What is completed was handed to the processor, which passed or completed it itself. -/
theorem completed (books : Books base s h []) {e : Settled} (he : e ∈ s.premises.queue.completed) :
    ∃ d ∈ Queue.deliveries (records h), e = d.outcome none ∧
      ∃ own z, Attended base.processor s h d own z ∧
        (.settled .complete (.ok ()) ∈ own ∨ z = .done .passed) := by
  obtain ⟨d, issued, time, settled, same⟩ := books.fates.completed e he
  obtain ⟨hd, ⟨f, _, how⟩ | ⟨k, t, ht, delivery, event⟩⟩ := books.settlement_origin issued settled
  · simp at how
  · obtain ⟨own, z, did, why⟩ := (books.justified ht).completed event
    exact ⟨d, hd, same, own, z, ⟨k, t, ht, delivery, did⟩, why⟩

/-- What is dead-lettered could not be read, was delivered too often, or was dead-lettered by the
processor itself. -/
theorem deadLettered (books : Books base s h []) {e : Settled}
    (he : e ∈ s.premises.queue.deadLettered) :
    ∃ d ∈ Queue.deliveries (records h), ∃ reason, e = d.outcome (some reason) ∧
      ((∃ f, base.decode d.message = .error f ∧ reason = Station.unreadableReason f) ∨
        (base.receiver.settings.deadLetterDeliveryLimit < d.count ∧
          reason = Stage.limitReason d.count base.receiver.settings.deadLetterDeliveryLimit) ∨
        ∃ own z, Attended base.processor s h d own z ∧
          .settled (.deadLetter reason) (.ok ()) ∈ own) := by
  obtain ⟨d, issued, time, reason, settled, same⟩ := books.fates.deadLettered e he
  obtain ⟨hd, origin⟩ := books.settlement_origin issued settled
  refine ⟨d, hd, reason, same, ?_⟩
  obtain ⟨f, unreadable, how⟩ | ⟨k, t, ht, delivery, event⟩ := origin
  · exact .inl ⟨f, unreadable, Settling.deadLetter.inj how⟩
  · obtain beyond | ⟨own, z, did, mem⟩ := (books.justified ht).deadLettered event
    · rw [(books.told k t ht).limit] at beyond
      subst delivery
      exact .inr (.inl beyond)
    · exact .inr (.inr ⟨own, z, ⟨k, t, ht, delivery, did⟩, mem⟩)

end Books

/-- Deliveries of one message that are handed to the processor at different instants have
increasing counts. -/
theorem Turns.counts_increase {base s : Station} {now : Nat} {h : List Occurrence}
    (turns : Turns base now s h []) {i j : Invocation} (hi : i ∈ invocations h)
    (hj : j ∈ invocations h) (same : i.delivery.message.id = j.delivery.message.id)
    (before : i.time < j.time) : i.delivery.count < j.delivery.count := by
  obtain lt | eq | gt := Nat.lt_trichotomy i.attempt j.attempt
  · exact turns.books.invocations_increase hi hj lt same
  · obtain rfl := List.inj_on_of_nodup_map turns.books.once hi hj eq
    exact absurd before (Nat.lt_irrefl _)
  · exact absurd before (Nat.not_lt_of_le (turns.order.ordered j hj i hi gt same.symm))

/-! ## What holds of every duty -/

end Courier
