import Courier.Proofs.Places
import Courier.Proofs.Queue.Fates
import Courier.Proofs.Receiver.Duty

/-!
# The books of a receiver

`Books` relates a receiver without stages of its own to the history of its duty. Its queue keeps
account of the messages; its attempts are for deliveries that were made, in their order; what
happened in an attempt is a run of `handle` up to what is left of its program; and whatever the
loops settled themselves could not be read.

A loop goes through a batch one delivery after the other. The deliveries of the batch that it has
not come to yet are `pending`.
-/

namespace Courier

open Program (Runs)
open Queue (Record Moves Accounts Fates)

/-- What happened in an attempt is how far its handling has come. -/
structure Chronicle (limit : UInt32) (p : Processor) (t : Attempt) (events : List Event) :
    Prop where
  limit : t.handling.context.limit = limit
  runs : Runs (handle 0 [] p t.handling.context) {} events t.handling.settlement t.program
  invoked : t.handling.invoked = events.any Event.isInvoke

/-- What a receiver was made with. -/
def Station.terms (s : Station) : Receiver × Format × Schema × List Stage × Processor :=
  (s.receiver, s.format, s.schema, s.own, s.processor)

theorem Station.terms_eq {s s' : Station} (h : s.terms = s'.terms) :
    s.receiver = s'.receiver ∧ s.format = s'.format ∧ s.schema = s'.schema ∧ s.own = s'.own ∧
      s.processor = s'.processor := by
  simpa only [terms, Prod.mk.injEq] using h

theorem Station.decode_eq {s s' : Station} (h : s.terms = s'.terms) : s.decode = s'.decode := by
  obtain ⟨_, format, schema, _⟩ := terms_eq h
  funext m
  simp only [decode, format, schema]

/-- What a receiver has come to is what its history tells; `base` is the receiver at the
beginning. -/
structure Books (base s : Station) (h : List Occurrence) (pending : List Delivery) : Prop where
  terms : s.terms = base.terms
  plain : base.own = []
  accounts : Accounts s.premises.queue (Queue.sends (records h)) (Queue.issues (records h))
    (Queue.losses (records h))
  fates : Fates s.premises.queue (records h)
  received : (s.attempts.map (·.delivery) ++ pending).Sublist (Queue.deliveries (records h))
  rejected : ∀ time token how answer, .queue (.settled time token how answer) ∈ h →
    ∃ d ∈ Queue.deliveries (records h), d.token = token ∧
      ∃ f, base.decode d.message = .error f ∧ how = .deadLetter (Station.unreadableReason f)
  heard : ∀ time k d e, .handling time k d e ∈ h → ∃ t, s.attempts[k]? = some t ∧ t.delivery = d
  told : ∀ k t, s.attempts[k]? = some t →
    Chronicle base.receiver.settings.deadLetterDeliveryLimit base.processor t (eventsOf k h)
  once : ((invocations h).map (·.attempt)).Nodup
  handed : ∀ i ∈ invocations h,
    ∃ t, s.attempts[i.attempt]? = some t ∧ t.delivery = i.delivery ∧ t.handling.invoked = true

theorem eventsOf_eq_nil {k : Nat} {h : List Occurrence}
    (silent : ∀ time d e, .handling time k d e ∉ h) : eventsOf k h = [] := by
  apply List.filterMap_eq_nil_iff.mpr
  intro o mem
  cases o with
  | queue r => rfl
  | invoked i => rfl
  | handling time j d e =>
      apply if_neg
      rintro rfl
      exact silent time d e mem

namespace Books

variable {base s : Station} {h : List Occurrence} {pending : List Delivery}

/-- What is not in the books may change. -/
theorem same (books : Books base s h pending) {s' : Station} (terms : s'.terms = s.terms)
    (queue : s'.premises.queue = s.premises.queue) (attempts : s'.attempts = s.attempts) :
    Books base s' h pending where
  terms := terms.trans books.terms
  plain := books.plain
  accounts := by rw [queue]; exact books.accounts
  fates := by rw [queue]; exact books.fates
  received := by rw [attempts]; exact books.received
  rejected := books.rejected
  heard := by rw [attempts]; exact books.heard
  told := by rw [attempts]; exact books.told
  once := books.once
  handed := by rw [attempts]; exact books.handed

/-- An attempt is aborted. It was in the books as it is now. -/
theorem abort (books : Books base s h pending) {a a' : Ambient} {s' : Station}
    (abort : s.Abort a a' s') : Books base s' h pending := by
  have frame : s'.terms = s.terms := by
    cases abort
    rfl
  refine ⟨frame.trans books.terms, books.plain, ?_, ?_, ?_, books.rejected, ?_, ?_, books.once, ?_⟩
  · rw [abort.queue]
    exact books.accounts
  · rw [abort.queue]
    exact books.fates
  · have same : s'.attempts.map (·.delivery) = s.attempts.map (·.delivery) := abort.deliveries
    rw [same]
    exact books.received
  · intro time k d e mem
    obtain ⟨t, ht, same⟩ := books.heard time k d e mem
    obtain ⟨b, ht'⟩ := abort.attempt ht
    exact ⟨_, ht', same⟩
  · intro k t ht
    obtain ⟨u, hu, same⟩ := abort.attempt_before ht
    obtain ⟨limit, runs, invoked⟩ := books.told k u hu
    rw [same]
    exact ⟨limit, runs, invoked⟩
  · intro i mem
    obtain ⟨t, ht, same⟩ := books.handed i mem
    obtain ⟨b, ht'⟩ := abort.attempt ht
    exact ⟨_, ht', same⟩

/-- The queue moves outside of attempts. -/
theorem queue (books : Books base s h pending) {now : Nat} {q : Queue} {rs : List Record}
    (moves : Moves now s.premises.queue rs q) {pending' : List Delivery}
    (received : (s.attempts.map (·.delivery) ++ pending').Sublist
      (Queue.deliveries (records h) ++ Queue.deliveries rs))
    (rejected : ∀ time token how answer, .settled time token how answer ∈ rs →
      ∃ d ∈ Queue.deliveries (records h), d.token = token ∧
        ∃ f, base.decode d.message = .error f ∧ how = .deadLetter (Station.unreadableReason f)) :
    Books base (s.withQueue q) (h ++ rs.map .queue) pending' where
  terms := books.terms
  plain := books.plain
  accounts := by
    rw [records_append, records_queue]
    exact moves.accounts books.accounts
  fates := by
    rw [records_append, records_queue]
    exact moves.fates books.accounts books.fates
  received := by
    rw [records_append, records_queue, Queue.deliveries_append]
    exact received
  rejected time token how answer mem := by
    have known : ∃ d ∈ Queue.deliveries (records h), d.token = token ∧
        ∃ f, base.decode d.message = .error f ∧ how = .deadLetter (Station.unreadableReason f) := by
      obtain mem | mem := List.mem_append.mp mem
      · exact books.rejected time token how answer mem
      · obtain ⟨r, mem, same⟩ := List.mem_map.mp mem
        rw [Occurrence.queue.injEq] at same
        exact rejected time token how answer (same ▸ mem)
    obtain ⟨d, hd, same⟩ := known
    exact ⟨d, by simp [hd], same⟩
  heard time k d e mem := by
    have before : .handling time k d e ∈ h := by simpa using mem
    exact books.heard time k d e before
  told k t ht := by
    rw [eventsOf_append, eventsOf_queue, List.append_nil]
    exact books.told k t ht
  once := by simpa using books.once
  handed i mem := by
    have before : i ∈ invocations h := by simpa using mem
    exact books.handed i before

/-- Others use the queue, and loops receive, but nothing is settled. -/
theorem unsettled (books : Books base s h pending) {now : Nat} {q : Queue} {rs : List Record}
    (moves : Moves now s.premises.queue rs q)
    (unsettled : ∀ time token how answer, .settled time token how answer ∉ rs) :
    Books base (s.withQueue q) (h ++ rs.map .queue) (pending ++ Queue.deliveries rs) := by
  refine books.queue moves ?_ fun time token how answer mem =>
    absurd mem (unsettled time token how answer)
  rw [← List.append_assoc]
  exact books.received.append (.refl _)

/-- A delivery that cannot be read is dead-lettered. -/
theorem reject {d : Delivery} (books : Books base s h (d :: pending)) {f : CodecFault}
    (unreadable : base.decode d.message = .error f) (a : Ambient) :
    let how : Settling := .deadLetter (Station.unreadableReason f)
    Books base (s.reject a d f).2
      (h ++ [.queue (.settled a.now d.token how (s.premises.queue.settle a.now d.token how).2)])
      pending := by
  intro how
  have hd : d ∈ Queue.deliveries (records h) := books.received.subset (by simp)
  rw [s.reject_station]
  refine books.queue (Queue.settle_moves a.now s.premises.queue d.token how) ?_ ?_
  · rw [Queue.deliveries_settled, Queue.deliveries_nil, List.append_nil]
    exact .trans (.append_left (List.sublist_cons_self d pending) _) books.received
  · intro time token how' answer mem
    simp only [List.mem_singleton, Record.settled.injEq] at mem
    obtain ⟨rfl, rfl, rfl, rfl⟩ := mem
    exact ⟨d, hd, rfl, f, unreadable, rfl⟩

/-- A delivery is handed to a new attempt. -/
theorem dispatch {d : Delivery} (books : Books base s h (d :: pending)) (a : Ambient) (i : Nat)
    (l : ReceiveLoop) (payload : Payload) :
    Books base (s.dispatch a i l d payload).2 h pending where
  terms := books.terms
  plain := books.plain
  accounts := books.accounts
  fates := books.fates
  received := by
    have received := books.received
    rw [← List.singleton_append, ← List.append_assoc] at received
    simpa [Station.dispatch, Attempt.delivery, Handling.start] using received
  rejected := books.rejected
  heard time k d' e mem := by
    obtain ⟨t, ht, same⟩ := books.heard time k d' e mem
    exact ⟨t, getElem?_append_of_some ht _, same⟩
  told k t ht := by
    obtain ht | ⟨rfl, rfl⟩ := getElem?_concat_cases ht
    · exact books.told k t ht
    · have silent : eventsOf s.attempts.length h = [] := by
        apply eventsOf_eq_nil
        intro time d' e mem
        obtain ⟨t, ht, _⟩ := books.heard time _ d' e mem
        simp at ht
      obtain ⟨receiver, _, _, own, processor⟩ := Station.terms_eq books.terms
      rw [books.plain] at own
      rw [silent]
      simp only [own, processor, receiver]
      exact ⟨rfl, .refl _ _, rfl⟩
  once := books.once
  handed i mem := by
    obtain ⟨t, ht, same⟩ := books.handed i mem
    exact ⟨t, getElem?_append_of_some ht _, same⟩

/-- An attempt goes on. -/
theorem resume (books : Books base s h pending) {a : Ambient} {k : Nat} {t : Attempt}
    (ht : s.attempts[k]? = some t) :
    Books base
      { s with
        premises := (t.program.resume (s.site a t)).1.premises
        attempts := s.attempts.set k (s.resumed a t) }
      (h ++ s.attemptOccurrences a k t) pending := by
  obtain ⟨runs, follows⟩ := t.program.resume_runs (s.site a t)
  have moves := follows.moves
  have here : (s.attempts.set k (s.resumed a t))[k]? = some (s.resumed a t) :=
    List.getElem?_set_self (List.getElem?_eq_some_iff.mp ht).1
  have elsewhere {j : Nat} (other : k ≠ j) :
      (s.attempts.set k (s.resumed a t))[j]? = s.attempts[j]? := List.getElem?_set_ne other
  refine ⟨books.terms, books.plain, ?accounts, ?fates, ?received, ?rejected, ?heard, ?told, ?once,
    ?handed⟩
  case accounts =>
    rw [records_append, Station.records_attemptOccurrences]
    exact moves.accounts books.accounts
  case fates =>
    rw [records_append, Station.records_attemptOccurrences]
    exact moves.fates books.accounts books.fates
  case received =>
    have deliveries : (s.attempts.set k (s.resumed a t)).map (·.delivery) =
        s.attempts.map (·.delivery) := map_set_same ht (s.resumed_delivery a t)
    rw [deliveries, records_append, Queue.deliveries_append]
    exact books.received.trans (List.sublist_append_left _ _)
  case rejected =>
    intro time token how answer mem
    obtain mem | mem := List.mem_append.mp mem
    · obtain ⟨d, hd, same⟩ := books.rejected time token how answer mem
      exact ⟨d, by simp [hd], same⟩
    · exact absurd mem (s.not_queue_attemptOccurrences a k t _)
  case heard =>
    intro time j d e mem
    obtain mem | mem := List.mem_append.mp mem
    · obtain ⟨t', ht', rfl⟩ := books.heard time j d e mem
      by_cases other : k = j
      · subst other
        obtain rfl := Option.some.inj (ht.symm.trans ht')
        exact ⟨_, here, s.resumed_delivery a t⟩
      · exact ⟨t', (elsewhere other).trans ht', rfl⟩
    · obtain ⟨rfl, rfl⟩ := s.of_handling_attemptOccurrences a k t mem
      exact ⟨_, here, s.resumed_delivery a t⟩
  case told =>
    intro j t' ht'
    rw [eventsOf_append, Station.eventsOf_attemptOccurrences]
    by_cases other : k = j
    · subst other
      obtain rfl := Option.some.inj (here.symm.trans ht')
      obtain ⟨limit, before, invoked⟩ := books.told k t ht
      rw [if_pos rfl]
      refine ⟨?_, ?_, ?_⟩
      · rw [s.resumed_context a t, limit]
      · rw [s.resumed_context a t]
        exact before.trans runs
      · rw [s.resumed_invoked a t, List.any_append, invoked]
    · rw [if_neg other, List.append_nil]
      exact books.told j t' ((elsewhere other).symm.trans ht')
  case once =>
    rw [invocations_append, Station.invocations_attemptOccurrences]
    split
    · rename_i now_invoked
      simp only [Bool.and_eq_true, Bool.not_eq_true'] at now_invoked
      have fresh : k ∉ (invocations h).map (·.attempt) := by
        intro mem
        obtain ⟨i, listed, rfl⟩ := List.mem_map.mp mem
        obtain ⟨t', ht', _, invoked⟩ := books.handed i listed
        obtain rfl := Option.some.inj (ht.symm.trans ht')
        simp [invoked] at now_invoked
      rw [List.map_append]
      exact List.nodup_append.mpr ⟨books.once, by simp, fun j hj _ hk => by
        obtain rfl := List.mem_singleton.mp hk
        exact fun same => fresh (same ▸ hj)⟩
    · rw [List.append_nil]
      exact books.once
  case handed =>
    intro i mem
    rw [invocations_append] at mem
    obtain mem | mem := List.mem_append.mp mem
    · obtain ⟨t', ht', same, invoked⟩ := books.handed i mem
      by_cases other : k = i.attempt
      · subst other
        obtain rfl := Option.some.inj (ht.symm.trans ht')
        refine ⟨_, here, (s.resumed_delivery a t).trans same, ?_⟩
        rw [s.resumed_invoked a t, invoked, Bool.true_or]
      · exact ⟨t', (elsewhere other).trans ht', same, invoked⟩
    · obtain ⟨rfl, _, invoked⟩ := s.of_mem_invocations a k t mem
      exact ⟨_, here, s.resumed_delivery a t, invoked⟩

/-- Attempts and deliveries that are pending have different tokens. -/
theorem tokens_nodup (books : Books base s h pending) :
    ((s.attempts.map (·.delivery) ++ pending).map (·.token)).Nodup :=
  books.accounts.tokens_nodup.sublist
    ((books.received.trans (Queue.deliveries_sublist _)).map _)

theorem attempts_apart (books : Books base s h pending) {j k : Nat} {t u : Attempt} (other : j ≠ k)
    (ht : s.attempts[j]? = some t) (hu : s.attempts[k]? = some u) :
    t.delivery.token ≠ u.delivery.token := by
  have nodup := books.tokens_nodup
  rw [List.map_append, List.map_map, List.nodup_append] at nodup
  obtain ⟨within, _⟩ := List.getElem?_eq_some_iff.mp ht
  exact fun same => other ((List.getElem?_inj (by simpa using within) nodup.1).mp
    (by simp [ht, hu, same]))

theorem pending_apart (books : Books base s h pending) {k : Nat} {t : Attempt} {d : Delivery}
    (ht : s.attempts[k]? = some t) (hd : d ∈ pending) : t.delivery.token ≠ d.token := by
  have nodup := books.tokens_nodup
  rw [List.map_append, List.map_map, List.nodup_append] at nodup
  exact nodup.2.2 _ (List.mem_map.mpr ⟨t, List.mem_of_getElem? ht, rfl⟩) _ (List.mem_map_of_mem hd)

/-! ## Steps -/

/-- A loop goes through a batch. -/
theorem acceptAll {deliveries : List Delivery} (books : Books base s h deliveries) (a : Ambient)
    (i : Nat) (l : ReceiveLoop) :
    Books base (Station.acceptAll i l a s deliveries).2.1
      (h ++ (Station.rejections s.decode a.now s.premises.queue deliveries).map .queue) [] := by
  induction deliveries generalizing a s h with
  | nil => simpa [Station.acceptAll, Station.rejections] using books
  | cons d rest ih =>
      simp only [Station.acceptAll, Station.rejections]
      cases readable : s.decode d.message with
      | ok payload => exact ih (books.dispatch a i l payload) _
      | error f =>
          have unreadable : base.decode d.message = .error f := by
            rw [← readable, Station.decode_eq books.terms]
          have later := ih (books.reject unreadable a) (s.reject a d f).1
          rw [s.reject_now, s.reject_decode, s.reject_queue, List.append_assoc] at later
          exact later

/-- A loop goes on from a look into its queue. -/
theorem hear (books : Books base s h []) (a : Ambient) (i : Nat) (l : ReceiveLoop)
    (lock : Duration) {seen : Queue × Receiving.Outcome}
    (moves : Moves a.now s.premises.queue (seen.2.records a.now lock) seen.1) :
    Books base (Station.hear a s i l seen).2
      (h ++ (s.lookRecords a.now lock seen.1 seen.2).map .queue) [] := by
  obtain ⟨q, o⟩ := seen
  have looked := books.unsettled moves fun time token how answer =>
    Receiving.settled_not_mem_records
  cases o with
  | waiting r => exact looked.same rfl rfl rfl
  | overflow spill =>
      rw [Receiving.deliveries_records_overflow] at looked
      simp only [Station.lookRecords, List.append_nil]
      exact looked.same rfl rfl rfl
  | failed f => cases f <;> exact looked.same rfl rfl rfl
  | batch ds =>
      simp only [Receiving.Outcome.records, Queue.deliveries_batch, List.nil_append] at looked
      have accepted := looked.acceptAll a i l
      simp only [Station.lookRecords, Receiving.Outcome.records, List.map_append,
        ← List.append_assoc]
      exact accepted.same rfl rfl rfl

/-- A step of a loop. -/
theorem loop (books : Books base s h []) {a a' : Ambient} {s' : Station} {i : Nat}
    (step : s.stepLoop a i = some (a', s')) :
    Books base s' (h ++ (s.loopRecords a i).map .queue) [] := by
  obtain ⟨a₁, s₁, after, cases⟩ := Station.stepLoop_cases step
  have stepped : Books base s₁ (h ++ (s.loopRecords a i).map .queue) [] := by
    obtain ⟨look, _, l, _, rfl⟩ | ⟨lock, ⟨q, o⟩, l, look, heard⟩ := cases
    · simp only [Station.loopRecords, look, List.map_nil, List.append_nil]
      exact books.same rfl rfl rfl
    · rw [Station.loopRecords, look]
      obtain rfl : s₁ = (Station.hear a s i l (q, o)).2 := congrArg Prod.snd heard
      exact books.hear a i l lock (Station.look?_moves look)
  exact after.aborts.preserve (P := fun _ s' => Books base s' _ [])
    (fun abort books => books.abort abort) stepped

/-- A step of an attempt. -/
theorem attempt (books : Books base s h []) {a a' : Ambient} {s' : Station} {k : Nat} {t : Attempt}
    (ht : s.attempts[k]? = some t) (step : s.stepAttempt a k = some (a', s')) :
    Books base s' (h ++ s.attemptOccurrences a k t) [] := by
  obtain ⟨t', ht', _, _, _, rfl⟩ := Station.stepAttempt_cases step
  obtain rfl := Option.some.inj (ht.symm.trans ht')
  exact books.resume ht

end Books

/-! ## Runs -/

namespace Duty

end Duty

end Courier
