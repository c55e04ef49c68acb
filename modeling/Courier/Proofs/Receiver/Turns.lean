import Courier.Proofs.Receiver.Line
import Courier.Proofs.Receiver.Tickets

/-!
# Attempts take turns

Attempts for one message may overlap: a message is delivered again when the lock of the delivery
before has expired, whatever has become of the attempt to handle that. Still the processor gets the
deliveries of a message in their order, as long as attempts that can step do so before time passes:
the earlier attempt has asked the gate for admission when the later one begins, and the gate serves
in order.

`Turns` is the invariant behind this. It joins the books of a receiver and the fence of its queue
with the line before its gate and with the order in which deliveries were handed over.
-/

namespace Courier

open Queue (Record Moves Fence Spent Settleable)

/-! ## The order of invocations -/

/-- The deliveries of a message were handed over in their order. The delivery of an attempt was
handed over just now, unless all earlier attempts for the message are behind admission or were
aborted. -/
structure InOrder (now : Nat) (attempts : List Attempt) (told : List Invocation) : Prop where
  past : ∀ i ∈ told, i.time ≤ now
  current : ∀ i ∈ told, ∀ (j : Nat) (t : Attempt), j < i.attempt → attempts[j]? = some t →
    t.delivery.message.id = i.delivery.message.id → t.aborted = true ∨ t.Behind ∨ i.time = now
  ordered : ∀ i ∈ told, ∀ j ∈ told, i.attempt < j.attempt →
    i.delivery.message.id = j.delivery.message.id → i.time ≤ j.time

namespace InOrder

variable {now : Nat} {attempts : List Attempt} {told : List Invocation}

theorem append (order : InOrder now attempts told)
    (known : ∀ i ∈ told, i.attempt < attempts.length) (new : Attempt) :
    InOrder now (attempts ++ [new]) told where
  past := order.past
  current i hi j t lt ht same := by
    obtain ht | ⟨rfl, _⟩ := getElem?_concat_cases ht
    · exact order.current i hi j t lt ht same
    · exact absurd (known i hi) (Nat.lt_asymm lt)
  ordered := order.ordered

/-- An attempt steps, and hands its delivery over if it was not behind admission before. -/
theorem set (order : InOrder now attempts told) {k : Nat} {t t' : Attempt}
    (ht : attempts[k]? = some t) (kept : t.aborted = false) (delivery : t'.delivery = t.delivery)
    (behind : t.Behind → t'.Behind ∧ t'.handling.invoked = t.handling.invoked)
    {told' : List Invocation}
    (newly : ∀ i ∈ told', i ∈ told ∨
      i = ⟨now, k, t.delivery⟩ ∧ t.handling.invoked = false ∧ t'.handling.invoked = true) :
    InOrder now (attempts.set k t') told' := by
  refine ⟨?past, ?current, ?ordered⟩
  case past =>
    intro i hi
    obtain hi' | ⟨rfl, _⟩ := newly i hi
    · exact order.past i hi'
    · exact Nat.le_refl _
  case current =>
    intro i hi j u lt hu same
    obtain hi' | ⟨rfl, _⟩ := newly i hi
    · obtain ⟨rfl, rfl⟩ | ⟨_, hu'⟩ := getElem?_set_cases ht hu
      · rw [delivery] at same
        obtain aborted | here := order.current i hi' j t lt ht same
        · simp [kept] at aborted
        · exact .inr (here.imp_left fun before => (behind before).1)
      · exact order.current i hi' j u lt hu' same
    · exact .inr (.inr rfl)
  case ordered =>
    intro i hi j hj lt same
    obtain hi' | ⟨rfl, new, invoked⟩ := newly i hi
    · obtain hj' | ⟨rfl, _⟩ := newly j hj
      · exact order.ordered i hi' j hj' lt same
      · exact order.past i hi'
    · obtain hj' | ⟨rfl, _⟩ := newly j hj
      · obtain aborted | before | now := order.current j hj' k t lt ht same
        · simp [kept] at aborted
        · rw [(behind before).2, new] at invoked
          simp at invoked
        · exact Nat.le_of_eq now.symm
      · exact absurd lt (Nat.lt_irrefl _)

/-- An attempt is aborted. -/
theorem abort (order : InOrder now attempts told) {k : Nat} {t : Attempt}
    (ht : attempts[k]? = some t) :
    InOrder now (attempts.set k { t with aborted := true }) told where
  past := order.past
  current i hi j u lt hu same := by
    obtain ⟨rfl, rfl⟩ | ⟨_, hu'⟩ := getElem?_set_cases ht hu
    · exact .inl rfl
    · exact order.current i hi j u lt hu' same
  ordered := order.ordered

end InOrder

/-! ## The invariant -/

/-- How the attempts of a receiver take their turns at an instant. Deliveries that are `pending` can
be settled. -/
structure Turns (base : Station) (now : Nat) (s : Station) (h : List Occurrence)
    (pending : List Delivery) : Prop where
  books : Books base s h pending
  fence : Fence now s.premises.queue (records h)
  ticketed : s.Ticketed
  locks : ∀ l ∈ s.loops, ∀ lock, l.phase.lock? = some lock → 0 < lock.nanoseconds
  live : ∀ d ∈ pending, Settleable (records h) now d.token
  line : Line base.processor now (records h) s.gate s.attempts
  order : InOrder now s.attempts (invocations h)

theorem spent_of_events {now : Nat} {token token' : LockToken} {events : List Event}
    (spent : Spent (events.flatMap (Event.records now token)) token') : token' = token := by
  obtain ⟨time, how, mem⟩ := spent
  obtain ⟨e, _, mem⟩ := List.mem_flatMap.mp mem
  cases e with
  | settled how' answer => simp_all [Event.records]
  | called e answer => cases e <;> simp [Event.records] at mem
  | waited p => simp [Event.records] at mem

namespace Turns

variable {base s : Station} {now : Nat} {h : List Occurrence} {pending : List Delivery}

/-- What has nothing to do with the turns may change. -/
theorem same (turns : Turns base now s h pending) {s' : Station} (terms : s'.terms = s.terms)
    (queue : s'.premises.queue = s.premises.queue) (gates : s'.premises.gates = s.premises.gates)
    (attempts : s'.attempts = s.attempts)
    (locks : ∀ l ∈ s'.loops, ∀ lock, l.phase.lock? = some lock → 0 < lock.nanoseconds) :
    Turns base now s' h pending := by
  have gate : s'.gate = s.gate := by simp only [Station.gate, Premises.gate, gates]
  refine ⟨turns.books.same terms queue attempts, ?_, ?_, locks, turns.live, ?_, ?_⟩
  · rw [queue]
    exact turns.fence
  · exact turns.ticketed.same gates attempts
  · rw [gate, attempts]
    exact turns.line
  · rw [attempts]
    exact turns.order

/-- The gate is closed. -/
theorem closeGate (turns : Turns base now s h pending) : Turns base now s.closeGate h pending := by
  have gate : s.closeGate.gate = s.gate.close := by
    rw [Station.gate, Station.closeGate, Premises.gate_setGate turns.ticketed.gates, if_pos rfl]
  refine ⟨turns.books.same rfl rfl rfl, turns.fence, turns.ticketed.closeGate, turns.locks,
    turns.live, ?_, turns.order⟩
  rw [gate]
  exact turns.line.advance s.gate.advances_close

/-- An attempt is aborted. Only its own tickets lose their places. -/
theorem abort (turns : Turns base now s h pending) {a a' : Ambient} {s' : Station}
    (abort : s.Abort a a' s') : Turns base now s' h pending := by
  have gates := turns.ticketed.gates
  refine ⟨turns.books.abort abort, abort.queue ▸ turns.fence, turns.ticketed.abort abort,
    abort.loops ▸ turns.locks, turns.live, ?line, ?order⟩
  case line =>
    cases abort with
    | intro telemetry ht =>
        obtain ⟨orderly, others⟩ := Premises.surrender_others gates turns.line.orderly
        exact turns.line.abort turns.ticketed.apart ht orderly others
  case order =>
    cases abort with
    | intro telemetry ht => exact turns.order.abort ht

/-- The queue moves outside of attempts, and uses no token of an attempt. -/
theorem queue (turns : Turns base now s h pending) {q : Queue} {rs : List Record}
    (moves : Moves now s.premises.queue rs q) {pending' : List Delivery}
    (books : Books base (s.withQueue q) (h ++ rs.map .queue) pending')
    (live : ∀ d ∈ pending', Settleable (records h ++ rs) now d.token)
    (unspent : ∀ (k : Nat) (t : Attempt), s.attempts[k]? = some t → ¬Spent rs t.delivery.token) :
    Turns base now (s.withQueue q) (h ++ rs.map .queue) pending' where
  books := books
  fence := by
    rw [records_append, records_queue]
    exact moves.fence turns.fence
  ticketed := turns.ticketed.same rfl rfl
  locks := turns.locks
  live := by rwa [records_append, records_queue]
  line := by
    rw [records_append, records_queue]
    exact turns.line.record unspent
  order := by
    rw [invocations_append, invocations_queue, List.append_nil]
    exact turns.order

/-- Others use the queue, and loops receive, but nothing is settled. -/
theorem unsettled (turns : Turns base now s h pending) {q : Queue} {rs : List Record}
    (moves : Moves now s.premises.queue rs q)
    (unsettled : ∀ time token how answer, .settled time token how answer ∉ rs)
    (locked : ∀ time lock d, .delivered time lock d ∈ rs → time = now ∧ 0 < lock.nanoseconds) :
    Turns base now (s.withQueue q) (h ++ rs.map .queue) (pending ++ Queue.deliveries rs) := by
  have unspent : ∀ token, ¬Spent rs token :=
    fun token ⟨time, how, mem⟩ => unsettled time token how _ mem
  refine turns.queue moves (turns.books.unsettled moves unsettled) ?_
    fun _ t _ => unspent t.delivery.token
  intro d hd
  obtain hd | hd := List.mem_append.mp hd
  · exact (turns.live d hd).append (unspent d.token)
  · obtain ⟨r, mem, told⟩ := List.mem_filterMap.mp hd
    cases r with
    | delivered time lock d' =>
        obtain rfl := Option.some.inj told
        obtain ⟨rfl, positive⟩ := locked _ _ _ mem
        exact turns.fence.settleable_delivered (moves.fence turns.fence) mem positive
          (unspent d'.token)
    | sent | settled | stranded | lost => cases told

/-- A delivery that cannot be read is dead-lettered. -/
theorem reject {a : Ambient} {d : Delivery} (turns : Turns base a.now s h (d :: pending))
    {f : CodecFault} (unreadable : base.decode d.message = .error f) :
    let how : Settling := .deadLetter (Station.unreadableReason f)
    Turns base a.now (s.reject a d f).2
      (h ++ [.queue (.settled a.now d.token how (s.premises.queue.settle a.now d.token how).2)])
      pending := by
  intro how
  have books := turns.books.reject unreadable a
  have nodup := turns.books.tokens_nodup
  rw [s.reject_station] at books ⊢
  have spends : ∀ {token}, Spent [.settled a.now d.token how
      (s.premises.queue.settle a.now d.token how).2] token → token = d.token := by
    rintro token ⟨time, how', mem⟩
    exact (Record.settled.inj (List.mem_singleton.mp mem)).2.1
  refine turns.queue (Queue.settle_moves a.now s.premises.queue d.token how) books
    (fun e he => ?_) fun k t ht spent => ?_
  · refine (turns.live e (List.mem_cons_of_mem d he)).append ?_
    intro spent
    simp only [List.map_append, List.map_cons, List.nodup_append, List.nodup_cons] at nodup
    exact nodup.2.1.1 (spends spent ▸ List.mem_map_of_mem he)
  · exact turns.books.pending_apart ht List.mem_cons_self (spends spent)

/-- A delivery is handed to a new attempt. All earlier attempts for its message have asked for
admission, since of the deliveries of a message only one can still be settled. -/
theorem dispatch {d : Delivery} (turns : Turns base now s h (d :: pending)) (a : Ambient) (i : Nat)
    (l : ReceiveLoop) (payload : Payload) :
    Turns base now (s.dispatch a i l d payload).2 h pending := by
  have books := turns.books.dispatch a i l payload
  obtain ⟨new, attempts, fresh, delivery⟩ : ∃ u : Attempt,
      (s.dispatch a i l d payload).2.attempts = s.attempts ++ [u] ∧ u.Fresh base.processor ∧
        u.delivery = d := by
    obtain ⟨_, _, _, own, processor⟩ := Station.terms_eq turns.books.terms
    refine ⟨_, rfl, ⟨rfl, ?_⟩, rfl⟩
    simp only [own, turns.books.plain, processor]
    rfl
  have settles := turns.live d List.mem_cons_self
  have ticketed : (s.dispatch a i l d payload).2.Ticketed :=
    turns.ticketed.append rfl rfl fun t mem => by
      obtain rfl := List.mem_singleton.mp mem
      rfl
  refine ⟨books, turns.fence, ticketed, turns.locks,
    fun e he => turns.live e (List.mem_cons_of_mem d he), ?line, ?order⟩
  case line =>
    rw [attempts]
    refine turns.line.append fresh (delivery ▸ settles) ?_
    intro k t ht same settles'
    have received := turns.books.received
    have ht' : t.delivery ∈ Queue.issues (records h) := Queue.mem_issues_of_mem <|
      received.subset (by simpa using .inl ⟨t, List.mem_of_getElem? ht, rfl⟩)
    have hd : d ∈ Queue.issues (records h) :=
      Queue.mem_issues_of_mem (received.subset (by simp))
    -- of the two deliveries only one can be settled, but their tokens differ
    have unique := turns.fence.settleable_unique ht' hd (delivery ▸ same) settles' settles
    exact turns.books.pending_apart ht List.mem_cons_self (congrArg Delivery.token unique)
  case order =>
    rw [attempts]
    apply turns.order.append
    intro i hi
    obtain ⟨u, hu, _⟩ := turns.books.handed i hi
    exact (List.getElem?_eq_some_iff.mp hu).1

/-- A loop goes through a batch. -/
theorem acceptAll {a : Ambient} {deliveries : List Delivery}
    (turns : Turns base a.now s h deliveries) (i : Nat) (l : ReceiveLoop) :
    Turns base a.now (Station.acceptAll i l a s deliveries).2.1
      (h ++ (Station.rejections s.decode a.now s.premises.queue deliveries).map .queue) [] := by
  induction deliveries generalizing a s h with
  | nil => simpa [Station.acceptAll, Station.rejections] using turns
  | cons d rest ih =>
      simp only [Station.acceptAll, Station.rejections]
      cases readable : s.decode d.message with
      | ok payload =>
          exact ih (a := (s.dispatch a i l d payload).1) (turns.dispatch a i l payload)
      | error f =>
          have unreadable : base.decode d.message = .error f := by
            rw [← readable, Station.decode_eq turns.books.terms]
          have rejected := turns.reject unreadable
          rw [← s.reject_now a d f] at rejected
          have later := ih rejected
          rw [s.reject_now, s.reject_decode, s.reject_queue, List.append_assoc] at later
          exact later

/-- A loop goes on from a look into its queue. -/
theorem hear {a : Ambient} (turns : Turns base a.now s h []) (i : Nat) (l : ReceiveLoop)
    {lock : Duration} {seen : Queue × Receiving.Outcome}
    (moves : Moves a.now s.premises.queue (seen.2.records a.now lock) seen.1)
    (locked : 0 < lock.nanoseconds) (waits : ∀ r, seen.2 = .waiting r → r.lock = lock) :
    Turns base a.now (Station.hear a s i l seen).2
      (h ++ (s.lookRecords a.now lock seen.1 seen.2).map .queue) [] := by
  have locks : ∀ l' ∈ (Station.hear a s i l seen).2.loops, ∀ lock',
      l'.phase.lock? = some lock' → 0 < lock'.nanoseconds := by
    obtain ⟨l', loops, asked, _⟩ := s.hear_loops a i l seen
    intro m hm lock' asks
    rw [loops] at hm
    obtain hm | rfl := List.mem_or_eq_of_mem_set hm
    · exact turns.locks m hm lock' asks
    · obtain ⟨r, waiting, rfl⟩ := asked lock' asks
      rwa [waits r waiting]
  obtain ⟨q, o⟩ := seen
  have looked := turns.unsettled moves (fun _ _ _ _ => Receiving.settled_not_mem_records)
    fun time period d mem => by
      obtain ⟨rfl, rfl⟩ := Receiving.mem_records mem
      exact ⟨rfl, locked⟩
  cases o with
  | waiting r => exact looked.same rfl rfl rfl rfl locks
  | overflow spill =>
      rw [Receiving.deliveries_records_overflow] at looked
      simp only [Station.lookRecords, List.append_nil]
      exact looked.same rfl rfl rfl rfl locks
  | failed f => cases f <;> exact looked.same rfl rfl rfl rfl locks
  | batch ds =>
      simp only [Receiving.Outcome.records, Queue.deliveries_batch, List.nil_append] at looked
      have accepted := looked.acceptAll i l
      simp only [Station.lookRecords, Receiving.Outcome.records, List.map_append,
        ← List.append_assoc]
      exact accepted.same rfl rfl rfl rfl locks

/-- A step of a loop. -/
theorem loop {a a' : Ambient} {s' : Station} {i : Nat} (turns : Turns base a.now s h [])
    (locked : 0 < base.receiver.settings.lockTimeout.nanoseconds)
    (step : s.stepLoop a i = some (a', s')) :
    Turns base a'.now s' (h ++ (s.loopRecords a i).map .queue) [] := by
  obtain ⟨a₁, s₁, after, cases⟩ := Station.stepLoop_cases step
  have stepped : a₁.clock = a.clock ∧
      Turns base a.now s₁ (h ++ (s.loopRecords a i).map .queue) [] := by
    obtain ⟨look, still, l, none, rfl⟩ | ⟨lock, seen, l, look, heard⟩ := cases
    · refine ⟨?clock, ?turns⟩
      case clock => obtain rfl | ⟨n, rfl⟩ := still <;> rfl
      rw [Station.loopRecords, look, List.map_nil, List.append_nil]
      refine turns.same rfl rfl rfl rfl ?_
      intro m hm lock asks
      obtain hm | rfl := List.mem_or_eq_of_mem_set hm
      · exact turns.locks m hm lock asks
      · simp [none] at asks
    · obtain ⟨source, waits⟩ := Station.look?_lock look
      obtain rfl : a₁ = (Station.hear a s i l seen).1 := congrArg Prod.fst heard
      obtain rfl : s₁ = (Station.hear a s i l seen).2 := congrArg Prod.snd heard
      refine ⟨s.hear_clock a i l seen, ?_⟩
      rw [Station.loopRecords, look]
      refine turns.hear i l (Station.look?_moves look) ?_ waits
      obtain rfl | ⟨m, hm, asks⟩ := source
      · rwa [(Station.terms_eq turns.books.terms).1]
      · exact turns.locks m hm lock asks
  have now : a'.now = a.now := congrArg Clock.now (after.aborts.clock.trans stepped.1)
  rw [now]
  exact after.aborts.preserve (P := fun _ s' => Turns base a.now s' _ [])
    (fun abort turns => turns.abort abort) stepped.2

/-- A step of an attempt. -/
theorem attempt {a a' : Ambient} {s' : Station} {k : Nat} {t : Attempt}
    (turns : Turns base a.now s h [])
    (polite : ∀ ctx, (base.processor ctx).Only fun e => e.isGate = false)
    (ht : s.attempts[k]? = some t) (step : s.stepAttempt a k = some (a', s')) :
    Turns base a'.now s' (h ++ s.attemptOccurrences a k t) [] := by
  have books := turns.books.attempt ht step
  obtain ⟨t', ht', kept, can, clock, rfl⟩ := Station.stepAttempt_cases step
  obtain rfl := Option.some.inj (ht.symm.trans ht')
  rw [Ambient.now, clock]
  obtain ⟨_, follows⟩ := t.program.resume_runs (s.site a t)
  have stands := turns.line.stands k t ht kept
  have gates := turns.ticketed.gates
  have turn := Station.turn polite gates turns.line.orderly stands can
  have delivery := s.resumed_delivery a t
  refine ⟨books, ?fence, turns.ticketed.attempt ht, turns.locks, by simp, ?line, ?order⟩
  case fence =>
    rw [records_append, Station.records_attemptOccurrences]
    exact follows.moves.fence turns.fence
  case line =>
    rw [records_append, Station.records_attemptOccurrences]
    refine turns.line.set turns.ticketed.apart ht kept turn delivery (fun n waits => ?_) ?_
    · exact List.mem_append_right _
        ((Premises.mem_ticketsSince (follows.gates gates)).mpr (turn.issued waits))
    · intro j u other hu spent
      exact turns.books.attempts_apart other hu ht (spent_of_events spent)
  case order =>
    apply turns.order.set ht kept delivery turn.behind_of_behind
    intro i hi
    rw [invocations_append] at hi
    exact (List.mem_append.mp hi).imp_right (s.of_mem_invocations a k t)

/-- Time passes while no attempt can step. So every attempt has begun, and the turn of those that
wait has not come. -/
theorem later {a : Ambient} (turns : Turns base a.now s h []) {time : Nat} (le : a.now ≤ time)
    (idle : ∀ k, s.stepAttempt a k = none) : Turns base time s h [] := by
  have stuck {k : Nat} {t : Attempt} (ht : s.attempts[k]? = some t) (kept : t.aborted = false) :
      ¬t.program.canResume (s.site a t) = true := by
    rw [Station.of_stepAttempt_eq_none ht kept (idle k)]
    exact Bool.false_ne_true
  refine ⟨turns.books, turns.fence.later le, turns.ticketed, turns.locks, by simp, ?line, ?order⟩
  case line => exact turns.line.later fun k t ht kept fresh => stuck ht kept fresh.canResume
  case order =>
    refine ⟨fun i hi => (turns.order.past i hi).trans le, ?_, turns.order.ordered⟩
    intro i hi j t lt ht same
    obtain ⟨u, hu, delivery, invoked⟩ := turns.books.handed i hi
    rw [← delivery] at same
    cases kept : t.aborted with
    | true => exact .inl rfl
    | false =>
        -- an earlier attempt whose turn has come could go on
        obtain aborted | behind | ⟨n, waits, served | ⟨new, _⟩⟩ :=
          turns.line.turns j i.attempt t u lt ht hu same
        · simp [kept] at aborted
        · exact .inr (.inl behind)
        · exact absurd (waits.canResume (s := s.site a t) served) (stuck ht kept)
        · simp [new] at invoked

end Turns

namespace Duty

end Duty

end Courier
