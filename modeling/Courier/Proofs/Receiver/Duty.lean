import Courier.Proofs.Handling.Footprint
import Courier.Proofs.Receiver.Aborts

/-!
# Receivers on duty

A receiver is on duty while its loops and attempts take steps, in any order, it is started and
stopped, others use its queue, and time passes. Nothing is said of who steps next: a loop or an
attempt steps whenever a deed says so, if it can. Nor is it said in which order locks that have
expired come back: a deed may put the locks of the queue into any order.

A run of deeds tells a history: what happened to the queue, and what happened in each attempt to
handle a delivery. The history is read off what the steps of `Station` do and changes nothing of
them. A step of a loop is told in two parts: what the loop does itself (`Station.hear` where it has
looked into its queue), and the aborts that follow if it breaks off (`Station.Aftermath`).
-/

namespace Courier

open Queue (Record)

/-- The delivery that an attempt is to handle. -/
def Attempt.delivery (t : Attempt) : Delivery := t.handling.context.delivery

/-- A delivery that was handed to the processor, in an attempt. -/
structure Invocation where
  time : Nat
  attempt : Nat
  delivery : Delivery

/-- What the history of a receiver tells. -/
inductive Occurrence where
  /-- Something happened to the queue, but not from within an attempt. -/
  | queue (record : Record)
  /-- Something happened in an attempt to handle a delivery. -/
  | handling (time attempt : Nat) (delivery : Delivery) (event : Event)
  /-- The delivery of an attempt was handed to the processor. -/
  | invoked (invocation : Invocation)

namespace Occurrence

/-- What an occurrence tells of the queue. -/
def records : Occurrence → List Record
  | .queue record => [record]
  | .handling time _ d e => e.records time d.token
  | .invoked _ => []

/-- The event in an attempt, if the occurrence is one. -/
def event? (k : Nat) : Occurrence → Option Event
  | .handling _ j _ e => if j = k then some e else none
  | _ => none

def invocation? : Occurrence → Option Invocation
  | .invoked i => some i
  | _ => none

end Occurrence

/-- What a history tells of the queue. -/
def records (h : List Occurrence) : List Record := h.flatMap Occurrence.records

/-- What happened in an attempt. -/
def eventsOf (k : Nat) (h : List Occurrence) : List Event := h.filterMap (Occurrence.event? k)

/-- The deliveries handed to the processor, in the order of time. -/
def invocations (h : List Occurrence) : List Invocation :=
  h.filterMap Occurrence.invocation?

section

variable (h h' : List Occurrence) (rs : List Record)

@[simp] theorem records_append : records (h ++ h') = records h ++ records h' :=
  List.flatMap_append

@[simp] theorem eventsOf_append (k : Nat) : eventsOf k (h ++ h') = eventsOf k h ++ eventsOf k h' :=
  List.filterMap_append

@[simp] theorem invocations_append : invocations (h ++ h') = invocations h ++ invocations h' :=
  List.filterMap_append

@[simp] theorem records_queue : records (rs.map .queue) = rs := by
  induction rs with
  | nil => rfl
  | cons r rs ih => exact congrArg (r :: ·) ih

@[simp] theorem eventsOf_queue (k : Nat) : eventsOf k (rs.map .queue) = [] := by
  simp [eventsOf, List.filterMap_map, Function.comp_def, Occurrence.event?]

@[simp] theorem invocations_queue : invocations (rs.map .queue) = [] := by
  simp [invocations, List.filterMap_map, Function.comp_def, Occurrence.invocation?]

end

/-! ## Looks into the queue -/

/-- The locks that a loop asks for while it receives. -/
def LoopPhase.lock? : LoopPhase → Option Duration
  | .receiving r => some r.lock
  | _ => none

namespace Station

/-- The look into the queue that the next step of a loop makes, with the locks that it asks for;
none if the step makes no look. -/
def look? (s : Station) (a : Ambient) (i : Nat) : Option (Duration × Queue × Receiving.Outcome) :=
  match s.loops[i]? with
  | none => none
  | some l =>
    match l.phase with
    | .ready =>
      if s.capacity ≤ s.unfinished i || a.isCancelled l.token then none
      else
        some (s.receiver.settings.lockTimeout,
          Receiving.start s.premises.queue a.now (s.capacity - s.unfinished i)
            s.receiver.config.receiveWait s.receiver.settings.lockTimeout)
    | .receiving r =>
      if a.isCancelled l.token || !Receiving.roused s.premises.queue a.clock r then none
      else some (r.lock, Receiving.resume s.premises.queue a.clock r)
    | _ => none

/-- What a history tells of the messages in a batch that cannot be read. -/
def rejections (decode : Message → Except CodecFault Payload) (now : Nat) :
    Queue → List Delivery → List Record
  | _, [] => []
  | q, d :: rest =>
    match decode d.message with
    | .ok _ => rejections decode now q rest
    | .error f =>
      let (q, answer) := q.settle now d.token (.deadLetter (unreadableReason f))
      .settled now d.token (.deadLetter (unreadableReason f)) answer ::
        rejections decode now q rest

theorem reject_station (s : Station) (a : Ambient) (d : Delivery) (f : CodecFault) :
    (s.reject a d f).2 = s.withQueue
      (s.premises.queue.settle a.now d.token (.deadLetter (unreadableReason f))).1 := by
  simp only [reject, Ambient.now, Ambient.note, Ambient.count]
  split <;> rename_i settled <;> rw [settled]

theorem reject_decode (s : Station) (a : Ambient) (d : Delivery) (f : CodecFault) :
    (s.reject a d f).2.decode = s.decode := by
  rw [s.reject_station]
  rfl

theorem reject_queue (s : Station) (a : Ambient) (d : Delivery) (f : CodecFault) :
    (s.reject a d f).2.premises.queue =
      (s.premises.queue.settle a.now d.token (.deadLetter (unreadableReason f))).1 := by
  rw [s.reject_station]
  rfl

theorem reject_now (s : Station) (a : Ambient) (d : Delivery) (f : CodecFault) :
    (s.reject a d f).1.now = a.now := by
  simp only [reject]
  split <;> rfl

/-- What a history tells of a look into the queue and of what follows it at once. -/
def lookRecords (s : Station) (now : Nat) (lock : Duration) (q : Queue) (o : Receiving.Outcome) :
    List Record :=
  o.records now lock ++
    match o with
    | .batch deliveries => rejections s.decode now q deliveries
    | _ => []

/-- What a history tells of a step of a loop. -/
def loopRecords (s : Station) (a : Ambient) (i : Nat) : List Record :=
  match s.look? a i with
  | none => []
  | some (lock, q, o) => s.lookRecords a.now lock q o

theorem look?_moves {s : Station} {a : Ambient} {i : Nat} {lock : Duration}
    {seen : Queue × Receiving.Outcome} (look : s.look? a i = some (lock, seen)) :
    Queue.Moves a.now s.premises.queue (seen.2.records a.now lock) seen.1 := by
  unfold look? at look
  split at look
  · simp at look
  · split at look
    · split at look
      · simp at look
      · simp only [Option.some.injEq, Prod.mk.injEq] at look
        obtain ⟨rfl, rfl⟩ := look
        exact Receiving.start_moves ..
    · rename_i r _
      split at look
      · simp at look
      · simp only [Option.some.injEq, Prod.mk.injEq] at look
        obtain ⟨rfl, rfl⟩ := look
        exact Receiving.resume_moves _ a.clock r
    · simp at look

/-- The locks that a look into the queue asks for are those of the settings, or those that a loop
has asked for before. -/
theorem look?_lock {s : Station} {a : Ambient} {i : Nat} {lock : Duration}
    {seen : Queue × Receiving.Outcome} (look : s.look? a i = some (lock, seen)) :
    (lock = s.receiver.settings.lockTimeout ∨ ∃ l ∈ s.loops, l.phase.lock? = some lock) ∧
      ∀ r, seen.2 = .waiting r → r.lock = lock := by
  unfold look? at look
  split at look
  · simp at look
  · rename_i l found
    split at look
    · split at look
      · simp at look
      · simp only [Option.some.injEq, Prod.mk.injEq] at look
        obtain ⟨rfl, rfl⟩ := look
        exact ⟨.inl rfl, fun r => Receiving.start_lock⟩
    · rename_i r phase
      split at look
      · simp at look
      · simp only [Option.some.injEq, Prod.mk.injEq] at look
        obtain ⟨rfl, rfl⟩ := look
        refine ⟨.inr ⟨l, List.mem_of_getElem? found, ?_⟩, fun r' => Receiving.resume_lock⟩
        rw [phase]
        rfl
    · simp at look

/-! What a loop does about a batch moves no clock and touches no loop and no gate. -/

theorem reject_clock (s : Station) (a : Ambient) (d : Delivery) (f : CodecFault) :
    (s.reject a d f).1.clock = a.clock := by
  simp only [reject]
  split <;> rfl

theorem acceptAll_aside (i : Nat) (l : ReceiveLoop) (a : Ambient) (s : Station)
    (deliveries : List Delivery) :
    (acceptAll i l a s deliveries).1.clock = a.clock ∧
      (acceptAll i l a s deliveries).2.1.loops = s.loops ∧
      (acceptAll i l a s deliveries).2.1.premises.gates = s.premises.gates := by
  induction deliveries generalizing a s with
  | nil => exact ⟨rfl, rfl, rfl⟩
  | cons d rest ih =>
      simp only [acceptAll]
      split
      · exact ih _ _
      · rename_i f _
        obtain ⟨clock, loops, gates⟩ := ih (s.reject a d f).1 (s.reject a d f).2
        refine ⟨clock.trans (s.reject_clock a d f), loops.trans ?_, gates.trans ?_⟩ <;>
          rw [s.reject_station] <;> rfl

/-- What a loop does with the outcome of a look into its queue, apart from the aborts that follow if
it breaks off. -/
def hear (a : Ambient) (s : Station) (i : Nat) (l : ReceiveLoop) :
    Queue × Receiving.Outcome → Ambient × Station
  | (q, .overflow spill) =>
    (a, (s.withQueue q).setLoop i { l with phase := .broken spill.overflow })
  | seen => receive a s i l seen

theorem hear_clock (a : Ambient) (s : Station) (i : Nat) (l : ReceiveLoop)
    (seen : Queue × Receiving.Outcome) : (hear a s i l seen).1.clock = a.clock := by
  obtain ⟨q, o⟩ := seen
  cases o with
  | batch ds => exact (acceptAll_aside i l a (s.withQueue q) ds).1
  | failed f => cases f <;> rfl
  | _ => rfl

theorem hear_loops (a : Ambient) (s : Station) (i : Nat) (l : ReceiveLoop)
    (seen : Queue × Receiving.Outcome) :
    ∃ l', (hear a s i l seen).2.loops = s.loops.set i l' ∧
      (∀ lock, l'.phase.lock? = some lock → ∃ r, seen.2 = .waiting r ∧ r.lock = lock) ∧
      ∀ o, l'.phase = .broken o → ∃ spill, seen.2 = .overflow spill := by
  obtain ⟨q, o⟩ := seen
  cases o with
  | waiting r => exact ⟨_, rfl, fun lock asked => ⟨r, rfl, Option.some.inj asked⟩, nofun⟩
  | overflow spill => exact ⟨_, rfl, nofun, fun _ _ => ⟨spill, rfl⟩⟩
  | failed f => cases f <;> exact ⟨_, rfl, nofun, nofun⟩
  | batch ds =>
      obtain ⟨_, loops, _⟩ := acceptAll_aside i l a (s.withQueue q) ds
      exact ⟨{ l with
        phase := .ready
        tracked := l.tracked + (acceptAll i l a (s.withQueue q) ds).2.2 },
        congrArg (List.set · i _) loops, nofun, nofun⟩

theorem hear_aftermath {a a' : Ambient} {s s' : Station} {i : Nat} {l : ReceiveLoop}
    {seen : Queue × Receiving.Outcome} (within : i < s.loops.length)
    (heard : receive a s i l seen = (a', s')) :
    Aftermath (hear a s i l seen).1 (hear a s i l seen).2 i a' s' := by
  obtain ⟨l', loops, _, broken⟩ := hear_loops a s i l seen
  obtain ⟨q, o⟩ := seen
  cases o with
  | overflow spill =>
      have after := breakOff_aftermath (a := a) (s := s.withQueue q) (l := l) spill.overflow within
      rwa [show breakOff a (s.withQueue q) i l spill.overflow = (a', s') from heard] at after
  | waiting | batch | failed =>
      obtain rfl : (receive a s i l _).1 = a' := congrArg Prod.fst heard
      obtain rfl : (receive a s i l _).2 = s' := congrArg Prod.snd heard
      refine .none fun m o hm broke => ?_
      have there : m = l' := by simpa [loops, within] using hm.symm
      obtain ⟨spill, no⟩ := broken o (there ▸ broke)
      cases no

/-- A loop that steps looks into its queue and goes on from there, or does no more than change its
phase, with a note of it or without. If it breaks off its attempts are aborted then. -/
theorem stepLoop_cases {s s' : Station} {a a' : Ambient} {i : Nat}
    (step : s.stepLoop a i = some (a', s')) : ∃ a₁ s₁, Aftermath a₁ s₁ i a' s' ∧
      ((s.look? a i = none ∧ (a₁ = a ∨ ∃ n, a₁ = a.note n) ∧
          ∃ l, l.phase.lock? = none ∧ s₁ = s.setLoop i l) ∨
        ∃ lock seen l, s.look? a i = some (lock, seen) ∧ (a₁, s₁) = hear a s i l seen) := by
  unfold stepLoop at step
  unfold look?
  cases found : s.loops[i]? with
  | none => simp [found] at step
  | some l =>
      have within := (List.getElem?_eq_some_iff.mp found).1
      simp only [found] at step ⊢
      cases phase : l.phase with
      | begun =>
          simp only [phase] at step ⊢
          split at step <;> cases step
          · exact ⟨_, _, breakOff_aftermath .count within, .inl ⟨trivial, .inl rfl, _, rfl, rfl⟩⟩
          · exact ⟨_, _, .setLoop nofun, .inl ⟨trivial, .inr ⟨_, rfl⟩, _, rfl, rfl⟩⟩
      | ready =>
          simp only [phase, seek, Option.some.injEq] at step ⊢
          by_cases full : s.capacity ≤ s.unfinished i
          · rw [if_pos full] at step
            cases step
            exact ⟨_, _, .setLoop nofun, .inl ⟨if_pos (by simp [full]), .inl rfl, _, rfl, rfl⟩⟩
          · by_cases cancelled : a.isCancelled l.token = true
            · rw [if_neg full, if_pos cancelled] at step
              cases step
              exact ⟨_, _, .setLoop nofun,
                .inl ⟨if_pos (by simp [cancelled]), .inr ⟨_, rfl⟩, _, rfl, rfl⟩⟩
            · rw [if_neg full, if_neg cancelled] at step
              exact ⟨_, _, hear_aftermath within step,
                .inr ⟨_, _, _, if_neg (by simp [full, cancelled]), rfl⟩⟩
      | full =>
          simp only [phase] at step ⊢
          split at step
          · cases step
            exact ⟨_, _, .setLoop nofun, .inl ⟨trivial, .inr ⟨_, rfl⟩, _, rfl, rfl⟩⟩
          · split at step <;> cases step
            exact ⟨_, _, .setLoop nofun, .inl ⟨trivial, .inl rfl, _, rfl, rfl⟩⟩
      | receiving r =>
          simp only [phase] at step ⊢
          by_cases cancelled : a.isCancelled l.token = true
          · rw [if_pos cancelled] at step
            cases step
            exact ⟨_, _, .setLoop nofun,
              .inl ⟨if_pos (by simp [cancelled]), .inr ⟨_, rfl⟩, _, rfl, rfl⟩⟩
          · rw [if_neg cancelled] at step
            split at step
            · rename_i roused
              exact ⟨_, _, hear_aftermath within (Option.some.inj step),
                .inr ⟨_, _, _, if_neg (by simp [cancelled, roused]), rfl⟩⟩
            · simp at step
      | resting t =>
          simp only [phase] at step ⊢
          split at step
          · cases step
            exact ⟨_, _, .setLoop nofun, .inl ⟨trivial, .inr ⟨_, rfl⟩, _, rfl, rfl⟩⟩
          · split at step <;> cases step
            exact ⟨_, _, .setLoop nofun, .inl ⟨trivial, .inl rfl, _, rfl, rfl⟩⟩
      | draining =>
          simp only [phase] at step ⊢
          split at step <;> cases step
          exact ⟨_, _, .setLoop nofun, .inl ⟨trivial, .inr ⟨_, rfl⟩, _, rfl, rfl⟩⟩
      | ended => simp [phase] at step
      | broken => simp [phase] at step

/-! ## Steps of attempts -/

/-- An attempt after it was resumed. -/
def resumed (s : Station) (a : Ambient) (t : Attempt) : Attempt :=
  { t with
    handling := (t.program.resume (s.site a t)).1.handling
    program := (t.program.resume (s.site a t)).2
    tickets := t.tickets ++ s.premises.ticketsSince (t.program.resume (s.site a t)).1.premises }

theorem resumed_context (s : Station) (a : Ambient) (t : Attempt) :
    (s.resumed a t).handling.context = t.handling.context :=
  (t.program.resume_runs (s.site a t)).2.context

theorem resumed_delivery (s : Station) (a : Ambient) (t : Attempt) :
    (s.resumed a t).delivery = t.delivery :=
  congrArg Context.delivery (s.resumed_context a t)

theorem resumed_invoked (s : Station) (a : Ambient) (t : Attempt) :
    (s.resumed a t).handling.invoked =
      (t.handling.invoked || (t.program.trace (s.site a t)).any Event.isInvoke) :=
  (t.program.resume_runs (s.site a t)).2.invoked

/-- What happens in an attempt that steps. -/
def attemptOccurrences (s : Station) (a : Ambient) (k : Nat) (t : Attempt) : List Occurrence :=
  (t.program.trace (s.site a t)).map (.handling a.now k t.delivery) ++
    if (s.resumed a t).handling.invoked && !t.handling.invoked then
      [.invoked ⟨a.now, k, t.delivery⟩]
    else []

section

variable (s : Station) (a : Ambient) (k : Nat) (t : Attempt)

@[simp] theorem records_attemptOccurrences :
    records (s.attemptOccurrences a k t) =
      (t.program.trace (s.site a t)).flatMap (Event.records a.now t.delivery.token) := by
  have told : records (if (s.resumed a t).handling.invoked && !t.handling.invoked then
      [.invoked ⟨a.now, k, t.delivery⟩] else []) = [] := by
    split <;> rfl
  rw [attemptOccurrences, records_append, told, List.append_nil]
  simp [records, List.flatMap_map, Occurrence.records]

@[simp] theorem eventsOf_attemptOccurrences (j : Nat) :
    eventsOf j (s.attemptOccurrences a k t) =
      if k = j then t.program.trace (s.site a t) else [] := by
  have told : eventsOf j (if (s.resumed a t).handling.invoked && !t.handling.invoked then
      [.invoked ⟨a.now, k, t.delivery⟩] else []) = [] := by
    split <;> rfl
  rw [attemptOccurrences, eventsOf_append, told, List.append_nil]
  split <;> simp [eventsOf, List.filterMap_map, Function.comp_def, Occurrence.event?, *]

@[simp] theorem invocations_attemptOccurrences :
    invocations (s.attemptOccurrences a k t) =
      if (s.resumed a t).handling.invoked && !t.handling.invoked then
        [⟨a.now, k, t.delivery⟩]
      else [] := by
  have told : invocations ((t.program.trace (s.site a t)).map
      (.handling a.now k t.delivery)) = [] := by
    simp [invocations, List.filterMap_map, Function.comp_def, Occurrence.invocation?]
  rw [attemptOccurrences, invocations_append, told, List.nil_append]
  split <;> rfl

theorem of_mem_invocations {i : Invocation}
    (mem : i ∈ invocations (s.attemptOccurrences a k t)) :
    i = ⟨a.now, k, t.delivery⟩ ∧ t.handling.invoked = false ∧
      (s.resumed a t).handling.invoked = true := by
  rw [invocations_attemptOccurrences] at mem
  split at mem
  · rename_i newly
    simp only [Bool.and_eq_true, Bool.not_eq_true'] at newly
    exact ⟨List.mem_singleton.mp mem, newly.2, newly.1⟩
  · simp at mem

theorem not_queue_attemptOccurrences (r : Record) :
    .queue r ∉ s.attemptOccurrences a k t := by
  simp [attemptOccurrences]

theorem of_handling_attemptOccurrences {time j : Nat} {d : Delivery} {e : Event}
    (mem : .handling time j d e ∈ s.attemptOccurrences a k t) : j = k ∧ d = t.delivery := by
  obtain mem | mem := List.mem_append.mp mem
  · obtain ⟨_, _, same⟩ := List.mem_map.mp mem
    cases same
    exact ⟨rfl, rfl⟩
  · split at mem <;> simp at mem

end

theorem stepAttempt_cases {s s' : Station} {a a' : Ambient} {k : Nat}
    (step : s.stepAttempt a k = some (a', s')) :
    ∃ t, s.attempts[k]? = some t ∧ t.aborted = false ∧
      t.program.canResume (s.site a t) = true ∧ a'.clock = a.clock ∧ s' = { s with
        premises := (t.program.resume (s.site a t)).1.premises
        attempts := s.attempts.set k (s.resumed a t) } := by
  unfold stepAttempt at step
  cases found : s.attempts[k]? with
  | none => simp [found] at step
  | some t =>
      simp only [found] at step
      split at step
      · simp at step
      · rename_i kept
        split at step
        · rename_i can
          cases step
          have clock := (t.program.resume_runs (s.site a t)).2.clock
          refine ⟨t, rfl, eq_false_of_ne_true kept, can, ?_, rfl⟩
          split <;> exact clock
        · simp at step

/-- An attempt that does not step cannot go on, or it was aborted. -/
theorem of_stepAttempt_eq_none {s : Station} {a : Ambient} {k : Nat} {t : Attempt}
    (ht : s.attempts[k]? = some t) (kept : t.aborted = false) (idle : s.stepAttempt a k = none) :
    t.program.canResume (s.site a t) = false := by
  unfold stepAttempt at idle
  rw [ht] at idle
  simp only [kept, Bool.false_eq_true, if_false] at idle
  split at idle
  · simp at idle
  · rename_i cannot
    exact eq_false_of_ne_true cannot

end Station

/-! ## Deeds -/

/-- A receiver at work and what surrounds it. -/
structure Duty where
  ambient : Ambient
  station : Station

/-- What happens while a receiver is on duty. -/
inductive Duty.Deed where
  /-- A loop of the receiver steps. -/
  | loop (i : Nat)
  /-- An attempt to handle a delivery steps. -/
  | attempt (k : Nat)
  | start (parent : CancelToken)
  | stop
  | closeGate
  /-- Someone uses the queue. -/
  | queue (action : Shift.QueueAction)
  /-- Someone asks how many messages are pending and in flight. -/
  | count
  /-- The locks of the queue are kept in this order from now on, if they are these. -/
  | reorder (locked : List Locked)
  /-- Anything happens elsewhere: time passes, something is cancelled, others tell and write. -/
  | elsewhere (ambient : Ambient)

/-- The same action on a queue that is used alone. -/
def Shift.QueueAction.alone : Shift.QueueAction → Exchange.Action
  | .send message => .send message
  | .failNextReceives count => .failNextReceives count
  | .failSettlements on => .failSettlements on
  | .close => .close

namespace Duty

/-- The queue of the receiver and the time. -/
def exchange (s : Duty) : Exchange.State := ⟨s.station.premises.queue, s.ambient.clock⟩

/-- A deed that consists of an action on the queue. -/
def act (s : Duty) (action : Exchange.Action) : Duty × List Occurrence :=
  ({ s with station := s.station.withQueue (s.exchange.act action).1.queue },
    (action.records s.exchange).map .queue)

/-- A deed, and what a history tells of it. What cannot be done does nothing. -/
def step (s : Duty) : Deed → Duty × List Occurrence
  | .loop i =>
    match s.station.stepLoop s.ambient i with
    | none => (s, [])
    | some (a, station) => (⟨a, station⟩, (s.station.loopRecords s.ambient i).map .queue)
  | .attempt k =>
    match s.station.attempts[k]?, s.station.stepAttempt s.ambient k with
    | some t, some (a, station) => (⟨a, station⟩, s.station.attemptOccurrences s.ambient k t)
    | _, _ => (s, [])
  | .start parent =>
    match s.station.start s.ambient parent with
    | .error _ => (s, [])
    | .ok (a, station) => (⟨a, station⟩, [])
  | .stop =>
    let (a, station, _) := s.station.stop s.ambient
    (⟨a, station⟩, [])
  | .closeGate => ({ s with station := s.station.closeGate }, [])
  | .queue action => s.act action.alone
  | .count =>
    let (pending, h) := s.act .pending
    let (inFlight, h') := pending.act .inFlight
    (inFlight, h ++ h')
  | .reorder locked =>
    (if locked.Perm s.exchange.queue.locked then
      { s with station := s.station.withQueue { s.exchange.queue with locked := locked } }
    else s, [])
  | .elsewhere a => ({ s with ambient :=
      { a with clock := s.ambient.clock.advanceTo a.clock.now } }, [])

/-- Deeds one after the other, and their history. -/
def run (s : Duty) : List Deed → Duty × List Occurrence
  | [] => (s, [])
  | deed :: rest =>
    let (s', h) := s.step deed
    let (s'', h') := s'.run rest
    (s'', h ++ h')

/-- A receiver without stages of its own that has not been started, on a new queue. -/
def begin (a : Ambient) (r : Receiver) (format : Format) (schema : Schema) (queue : String)
    (style : TokenStyle) (registry : Registry) (messageType : String) (p : Processor) : Duty :=
  ⟨a, { Station.ofReceiver r schema { name := queue, tokens := style } registry messageType p with
    format := format }⟩

end Duty

end Courier
