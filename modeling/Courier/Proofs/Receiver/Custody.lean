import Courier.Proofs.Receiver.Books
import Courier.Proofs.Receiver.Deeds

/-!
# What becomes of what is received

Whatever a receiver gets from its queue is in its custody at once. `Custody` says where it is:
there is one attempt for each delivery that can be read, in the order in which they were received,
and the loops themselves ask the queue to dead-letter each one that cannot be read, in that order
too, and ask it nothing else. This is so after every deed, so no delivery is ever between the two,
and cancellation, which only keeps a loop from receiving, comes before or after. A receive that
breaks off gets nothing; what it has locked stays so until the lock expires.

What happens in an attempt is a run of `handle`, with the receiver's own stages, up to what is left
of it.
-/

namespace Courier

open Program (Runs)
open Queue (Record Moves Accounts)

namespace Station

/-- Whether a delivery is labelled right, if at all, and can be read. -/
def readable (s : Station) (d : Delivery) : Bool := (s.decode d.message).isOk

/-- What is asked of the queue for a delivery that cannot be read. -/
def rejection? (s : Station) (d : Delivery) : Option (LockToken × Settling) :=
  match s.decode d.message with
  | .ok _ => none
  | .error f => some (d.token, .deadLetter (unreadableReason f))

/-- A delivery can be read if its label is missing or that of the format, but for the case of
letters, and its body holds a payload. -/
theorem readable_iff (s : Station) (d : Delivery) :
    s.readable d = true ↔
      (∀ label, d.message.contentType = some label →
        Format.sameIgnoringCase label s.format.contentType = true) ∧
        ∃ payload, s.format.decode s.schema d.message.body = .ok payload := by
  have bodies {e : Except CodecFault Payload} : e.isOk = true ↔ ∃ payload, e = .ok payload := by
    cases e <;> simp [Except.isOk, Except.toBool]
  unfold readable decode Format.checkContentType
  cases d.message.contentType with
  | none => exact bodies.trans (by simp [bind, Except.bind])
  | some label =>
      by_cases same : Format.sameIgnoringCase label s.format.contentType = true
      · simp only [same, if_true]
        exact bodies.trans (by simp [same, bind, Except.bind])
      · simp only [same]
        constructor
        · intro ok
          cases ok
        · rintro ⟨labelled, _⟩
          exact absurd (labelled label rfl) same

/-- A rejection names its delivery. -/
theorem rejection?_filter (s : Station) (token : LockToken) (d : Delivery) :
    (s.rejection? d).filter (fun x => x.1 == token) =
      if d.token == token then s.rejection? d else none := by
  unfold rejection?
  cases s.decode d.message with
  | ok payload => simp
  | error f => simp [Option.filter]

/-! ## What a history tells of a step of a loop -/

theorem deliveries_rejections (decode : Message → Except CodecFault Payload) (now : Nat)
    (q : Queue) (ds : List Delivery) : Queue.deliveries (rejections decode now q ds) = [] := by
  induction ds generalizing q with
  | nil => rfl
  | cons d rest ih =>
      simp only [rejections]
      split
      · exact ih q
      · exact ih _

theorem directs_rejections (s : Station) (now : Nat) (q : Queue) (ds : List Delivery) :
    directs ((rejections s.decode now q ds).map .queue) = ds.filterMap s.rejection? := by
  induction ds generalizing q with
  | nil => rfl
  | cons d rest ih =>
      cases decoded : s.decode d.message with
      | ok payload =>
          have none : s.rejection? d = none := by simp [rejection?, decoded]
          simp only [rejections, decoded, List.filterMap_cons, none]
          exact ih q
      | error f =>
          have some : s.rejection? d = some (d.token, .deadLetter (unreadableReason f)) := by
            simp [rejection?, decoded]
          simp only [rejections, decoded, List.filterMap_cons, some]
          exact congrArg (_ :: ·) (ih _)

theorem deliveries_outcome (now : Nat) (lock : Duration) (o : Receiving.Outcome) :
    Queue.deliveries (o.records now lock) = deliveriesOf o := by
  cases o with
  | batch ds => exact Queue.deliveries_batch now lock ds
  | overflow spill => exact Receiving.deliveries_records_overflow now lock spill
  | _ => rfl

theorem directs_outcome (now : Nat) (lock : Duration) (o : Receiving.Outcome) :
    directs ((o.records now lock).map .queue) = [] := by
  cases o with
  | batch ds =>
      simp [Receiving.Outcome.records, directs, List.filterMap_map, Function.comp_def,
        Occurrence.direct?]
  | overflow spill =>
      simp [Receiving.Outcome.records, Queue.Spill.records, directs, List.filterMap_map,
        Function.comp_def, Occurrence.direct?]
  | _ => rfl

theorem deliveries_loopRecords (s : Station) (a : Ambient) (i : Nat) :
    Queue.deliveries (s.loopRecords a i) = s.received a i := by
  cases look : s.look? a i with
  | none => simp [loopRecords, received, look]
  | some seen =>
      obtain ⟨lock, q, o⟩ := seen
      simp only [loopRecords, received, look]
      rw [lookRecords_eq, Queue.deliveries_append, deliveries_rejections, List.append_nil,
        deliveries_outcome]

theorem directs_loopRecords (s : Station) (a : Ambient) (i : Nat) :
    directs ((s.loopRecords a i).map .queue) = (s.received a i).filterMap s.rejection? := by
  cases look : s.look? a i with
  | none => simp [loopRecords, received, look, directs]
  | some seen =>
      obtain ⟨lock, q, o⟩ := seen
      simp only [loopRecords, received, look]
      rw [lookRecords_eq, List.map_append, directs_append, directs_outcome, List.nil_append,
        directs_rejections]

theorem excused_rejections (decode : Message → Except CodecFault Payload) (now : Nat)
    (q : Queue) (ds : List Delivery) : Queue.Excused (rejections decode now q ds) := by
  induction ds generalizing q with
  | nil => exact .nil
  | cons d rest ih =>
      simp only [rejections]
      split
      · exact ih q
      · exact .append (h := [_]) (.of_none (by simp) (by simp)) (ih _)

/-- What was stranded or lost by a look has its reason in the look. -/
theorem excused_loopRecords (s : Station) (a : Ambient) (i : Nat) :
    Queue.Excused (s.loopRecords a i) := by
  cases look : s.look? a i with
  | none => simpa [loopRecords, look] using Queue.Excused.nil
  | some seen =>
      obtain ⟨lock, q, o⟩ := seen
      simp only [loopRecords, look, lookRecords_eq]
      exact (look?_excused look).append (excused_rejections s.decode a.now q _)

theorem readable_eq {s s' : Station} (h : s.terms = s'.terms) : s.readable = s'.readable := by
  funext d
  rw [readable, readable, decode_eq h]

theorem rejection?_eq {s s' : Station} (h : s.terms = s'.terms) : s.rejection? = s'.rejection? := by
  funext d
  rw [rejection?, rejection?, decode_eq h]

end Station

theorem deliveries_event (now : Nat) (token : LockToken) (events : List Event) :
    Queue.deliveries (events.flatMap (Event.records now token)) = [] := by
  induction events with
  | nil => rfl
  | cons e rest ih =>
      rw [List.flatMap_cons, Queue.deliveries_append, ih, List.append_nil]
      cases e with
      | settled how answer => rfl
      | waited p => rfl
      | called e answer => cases e <;> rfl

theorem excused_event (now : Nat) (token : LockToken) (events : List Event) :
    Queue.Excused (events.flatMap (Event.records now token)) := by
  induction events with
  | nil => exact .nil
  | cons e rest ih =>
      rw [List.flatMap_cons]
      refine .append ?_ ih
      cases e with
      | settled how answer => exact .of_none (by simp [Event.records]) (by simp [Event.records])
      | waited p => exact .nil
      | called e answer =>
          cases e <;> exact .of_none (by simp [Event.records]) (by simp [Event.records])

/-! ## Custody -/

/-- Where the deliveries are that a receiver has got from its queue; `base` is the receiver at the
beginning. -/
structure Custody (base s : Station) (h : List Occurrence) : Prop where
  terms : s.terms = base.terms
  accounts : Accounts s.premises.queue (Queue.sends (records h)) (Queue.issues (records h))
    (Queue.losses (records h))
  excused : Queue.Excused (records h)
  handled : s.attempts.map (·.delivery) = (Queue.deliveries (records h)).filter base.readable
  rejected : directs h = (Queue.deliveries (records h)).filterMap base.rejection?
  contexts : ∀ t ∈ s.attempts, ∃ payload, base.decode t.delivery.message = .ok payload ∧
    t.handling.context = ⟨base.receiver.name, t.delivery, payload.toValue,
      base.receiver.settings.deadLetterDeliveryLimit⟩
  told : ∀ k t, s.attempts[k]? = some t →
    Runs (handle 0 base.own base.processor t.handling.context) {} (eventsOf k h)
      t.handling.settlement t.program ∧
    t.handling.invoked = (eventsOf k h).any Event.isInvoke
  silent : ∀ k, s.attempts.length ≤ k → eventsOf k h = []

namespace Custody

variable {base s : Station} {h : List Occurrence}

/-- What is not in custody may change. -/
theorem same (custody : Custody base s h) {s' : Station} (terms : s'.terms = s.terms)
    (queue : s'.premises.queue = s.premises.queue) (attempts : s'.attempts = s.attempts) :
    Custody base s' h where
  terms := terms.trans custody.terms
  accounts := queue ▸ custody.accounts
  excused := custody.excused
  handled := attempts ▸ custody.handled
  rejected := custody.rejected
  contexts := attempts ▸ custody.contexts
  told := attempts ▸ custody.told
  silent := attempts ▸ custody.silent

/-- An attempt is aborted. It stays with its delivery and with what happened in it. -/
theorem abort (custody : Custody base s h) {a a' : Ambient} {s' : Station}
    (abort : s.Abort a a' s') : Custody base s' h := by
  have frame : s'.terms = s.terms := by
    cases abort
    rfl
  have handled : s'.attempts.map (·.delivery) = s.attempts.map (·.delivery) := abort.deliveries
  have length : s'.attempts.length = s.attempts.length := by
    simpa using congrArg List.length handled
  refine ⟨frame.trans custody.terms, ?_, custody.excused, handled.trans custody.handled,
    custody.rejected, ?_, ?_, ?_⟩
  · rw [abort.queue]
    exact custody.accounts
  · intro t mem
    obtain ⟨k, ht⟩ := List.mem_iff_getElem?.mp mem
    obtain ⟨u, hu, same⟩ := abort.attempt_before ht
    rw [same]
    exact custody.contexts u (List.mem_of_getElem? hu)
  · intro k t ht
    obtain ⟨u, hu, same⟩ := abort.attempt_before ht
    rw [same]
    exact custody.told k u hu
  · rw [length]
    exact custody.silent

/-- Others use the queue. -/
theorem queue (custody : Custody base s h) {now : Nat} {q : Queue} {rs : List Record}
    (moves : Moves now s.premises.queue rs q)
    (unsettled : ∀ time token how answer, .settled time token how answer ∉ rs)
    (undelivered : Queue.deliveries rs = []) (excused : Queue.Excused rs) :
    Custody base (s.withQueue q) (h ++ rs.map .queue) := by
  have deliveries : Queue.deliveries (records (h ++ rs.map .queue)) =
      Queue.deliveries (records h) := by
    rw [records_append, records_queue, Queue.deliveries_append, undelivered, List.append_nil]
  have direct : directs (h ++ rs.map .queue) = directs h := by
    have none : directs (rs.map .queue) = [] := by
      apply List.filterMap_eq_nil_iff.mpr
      intro o mem
      obtain ⟨r, listed, rfl⟩ := List.mem_map.mp mem
      cases r with
      | settled time token how answer => exact absurd listed (unsettled time token how answer)
      | sent | delivered | stranded | lost => rfl
    rw [directs_append, none, List.append_nil]
  have events (k : Nat) : eventsOf k (h ++ rs.map .queue) = eventsOf k h := by
    rw [eventsOf_append, eventsOf_queue, List.append_nil]
  refine ⟨custody.terms, ?_, ?_, ?_, ?_, custody.contexts, ?_, ?_⟩
  · rw [records_append, records_queue]
    exact moves.accounts custody.accounts
  · rw [records_append, records_queue]
    exact custody.excused.append excused
  · rw [deliveries]
    exact custody.handled
  · rw [deliveries, direct]
    exact custody.rejected
  · intro k t ht
    rw [events]
    exact custody.told k t ht
  · intro k beyond
    rw [events]
    exact custody.silent k beyond

/-- A loop steps. All that it receives is handled or rejected in this one step. -/
theorem loop (custody : Custody base s h) {a a' : Ambient} {s' : Station} {i : Nat}
    {l l' : ReceiveLoop} {made : List Attempt} (step : s.LoopStep a a' s' i l l' made) :
    Custody base s' (h ++ (s.loopRecords a i).map .queue) := by
  have frame := step.frame
  have terms : s'.terms = s.terms := by rw [frame]; rfl
  have attempts : s'.attempts = s.attempts ++ made := step.accepted.attempts
  have events (k : Nat) : eventsOf k (h ++ (s.loopRecords a i).map .queue) = eventsOf k h := by
    rw [eventsOf_append, eventsOf_queue, List.append_nil]
  obtain ⟨receiver, _, _, own, processor⟩ := Station.terms_eq custody.terms
  refine ⟨terms.trans custody.terms, ?accounts, ?excused, ?handled, ?rejected, ?contexts, ?told,
    ?silent⟩
  case accounts =>
    rw [records_append, records_queue]
    exact step.moves.accounts custody.accounts
  case excused =>
    rw [records_append, records_queue]
    exact custody.excused.append (s.excused_loopRecords a i)
  case handled =>
    rw [attempts, List.map_append, custody.handled, records_append, records_queue,
      Queue.deliveries_append, Station.deliveries_loopRecords, List.filter_append,
      step.accepted.deliveries, ← Station.readable_eq custody.terms]
    rfl
  case rejected =>
    rw [directs_append, custody.rejected, records_append, records_queue, Queue.deliveries_append,
      Station.deliveries_loopRecords, List.filterMap_append, Station.directs_loopRecords,
      Station.rejection?_eq custody.terms]
  case contexts =>
    intro t mem
    rw [attempts] at mem
    obtain old | new := List.mem_append.mp mem
    · exact custody.contexts t old
    · obtain ⟨payload, decoded, context⟩ := (step.accepted.new t new).context
      refine ⟨payload, ?_, ?_⟩
      · rw [← Station.decode_eq custody.terms, decoded]
      · rw [context, receiver]
  case told =>
    intro k t ht
    rw [attempts] at ht
    rw [events]
    by_cases old : k < s.attempts.length
    · rw [List.getElem?_append_left old] at ht
      exact custody.told k t ht
    · rw [List.getElem?_append_right (Nat.le_of_not_lt old)] at ht
      have new := step.accepted.new t (List.mem_of_getElem? ht)
      rw [custody.silent k (Nat.le_of_not_lt old), new.settlement, new.program, new.invoked, own,
        processor]
      exact ⟨.refl _ _, rfl⟩
  case silent =>
    intro k beyond
    rw [events]
    rw [attempts, List.length_append] at beyond
    exact custody.silent k (by omega)

/-- An attempt steps. -/
theorem attempt (custody : Custody base s h) {a : Ambient} {k : Nat} {t : Attempt}
    (ht : s.attempts[k]? = some t) :
    Custody base
      { s with
        premises := (t.program.resume (s.site a t)).1.premises
        attempts := s.attempts.set k (s.resumed a t) }
      (h ++ s.attemptOccurrences a k t) := by
  obtain ⟨runs, follows⟩ := t.program.resume_runs (s.site a t)
  have within := (List.getElem?_eq_some_iff.mp ht).1
  have deliveries : Queue.deliveries (records (h ++ s.attemptOccurrences a k t)) =
      Queue.deliveries (records h) := by
    rw [records_append, Station.records_attemptOccurrences, Queue.deliveries_append,
      deliveries_event, List.append_nil]
  refine ⟨custody.terms, ?accounts, ?excused, ?handled, ?rejected, ?contexts, ?told, ?silent⟩
  case accounts =>
    rw [records_append, Station.records_attemptOccurrences]
    exact follows.moves.accounts custody.accounts
  case excused =>
    rw [records_append, Station.records_attemptOccurrences]
    exact custody.excused.append (excused_event a.now t.delivery.token _)
  case handled =>
    rw [deliveries, ← custody.handled]
    exact map_set_same ht (s.resumed_delivery a t)
  case rejected =>
    rw [deliveries, directs_append, directs_attemptOccurrences, List.append_nil]
    exact custody.rejected
  case contexts =>
    intro u mem
    obtain old | rfl := List.mem_or_eq_of_mem_set mem
    · exact custody.contexts u old
    · obtain ⟨payload, known⟩ := custody.contexts t (List.mem_of_getElem? ht)
      rw [s.resumed_delivery, s.resumed_context]
      exact ⟨payload, known⟩
  case told =>
    intro j u hu
    rw [eventsOf_append, Station.eventsOf_attemptOccurrences]
    obtain ⟨rfl, rfl⟩ | ⟨other, hu⟩ := getElem?_set_cases ht hu
    · obtain ⟨before, invoked⟩ := custody.told j t ht
      rw [if_pos rfl, s.resumed_context, s.resumed_invoked, List.any_append, invoked]
      exact ⟨before.trans runs, rfl⟩
    · rw [if_neg (Ne.symm other), List.append_nil]
      exact custody.told j u hu
  case silent =>
    intro j beyond
    rw [List.length_set] at beyond
    have other : k ≠ j := by omega
    rw [eventsOf_append, Station.eventsOf_attemptOccurrences, if_neg other, List.append_nil]
    exact custody.silent j beyond

end Custody

/-! ## Each delivery once -/

theorem Custody.tokens_nodup {base s : Station} {h : List Occurrence} (custody : Custody base s h) :
    ((Queue.deliveries (records h)).map (·.token)).Nodup :=
  custody.accounts.tokens_nodup.sublist ((Queue.deliveries_sublist _).map _)

/-- Among deliveries with different tokens there is one with its token. -/
theorem filter_token {ds : List Delivery} (apart : (ds.map (·.token)).Nodup) {d : Delivery}
    (mem : d ∈ ds) : ds.filter (fun e => e.token == d.token) = [d] := by
  have same : ds.filter (fun e => e.token == d.token) = ds.filter (· == d) := by
    refine List.filter_congr fun e he => ?_
    have one : e.token = d.token ↔ e = d :=
      ⟨fun same => List.inj_on_of_nodup_map apart he mem same, congrArg _⟩
    rw [Bool.eq_iff_iff, beq_iff_eq, beq_iff_eq, one]
  rw [same, List.filter_beq, List.count_eq_one_of_mem apart.of_map mem]
  rfl

/-- What becomes of the deliveries that a receiver has got: one attempt for each that can be read,
and one direct request to dead-letter each other one. -/
structure HandledOnce (base s : Station) (h : List Occurrence) : Prop where
  readable : ∀ d, base.readable d = true ↔
    (∀ label, d.message.contentType = some label →
      Format.sameIgnoringCase label base.format.contentType = true) ∧
      ∃ payload, base.format.decode base.schema d.message.body = .ok payload
  attempted : ∀ d ∈ Queue.deliveries (records h),
    s.attempts.countP (fun t => t.delivery.token == d.token) = if base.readable d then 1 else 0
  rejected : ∀ d ∈ Queue.deliveries (records h),
    (directs h).filter (fun x => x.1 == d.token) = (base.rejection? d).toList
  received : ∀ t ∈ s.attempts, t.delivery ∈ Queue.deliveries (records h)
  asked : ∀ x ∈ directs h, ∃ d ∈ Queue.deliveries (records h), base.rejection? d = some x
  pipeline : ∀ k t, s.attempts[k]? = some t →
    Runs (handle 0 base.own base.processor t.handling.context) {} (eventsOf k h)
      t.handling.settlement t.program
  /-- Nothing is locked but what was received, or stranded by a receive that broke off. -/
  locked : ∀ l ∈ s.premises.queue.locked, Queue.deliveryOf l ∈ Queue.deliveries (records h) ∨
    ∃ time lock, .stranded time lock (Queue.deliveryOf l) ∈ records h
  /-- Without a message whose count was full nothing is stranded. -/
  excused : Queue.Excused (records h)

theorem Custody.handledOnce {base s : Station} {h : List Occurrence} (custody : Custody base s h) :
    HandledOnce base s h where
  readable := base.readable_iff
  attempted d mem := by
    have here := filter_token custody.tokens_nodup mem
    calc s.attempts.countP (fun t => t.delivery.token == d.token)
        = (s.attempts.map (·.delivery)).countP (fun e => e.token == d.token) := by
          rw [List.countP_map]
          rfl
      _ = ((Queue.deliveries (records h)).filter (fun e => e.token == d.token)).countP
          base.readable := by
          rw [custody.handled, List.countP_filter, List.countP_filter]
          simp only [Bool.and_comm]
      _ = if base.readable d then 1 else 0 := by rw [here, List.countP_singleton]
  rejected d mem := by
    have here := filter_token custody.tokens_nodup mem
    calc (directs h).filter (fun x => x.1 == d.token)
        = (Queue.deliveries (records h)).filterMap fun e =>
            if e.token == d.token then base.rejection? e else none := by
          rw [custody.rejected, List.filter_filterMap]
          simp only [Station.rejection?_filter]
      _ = [d].filterMap base.rejection? := by rw [← here, List.filterMap_filter]
      _ = (base.rejection? d).toList := by cases asked : base.rejection? d <;> simp [asked]
  received t mem := by
    have mine := List.mem_map_of_mem (f := (·.delivery)) mem
    rw [custody.handled] at mine
    exact (List.mem_filter.mp mine).1
  asked x mem := by
    rw [custody.rejected] at mem
    exact List.mem_filterMap.mp mem
  pipeline k t ht := (custody.told k t ht).1
  locked l hl := by
    obtain ⟨r, mem, told⟩ := List.mem_filterMap.mp (custody.accounts.held l hl)
    cases r with
    | delivered time lock d => exact .inl (List.mem_filterMap.mpr ⟨_, mem, told⟩)
    | stranded time lock d => exact .inr ⟨time, lock, Option.some.inj told ▸ mem⟩
    | sent | lost | settled => cases told
  excused := custody.excused

namespace Duty

/-- Nothing that is done takes anything out of custody. -/
theorem happens_custody {base : Station} {s s' : Duty} {h h' : List Occurrence} {deed : Deed}
    (custody : Custody base s.station h) (happens : s.Happens deed s' h') :
    Custody base s'.station (h ++ h') := by
  have still : Custody base s.station (h ++ []) := by rwa [List.append_nil]
  cases happens with
  | loop step after =>
      exact after.aborts.preserve (P := fun _ s' => Custody base s' _)
        (fun abort custody => custody.abort abort) (custody.loop step)
  | attempt ht => exact custody.attempt ht
  | queue moves unsettled undelivered excused =>
      exact custody.queue moves unsettled undelivered excused
  | start | stop | closeGate | elsewhere | idle => exact still.same rfl rfl rfl

/-- The receiver with stages of its own. -/
def equip (s : Duty) (own : List Stage) : Duty :=
  { s with station := { s.station with own := own } }

variable (a : Ambient) (r : Receiver) (format : Format) (schema : Schema) (queue : String)
  (style : TokenStyle) (registry : Registry) (messageType : String) (own : List Stage)
  (p : Processor)

theorem begin_custody :
    let start := (begin a r format schema queue style registry messageType p).equip own
    Custody start.station start.station [] where
  terms := rfl
  accounts := .empty queue style
  excused := .nil
  handled := rfl
  rejected := rfl
  contexts t mem := by simp [equip, begin, Station.ofReceiver] at mem
  told k t ht := by simp [equip, begin, Station.ofReceiver] at ht
  silent k _ := rfl

end Duty

end Courier
