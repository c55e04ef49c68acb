import Courier.Proofs.Receiver.Seating

/-!
# Receivers under pressure

However many messages there are, a loop has at most as many attempts in flight as its capacity: it
asks for no more messages than it has room for, and while it waits for them it makes no attempts,
so its room only grows. `Room` is the invariant, with the room that a waiting loop has asked for.

When the capacity is one, as it is for a processor of which only one may run, a loop makes an
attempt only when all earlier ones have ended. So its attempts come one after the other in the order
in which the deliveries were received (`InTurn`).
-/

namespace Courier

namespace Settings

/-- The capacity is the sum of the counts; where the sum does not fit, there is none. -/
theorem capacity_le (settings : Settings) : (settings.inFlightCapacity?.getD 0).toNat ≤
    settings.maxConcurrentCalls.toNat + settings.prefetchCount.toNat := by
  simp only [inFlightCapacity?]
  split
  · rw [Option.getD_some, UInt64.toNat_ofNat']
    exact Nat.mod_le _ _
  · exact Nat.zero_le _

theorem forSingleton_capacity (settings : Settings) :
    settings.forSingleton.inFlightCapacity? = some 1 := rfl

end Settings

/-- A receiver for a processor of which only one may run. -/
theorem Receiver.build_singleton {name messageType : String} {registry : Registry}
    {settings : Settings} {config : ReceiverConfig} {registration : Registration} {r : Receiver}
    (found : registry.find? messageType = some registration)
    (single : registration.singleton = true)
    (built : Receiver.build name messageType (some registry) settings config = .ok r) :
    r.settings = settings.forSingleton := by
  simp only [build, found, single, if_true] at built
  split at built
  · simp at built
  · split at built
    · simp at built
    · obtain rfl := Except.ok.inj built
      rfl

/-! ## Room -/

/-- No loop has more attempts in flight than its capacity, also after it gets what it waits for. -/
structure Room (s : Station) : Prop where
  within : ∀ i, s.unfinished i ≤ s.capacity
  waits : ∀ i (l : ReceiveLoop), s.loops[i]? = some l → ∀ r, l.phase = .receiving r →
    0 < r.max ∧ r.max + s.unfinished i ≤ s.capacity

namespace Room

variable {s : Station}

/-- What a loop asks for it has room for. -/
theorem asked (room : Room s) {i max : Nat} {l : ReceiveLoop} (was : s.loops[i]? = some l)
    (asks : l.phase = .ready ∧ max + s.unfinished i = s.capacity ∧ 0 < max ∨
      ∃ r, l.phase = .receiving r ∧ r.max = max) :
    0 < max ∧ max + s.unfinished i ≤ s.capacity := by
  obtain ⟨_, room', some⟩ | ⟨r, phase, rfl⟩ := asks
  · exact ⟨some, Nat.le_of_eq room'⟩
  · exact room.waits i l was r phase

theorem made_le (room : Room s) {a a' : Ambient} {s' : Station} {i : Nat} {l l' : ReceiveLoop}
    {made : List Attempt} (step : s.LoopStep a a' s' i l l' made) :
    s.unfinished i + made.length ≤ s.capacity := by
  obtain ⟨look, _⟩ | ⟨max, lock, q, o, look, _, _, asks, bounded⟩ := step.cause
  · rw [step.none_of_received (Station.received_of_look look)]
    exact room.within i
  · obtain ⟨some, fits⟩ := room.asked step.was asks
    have few := step.accepted.length_le
    have size : (s.received a i).length ≤ max := by
      rw [Station.received, look]
      cases o with
      | batch ds => exact (bounded some).batch ds rfl
      | _ => exact Nat.zero_le _
    omega

theorem loop (room : Room s) {a a' : Ambient} {s' : Station} {i : Nat} {l l' : ReceiveLoop}
    {made : List Attempt} (step : s.LoopStep a a' s' i l l' made) : Room s' where
  within j := by
    rw [step.capacity]
    by_cases here : i = j
    · subst here
      rw [step.unfinished_self]
      exact room.made_le step
    · rw [step.unfinished_other here]
      exact room.within j
  waits j m hm r phase := by
    rw [step.capacity]
    rw [step.loops] at hm
    obtain ⟨rfl, rfl⟩ | ⟨other, hm⟩ := getElem?_set_cases step.was hm
    · obtain ⟨_, shifts⟩ | ⟨max, lock, q, o, look, _, after, asks, bounded⟩ := step.cause
      · exact absurd phase (shifts.not_receiving r)
      · obtain rfl := Station.phaseAfter_receiving (after.symm.trans phase)
        obtain ⟨some, fits⟩ := room.asked step.was asks
        have none : made = [] := step.none_of_received (by rw [Station.received, look]; rfl)
        rw [(bounded some).waiting r rfl, step.unfinished_self, none]
        exact ⟨some, fits⟩
    · rw [step.unfinished_other (Ne.symm other)]
      exact room.waits j m hm r phase

theorem attempt (room : Room s) {a : Ambient} {k : Nat} {t : Attempt}
    (ht : s.attempts[k]? = some t) (going : t.isOver = false) (premises : Premises) :
    Room { s with premises := premises, attempts := s.attempts.set k (s.resumed a t) } where
  within j := Nat.le_trans (Station.unfinished_resumed ht going premises j) (room.within j)
  waits j l hl r phase := by
    obtain ⟨some, asked⟩ := room.waits j l hl r phase
    have fewer := Station.unfinished_resumed (a := a) ht going premises j
    exact ⟨some, Nat.le_trans (Nat.add_le_add_left fewer _) asked⟩

theorem abort (room : Room s) {a a' : Ambient} {s' : Station} (abort : s.Abort a a' s') :
    Room s' where
  within j := by
    rw [abort.capacity]
    exact Nat.le_trans (abort.unfinished_le j) (room.within j)
  waits j l hl r phase := by
    rw [abort.loops] at hl
    rw [abort.capacity]
    obtain ⟨some, asked⟩ := room.waits j l hl r phase
    exact ⟨some, Nat.le_trans (Nat.add_le_add_left (abort.unfinished_le j) _) asked⟩

end Room

/-! ## One at a time -/

namespace Occurrence

/-- The attempt of which an occurrence tells. -/
def attempt? : Occurrence → Option Nat
  | .queue _ => none
  | .handling _ k _ _ => some k
  | .invoked i => some i.attempt

end Occurrence

/-- The attempts of which a history tells, in the order of time. -/
def attemptsOf (h : List Occurrence) : List Nat := h.filterMap Occurrence.attempt?

@[simp] theorem attemptsOf_append (h h' : List Occurrence) :
    attemptsOf (h ++ h') = attemptsOf h ++ attemptsOf h' :=
  List.filterMap_append

@[simp] theorem attemptsOf_queue (rs : List Queue.Record) : attemptsOf (rs.map .queue) = [] := by
  simp [attemptsOf, List.filterMap_map, Function.comp_def, Occurrence.attempt?]

theorem of_mem_attemptsOf {s : Station} {a : Ambient} {k : Nat} {t : Attempt} {j : Nat}
    (mem : j ∈ attemptsOf (s.attemptOccurrences a k t)) : j = k := by
  obtain ⟨o, ho, told⟩ := List.mem_filterMap.mp mem
  obtain ho | ho := List.mem_append.mp ho
  · obtain ⟨e, _, rfl⟩ := List.mem_map.mp ho
    exact (Option.some.inj told).symm
  · split at ho
    · rw [List.mem_singleton.mp ho] at told
      exact (Option.some.inj told).symm
    · simp at ho

/-- The attempts of each loop come one after the other: when one is made, all earlier ones have
ended, and nothing happens in them any more. -/
structure InTurn (s : Station) (h : List Occurrence) : Prop where
  past : ∀ (j k : Nat) (t u : Attempt), j < k → s.attempts[j]? = some t → s.attempts[k]? = some u →
    t.loop = u.loop → t.isOver = true
  heard : ∀ k ∈ attemptsOf h, k < s.attempts.length
  order : (attemptsOf h).Pairwise fun j k => ∀ t u : Attempt, s.attempts[j]? = some t →
    s.attempts[k]? = some u → t.loop = u.loop → j ≤ k

namespace InTurn

variable {s : Station} {h : List Occurrence}

theorem same (turns : InTurn s h) {s' : Station} {h' : List Occurrence}
    (attempts : s'.attempts = s.attempts) (told : attemptsOf h' = attemptsOf h) : InTurn s' h' where
  past := attempts ▸ turns.past
  heard := by rw [attempts, told]; exact turns.heard
  order := by rw [attempts, told]; exact turns.order

/-- A loop that has room for one makes an attempt only when all of its attempts have ended. -/
theorem loop (turns : InTurn s h) (room : Room s) (one : s.capacity ≤ 1) {a a' : Ambient}
    {s' : Station} {i : Nat} {l l' : ReceiveLoop} {made : List Attempt}
    (step : s.LoopStep a a' s' i l l' made) :
    InTurn s' (h ++ (s.loopRecords a i).map .queue) := by
  have attempts : s'.attempts = s.attempts ++ made := step.accepted.attempts
  have few := Nat.le_trans (room.made_le step) one
  have told : attemptsOf (h ++ (s.loopRecords a i).map .queue) = attemptsOf h := by
    rw [attemptsOf_append, attemptsOf_queue, List.append_nil]
  have old {k : Nat} (within : k < s.attempts.length) : s'.attempts[k]? = s.attempts[k]? := by
    rw [attempts, List.getElem?_append_left within]
  refine ⟨?past, ?heard, ?order⟩
  case past =>
    intro j k t u lt ht hu same
    by_cases known : k < s.attempts.length
    · rw [old known] at hu
      rw [old (Nat.lt_trans lt known)] at ht
      exact turns.past j k t u lt ht hu same
    · rw [attempts, List.getElem?_append_right (Nat.le_of_not_lt known)] at hu
      have new := step.accepted.new u (List.mem_of_getElem? hu)
      have some := (List.getElem?_eq_some_iff.mp hu).1
      -- the new attempt is the only one, and nothing else of its loop is in flight
      have before : j < s.attempts.length := by omega
      rw [old before] at ht
      exact Station.over_of_unfinished (by omega) (List.mem_of_getElem? ht) (same.trans new.loop)
  case heard =>
    intro k mem
    rw [told] at mem
    rw [attempts, List.length_append]
    exact Nat.lt_of_lt_of_le (turns.heard k mem) (Nat.le_add_right _ _)
  case order =>
    rw [told]
    refine turns.order.imp_of_mem fun {j k} hj hk ordered t u ht hu => ?_
    rw [old (turns.heard j hj)] at ht
    rw [old (turns.heard k hk)] at hu
    exact ordered t u ht hu

/-- An attempt that goes on is the last one of its loop. -/
theorem attempt (turns : InTurn s h) {a : Ambient} {k : Nat} {t : Attempt}
    (ht : s.attempts[k]? = some t) (going : t.isOver = false) (premises : Premises) :
    InTurn { s with premises := premises, attempts := s.attempts.set k (s.resumed a t) }
      (h ++ s.attemptOccurrences a k t) := by
  have last {j : Nat} {u : Attempt} (hu : s.attempts[j]? = some u) (same : t.loop = u.loop) :
      j ≤ k := by
    refine Nat.le_of_not_lt fun later => ?_
    rw [turns.past k j t u later ht hu same] at going
    simp at going
  -- going on leaves an attempt with its loop
  have loop {j : Nat} {u : Attempt} (hu : (s.attempts.set k (s.resumed a t))[j]? = some u) :
      ∃ u', s.attempts[j]? = some u' ∧ u'.loop = u.loop ∧ (j ≠ k → u' = u) := by
    obtain ⟨rfl, rfl⟩ | ⟨other, hu⟩ := getElem?_set_cases ht hu
    · exact ⟨t, ht, rfl, fun other => absurd rfl other⟩
    · exact ⟨u, hu, rfl, fun _ => rfl⟩
  refine ⟨?past, ?heard, ?order⟩
  case past =>
    intro j j' u v lt hu hv same
    obtain ⟨u', hu', loop_u, same_u⟩ := loop hu
    obtain ⟨v', hv', loop_v, _⟩ := loop hv
    have together : u'.loop = v'.loop := loop_u.trans (same.trans loop_v.symm)
    have ended := turns.past j j' u' v' lt hu' hv' together
    by_cases here : j = k
    · subst here
      obtain rfl := Option.some.inj (ht.symm.trans hu')
      rw [ended] at going
      simp at going
    · rwa [same_u here] at ended
  case heard =>
    intro j mem
    rw [List.length_set]
    rw [attemptsOf_append] at mem
    obtain old | new := List.mem_append.mp mem
    · exact turns.heard j old
    · rw [of_mem_attemptsOf new]
      exact (List.getElem?_eq_some_iff.mp ht).1
  case order =>
    rw [attemptsOf_append]
    refine List.pairwise_append.mpr ⟨?_, ?_, ?_⟩
    · refine turns.order.imp fun {j j'} ordered u v hu hv same => ?_
      obtain ⟨u', hu', loop_u, _⟩ := loop hu
      obtain ⟨v', hv', loop_v, _⟩ := loop hv
      exact ordered u' v' hu' hv' (loop_u.trans (same.trans loop_v.symm))
    · refine List.pairwise_of_forall_mem_list fun j hj j' hj' _ _ _ _ _ => ?_
      rw [of_mem_attemptsOf hj, of_mem_attemptsOf hj']
    · intro j _ j' hj' u v hu hv same
      obtain rfl := of_mem_attemptsOf hj'
      obtain ⟨u', hu', loop_u, _⟩ := loop hu
      obtain ⟨v', hv', loop_v, _⟩ := loop hv
      obtain rfl := Option.some.inj (ht.symm.trans hv')
      exact last hu' (loop_v.trans (same.symm.trans loop_u.symm))

/-- An attempt that is aborted is over. -/
theorem abort (turns : InTurn s h) {a a' : Ambient} {s' : Station} (abort : s.Abort a a' s') :
    InTurn s' h := by
  have length : s'.attempts.length = s.attempts.length := by
    simpa using congrArg List.length abort.deliveries
  refine ⟨fun j k t u lt ht hu same => ?_, length ▸ turns.heard, ?_⟩
  · obtain ⟨t', ht', same_t⟩ := abort.attempt_before ht
    obtain ⟨u', hu', same_u⟩ := abort.attempt_before hu
    rw [same_t, same_u] at same
    exact abort.over_of_over (turns.past j k t' u' lt ht' hu' same) ht' ht
  · refine turns.order.imp fun {j k} ordered t u ht hu same => ?_
    obtain ⟨t', ht', same_t⟩ := abort.attempt_before ht
    obtain ⟨u', hu', same_u⟩ := abort.attempt_before hu
    rw [same_t, same_u] at same
    exact ordered t' u' ht' hu' same

end InTurn

/-- Each attempt hands its delivery to the processor at most once, as far as a history tells. -/
structure Handed (s : Station) (h : List Occurrence) : Prop where
  once : ((invocations h).map (·.attempt)).Nodup
  handed : ∀ v ∈ invocations h, ∃ t, s.attempts[v.attempt]? = some t ∧ t.delivery = v.delivery ∧
    t.handling.invoked = true

namespace Handed

variable {s : Station} {h : List Occurrence}

theorem grow (told : Handed s h) {s' : Station} {h' : List Occurrence} {made : List Attempt}
    (attempts : s'.attempts = s.attempts ++ made) (same : invocations h' = invocations h) :
    Handed s' h' where
  once := same ▸ told.once
  handed v mem := by
    rw [same] at mem
    obtain ⟨t, ht, known⟩ := told.handed v mem
    rw [attempts]
    exact ⟨t, getElem?_append_of_some ht _, known⟩

theorem attempt (told : Handed s h) {a : Ambient} {k : Nat} {t : Attempt}
    (ht : s.attempts[k]? = some t) (premises : Premises) :
    Handed { s with premises := premises, attempts := s.attempts.set k (s.resumed a t) }
      (h ++ s.attemptOccurrences a k t) := by
  have within := (List.getElem?_eq_some_iff.mp ht).1
  refine ⟨?once, ?handed⟩
  case once =>
    rw [invocations_append, List.map_append]
    refine List.nodup_append.mpr ⟨told.once, ?_, ?_⟩
    · rw [Station.invocations_attemptOccurrences]
      split <;> simp
    · intro j hj j' hj' same
      obtain ⟨v, new, rfl⟩ := List.mem_map.mp hj'
      obtain ⟨w, old, rfl⟩ := List.mem_map.mp hj
      obtain ⟨rfl, before, _⟩ := s.of_mem_invocations a k t new
      obtain ⟨t', ht', _, invoked⟩ := told.handed w old
      rw [same] at ht'
      obtain rfl := Option.some.inj (ht.symm.trans ht')
      simp [before] at invoked
  case handed =>
    intro v mem
    rw [invocations_append] at mem
    obtain old | new := List.mem_append.mp mem
    · obtain ⟨u, hu, same, invoked⟩ := told.handed v old
      by_cases here : v.attempt = k
      · rw [here] at hu
        obtain rfl := Option.some.inj (ht.symm.trans hu)
        refine ⟨s.resumed a t, by simp [here, within], (s.resumed_delivery a t).trans same, ?_⟩
        rw [s.resumed_invoked, invoked, Bool.true_or]
      · exact ⟨u, by simpa [Ne.symm here] using hu, same, invoked⟩
    · obtain ⟨rfl, _, invoked⟩ := s.of_mem_invocations a k t new
      exact ⟨s.resumed a t, by simp [within], s.resumed_delivery a t, invoked⟩

theorem abort (told : Handed s h) {a a' : Ambient} {s' : Station} (abort : s.Abort a a' s') :
    Handed s' h where
  once := told.once
  handed v mem := by
    obtain ⟨t, ht, known⟩ := told.handed v mem
    obtain ⟨b, ht'⟩ := abort.attempt ht
    exact ⟨_, ht', known⟩

end Handed

/-- What the attempts of a loop handed to the processor, in the order of time. -/
def handedBy (s : Station) (i : Nat) (h : List Occurrence) : List Invocation :=
  (invocations h).filter fun v => s.attempts[v.attempt]?.any fun t => t.loop == i

theorem invocations_sublist (h : List Occurrence) :
    ((invocations h).map (·.attempt)).Sublist (attemptsOf h) := by
  induction h with
  | nil => exact .slnil
  | cons o rest ih =>
      cases o with
      | queue r => exact ih
      | handling time k d e => exact ih.cons k
      | invoked v => exact ih.cons_cons v.attempt

/-- In turn, a loop's attempts hand their deliveries to the processor in the order in which these
were received. -/
theorem InTurn.handedBy_sublist {s : Station} {h : List Occurrence} (turns : InTurn s h)
    (told : Handed s h) (i : Nat) :
    ((handedBy s i h).map (·.delivery)).Sublist (s.attempts.map (·.delivery)) := by
  have mine {v : Invocation} (mem : v ∈ handedBy s i h) :
      ∃ t, s.attempts[v.attempt]? = some t ∧ t.delivery = v.delivery ∧ t.loop = i := by
    obtain ⟨listed, loop⟩ := List.mem_filter.mp mem
    obtain ⟨t, ht, same, _⟩ := told.handed v listed
    rw [ht] at loop
    exact ⟨t, ht, same, by simpa using loop⟩
  have ordered := List.pairwise_map.mp (turns.order.sublist (invocations_sublist h))
  have apart := List.pairwise_map.mp told.once
  refine sublist_of_places (f := Invocation.delivery) (p := Invocation.attempt) (fun v mem => ?_) ?_
  · obtain ⟨t, ht, same, _⟩ := mine mem
    simp [ht, same]
  · refine ((ordered.and apart).sublist List.filter_sublist).imp_of_mem ?_
    rintro v w hv hw ⟨le, ne⟩
    obtain ⟨t, ht, _, mine_t⟩ := mine hv
    obtain ⟨u, hu, _, mine_u⟩ := mine hw
    exact Nat.lt_of_le_of_ne (le t u ht hu (mine_t.trans mine_u.symm)) ne

/-! ## Runs -/

namespace Duty

variable {s s' : Duty} {h h' : List Occurrence} {deed : Deed}

theorem happens_room (room : Room s.station) (happens : s.Happens deed s' h') :
    Room s'.station := by
  cases happens with
  | loop step after =>
      exact after.aborts.preserve (P := fun _ s' => Room s') (fun abort room => room.abort abort)
        (room.loop step)
  | attempt ht going => exact room.attempt ht going _
  | start none =>
      refine ⟨room.within, fun i l hl r phase => ?_⟩
      obtain old | ⟨_, rfl⟩ := getElem?_concat_cases hl
      · exact room.waits i l old r phase
      · cases phase
  | stop | closeGate | queue | elsewhere | idle => exact ⟨room.within, room.waits⟩

theorem run_room {start : Duty} (begun : Room start.station) (deeds : List Deed) :
    Room (start.run deeds).1.station :=
  run_induction (P := fun _ s _ => Room s.station) begun
    (fun _ _ _ _ _ _ _ happens room => happens_room room happens) deeds

theorem happens_handed (told : Handed s.station h) (happens : s.Happens deed s' h') :
    Handed s'.station (h ++ h') := by
  cases happens with
  | loop step after =>
      refine after.aborts.preserve (P := fun _ s' => Handed s' _)
        (fun abort told => told.abort abort) (told.grow step.accepted.attempts ?_)
      rw [invocations_append, invocations_queue, List.append_nil]
  | attempt ht => exact told.attempt ht _
  | queue =>
      refine told.grow (List.append_nil _).symm ?_
      rw [invocations_append, invocations_queue, List.append_nil]
  | start | stop | closeGate | elsewhere | idle =>
      exact told.grow (List.append_nil _).symm (by rw [List.append_nil])

theorem happens_inTurn (turns : InTurn s.station h) (room : Room s.station)
    (one : s.station.capacity ≤ 1) (happens : s.Happens deed s' h') :
    InTurn s'.station (h ++ h') := by
  cases happens with
  | loop step after =>
      exact after.aborts.preserve (P := fun _ s' => InTurn s' _)
        (fun abort turns => turns.abort abort) (turns.loop room one step)
  | attempt ht going => exact turns.attempt ht going _
  | queue =>
      refine turns.same rfl ?_
      rw [attemptsOf_append, attemptsOf_queue, List.append_nil]
  | start | stop | closeGate | elsewhere | idle =>
      exact turns.same rfl (by rw [List.append_nil])

end Duty

/-! ## Back-pressure -/

/-- What bounds the attempts of a receiver. An attempt that has begun and not ended, and that has
no slot, waits for one, so it runs neither the receiver's own stages nor the processor. -/
structure Bounded (base s : Station) (h : List Occurrence) : Prop where
  inFlight : ∀ i, s.unfinished i ≤
    base.receiver.settings.maxConcurrentCalls.toNat + base.receiver.settings.prefetchCount.toNat
  inside : (s.places h).countP Place.isInside ≤ base.receiver.settings.maxConcurrentCalls.toNat
  passes : ∀ k, Place.outside.Passes (eventsOf k h)
  waits : ∀ k (t : Attempt), s.attempts[k]? = some t → t.isOver = false →
    eventsOf k h = [] ∨ (placeOf k h).isInside = true ∨
      ∃ ticket rest, placeOf k h = .waiting ticket ∧ t.program = .await (.slot 0 ticket) rest

/-- The attempts of a receiver one at a time, in the order of their deliveries. -/
structure OneByOne (s : Station) (h : List Occurrence) : Prop where
  inFlight : ∀ i, s.unfinished i ≤ 1
  inside : (s.places h).countP Place.isInside ≤ 1
  turns : InTurn s h
  order : ∀ i, ((handedBy s i h).map (·.delivery)).Sublist (Queue.deliveries (records h))

/-- All that is kept about the pressure on a receiver. -/
structure Pressed (base s : Station) (h : List Occurrence) : Prop where
  seating : Seating base s h
  room : Room s
  handed : Handed s h
  turns : base.capacity ≤ 1 → InTurn s h

namespace Pressed

variable {base s : Station} {h : List Occurrence}

theorem capacity (pressed : Pressed base s h) : s.capacity = base.capacity := by
  rw [Station.capacity, Station.capacity,
    (Station.terms_eq pressed.seating.custody.terms).1]

theorem bounded (pressed : Pressed base s h) (slots : base.receiver.slots =
      base.receiver.settings.maxConcurrentCalls.toNat)
    (stages : ∀ stage ∈ base.own, stage.Polite) (polite : base.processor.Polite) :
    Bounded base s h where
  inFlight i := Nat.le_trans (pressed.room.within i) (pressed.capacity ▸ Settings.capacity_le _)
  inside := slots ▸ pressed.seating.seats.inside_le
  passes k := by
    cases ht : s.attempts[k]? with
    | none =>
        rw [pressed.seating.custody.silent k (List.getElem?_eq_none_iff.mp ht)]
        trivial
    | some t => exact (pressed.seating.keeps stages polite ht).2
  waits k t ht going := by
    by_cases begun : eventsOf k h = []
    · exact .inl begun
    · exact .inr (pressed.seating.inside_or_waits stages polite ht begun going)

theorem oneByOne (pressed : Pressed base s h) (one : base.capacity ≤ 1)
    (slots : base.receiver.slots ≤ 1) : OneByOne s h where
  inFlight i := Nat.le_trans (pressed.room.within i) (pressed.capacity ▸ one)
  inside := Nat.le_trans pressed.seating.seats.inside_le slots
  turns := pressed.turns one
  order i := by
    refine ((pressed.turns one).handedBy_sublist pressed.handed i).trans ?_
    rw [pressed.seating.custody.handled]
    exact List.filter_sublist

end Pressed

namespace Duty

theorem happens_pressed {base : Station} {s s' : Duty} {h h' : List Occurrence} {deed : Deed}
    (pressed : Pressed base s.station h) (stages : ∀ stage ∈ base.own, stage.Polite)
    (polite : base.processor.Polite) (happens : s.Happens deed s' h') :
    Pressed base s'.station (h ++ h') where
  seating := happens_seating pressed.seating stages polite happens
  room := happens_room pressed.room happens
  handed := happens_handed pressed.handed happens
  turns one := happens_inTurn (pressed.turns one) pressed.room (pressed.capacity ▸ one) happens

section

variable (a : Ambient) (r : Receiver) (format : Format) (schema : Schema) (queue : String)
  (style : TokenStyle) (registry : Registry) (messageType : String) (own : List Stage)
  (p : Processor)

theorem begin_pressed :
    let start := (begin a r format schema queue style registry messageType p).equip own
    Pressed start.station start.station [] where
  seating := begin_seating a r format schema queue style registry messageType own p
  room := ⟨fun _ => Nat.zero_le _, fun i l hl => by
    simp [equip, begin, Station.ofReceiver] at hl⟩
  handed := ⟨.nil, fun v mem => by simp [invocations] at mem⟩
  turns _ := ⟨fun j k t u _ ht => by simp [equip, begin, Station.ofReceiver] at ht,
    fun k mem => by simp [attemptsOf] at mem, .nil⟩

theorem run_pressed (stages : ∀ stage ∈ own, stage.Polite) (polite : p.Polite)
    (deeds : List Deed) :
    let start := (begin a r format schema queue style registry messageType p).equip own
    Pressed start.station (start.run deeds).1.station (start.run deeds).2 := by
  intro start
  exact run_induction (P := fun _ s h => Pressed start.station s.station h)
    (begin_pressed a r format schema queue style registry messageType own p)
    (fun _ _ _ _ _ _ _ happens pressed => happens_pressed pressed stages polite happens) deeds

/-- Whatever messages there are and whatever is done, a loop never has more attempts in flight than
calls and messages fetched ahead are allowed together, and never more of a receiver's attempts than
calls are allowed are past the gate. A processor of which only one may run gets one delivery at a
time, in the order in which they were received. -/
theorem pressure_bounded (stages : ∀ stage ∈ own, stage.Polite) (polite : p.Polite)
    (deeds : List Deed) :
    let start := (begin a r format schema queue style registry messageType p).equip own
    let s := (start.run deeds).1.station
    let h := (start.run deeds).2
    Bounded start.station s h ∧
      ∀ name settings config registration, registry.find? messageType = some registration →
        registration.singleton = true →
        Receiver.build name messageType (some registry) settings config = .ok r →
        OneByOne s h := by
  intro start s h
  have pressed : Pressed start.station s h :=
    run_pressed a r format schema queue style registry messageType own p stages polite deeds
  refine ⟨pressed.bounded rfl stages polite, ?_⟩
  intro name settings config registration found single built
  have effective : r.settings = settings.forSingleton := Receiver.build_singleton found single built
  have capacity : start.station.capacity = 1 := by
    change (r.settings.inFlightCapacity?.getD 0).toNat = 1
    rw [effective, settings.forSingleton_capacity]
    rfl
  have slots : start.station.receiver.slots = 1 := by
    change r.settings.maxConcurrentCalls.toNat = 1
    rw [effective]
    rfl
  exact pressed.oneByOne (Nat.le_of_eq capacity) (Nat.le_of_eq slots)

end

/-- A processor of which only one may run. -/
def solo : Registration := ⟨"solo", true, .succeeds⟩

/-- A stage that waits. -/
def pausing : Stage := fun _ inner => .await (.until 10) inner

/-- A receiver for such a processor, with such a stage. -/
def soloist : Duty :=
  (begin {} ⟨"orders", "solo", true, ({} : Settings).forSingleton, {}⟩ .json .value "orders"
    .numbered (({} : Registry).register "order" solo) "order"
    fun _ => .done .passed).equip [pausing]

/-- Two messages are there, and the second has to wait until the first is handled. -/
def soloistDeeds : List Deed :=
  [.start ⟨[]⟩, .queue (.send { body := Utf8.encode "1" }),
    .queue (.send { body := Utf8.encode "2" }), .loop 0, .loop 0, .attempt 0, .loop 0,
    .elsewhere { clock := { now := 1000000 } }, .loop 0, .attempt 0, .loop 0, .loop 0, .attempt 1]

theorem pressure_bounded_soloist :
    let s := (soloist.run soloistDeeds).1.station
    let h := (soloist.run soloistDeeds).2
    s.attempts.map (·.isOver) = [true, true] ∧ (invocations h).map (·.attempt) = [0, 1] ∧
      Bounded soloist.station s h ∧ OneByOne s h := by
  have found : (({} : Registry).register "order" solo).find? "order" = some solo := by
    decide +kernel
  have built :
      Receiver.build "orders" "order" (some (({} : Registry).register "order" solo)) {} {} =
        .ok ⟨"orders", "solo", true, ({} : Settings).forSingleton, {}⟩ := by
    simp only [Receiver.build, found]
    rfl
  have stages : ∀ stage ∈ [pausing], stage.Polite := by
    intro stage mem ctx inner only
    obtain rfl := List.mem_singleton.mp mem
    exact only
  refine ⟨by decide +kernel, by decide +kernel, ?_⟩
  unfold soloist
  obtain ⟨bounded, alone⟩ := pressure_bounded {}
    ⟨"orders", "solo", true, ({} : Settings).forSingleton, {}⟩ .json .value "orders" .numbered
    (({} : Registry).register "order" solo) "order" [pausing] (fun _ => .done .passed) stages
    (fun _ => trivial) soloistDeeds
  exact ⟨bounded, alone "orders" {} {} _ found rfl built⟩

end Duty

end Courier
