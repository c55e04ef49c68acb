import Courier.Proofs.Receiver.Custody
import Courier.Proofs.Receiver.Tickets

/-!
# The gate of a receiver and its attempts

All attempts of a receiver go through one gate. `Seating` says that those inside are the ones that
hold its slots, so there are never more of them than slots, and that an attempt that has begun and
is not over is inside or waits for a slot. Those that were aborted are outside. It is assumed that
the receiver's own stages and the processor leave the gate alone.
-/

namespace Courier

open Program (Runs)

/-- The place of an attempt by what a history tells of it. -/
def placeOf (k : Nat) (h : List Occurrence) : Place := .of (eventsOf k h)

namespace Station

/-- Where an attempt is: outside if it was aborted, else where the history tells. -/
def place (s : Station) (h : List Occurrence) (k : Nat) : Place :=
  if s.attempts[k]?.any (·.aborted) then .outside else placeOf k h

/-- The places of all attempts. -/
def places (s : Station) (h : List Occurrence) : List Place :=
  (List.range s.attempts.length).map (s.place h)

theorem place_of_kept {s : Station} {k : Nat} {t : Attempt} (ht : s.attempts[k]? = some t)
    (kept : t.aborted = false) (h : List Occurrence) : s.place h k = placeOf k h := by
  rw [place, ht, Option.any_some, kept, if_neg Bool.false_ne_true]

theorem place_of_aborted {s : Station} {k : Nat} {t : Attempt} (ht : s.attempts[k]? = some t)
    (aborted : t.aborted = true) (h : List Occurrence) : s.place h k = .outside := by
  rw [place, ht, Option.any_some, aborted, if_pos rfl]

theorem places_eq {s s' : Station} {h h' : List Occurrence} (attempts : s'.attempts = s.attempts)
    (events : ∀ k, eventsOf k h' = eventsOf k h) : s'.places h' = s.places h := by
  unfold places place placeOf
  rw [attempts]
  exact List.map_congr_left fun k _ => by rw [events]

theorem getElem?_places {s : Station} {k : Nat} (within : k < s.attempts.length)
    (h : List Occurrence) : (s.places h)[k]? = some (s.place h k) := by
  simp [places, within]

/-- One attempt changes, and what is told of the others does not. -/
theorem places_set {s s' : Station} {h h' : List Occurrence} {k : Nat} {t : Attempt}
    (within : k < s.attempts.length) (attempts : s'.attempts = s.attempts.set k t)
    (elsewhere : ∀ j, k ≠ j → placeOf j h' = placeOf j h) :
    s'.places h' = (s.places h).set k (if t.aborted then .outside else placeOf k h') := by
  have here : s'.place h' k = if t.aborted then .outside else placeOf k h' := by
    rw [place, attempts, List.getElem?_set_self within, Option.any_some]
  rw [← here, places, attempts, List.length_set]
  refine map_range_set (fun j other => ?_) _
  rw [place, place, attempts, List.getElem?_set_ne other, elsewhere j other]

theorem seats_set {s : Station} {h : List Occurrence} {k : Nat} (within : k < s.attempts.length)
    {g : Gate} {n : Nat} {pl : Place}
    (seats : g.Seats n (pl :: (s.places h).eraseIdx k)) : g.Seats n ((s.places h).set k pl) :=
  seats.of_perm (List.set_perm_cons_eraseIdx (by simpa [places] using within) _).symm

theorem seats_cons {s : Station} {h : List Occurrence} {k : Nat} (within : k < s.attempts.length)
    {g : Gate} {n : Nat} (seats : g.Seats n (s.places h)) :
    g.Seats n (s.place h k :: (s.places h).eraseIdx k) := by
  obtain ⟨bound, here⟩ := List.getElem?_eq_some_iff.mp (getElem?_places within h)
  rw [← here]
  exact seats.of_perm (List.getElem_cons_eraseIdx_perm bound).symm

end Station

/-- Whether an attempt has not begun, has ended, or waits. -/
def Attempt.Rests (t : Attempt) (events : List Event) : Prop :=
  events = [] ∨ (∃ verdict, t.program = .done verdict) ∨ ∃ p rest, t.program = .await p rest

/-- The slots of the gate are with the attempts that are inside. -/
structure Seating (base s : Station) (h : List Occurrence) : Prop where
  custody : Custody base s h
  ticketed : s.Ticketed
  tickets : ∀ k (t : Attempt) n, s.attempts[k]? = some t → (placeOf k h).ticket? = some n →
    (0, n) ∈ t.tickets
  seats : s.gate.Seats base.receiver.slots (s.places h)
  rests : ∀ k (t : Attempt), s.attempts[k]? = some t → t.Rests (eventsOf k h)

namespace Seating

variable {base s : Station} {h : List Occurrence}

/-- What an attempt has left to do keeps to its place, and what it has done was at its place. -/
theorem keeps (seating : Seating base s h) (stages : ∀ stage ∈ base.own, stage.Polite)
    (polite : base.processor.Polite) {k : Nat} {t : Attempt} (ht : s.attempts[k]? = some t) :
    t.program.Keeps (fun pl _ => pl = .outside) (placeOf k h) ∧
      Place.outside.Passes (eventsOf k h) :=
  (handle_keeps stages polite _).runs (seating.custody.told k t ht).1

/-- An attempt that has come to its end is outside. -/
theorem outside_of_done (seating : Seating base s h) (stages : ∀ stage ∈ base.own, stage.Polite)
    (polite : base.processor.Polite) {k : Nat} {t : Attempt} (ht : s.attempts[k]? = some t)
    (past : t.isDone = true) : placeOf k h = .outside := by
  have keeps := (seating.keeps stages polite ht).1
  unfold Attempt.isDone at past
  cases program : t.program with
  | done verdict => rwa [program] at keeps
  | call e rest => simp [program, Program.result?] at past
  | await p rest => simp [program, Program.result?] at past

/-- An attempt that is over is outside. -/
theorem outside_of_over (seating : Seating base s h) (stages : ∀ stage ∈ base.own, stage.Polite)
    (polite : base.processor.Polite) {k : Nat} {t : Attempt} (ht : s.attempts[k]? = some t)
    (past : t.isOver = true) : s.place h k = .outside := by
  cases aborted : t.aborted with
  | true => exact Station.place_of_aborted ht aborted h
  | false =>
      rw [Station.place_of_kept ht aborted]
      exact seating.outside_of_done stages polite ht (Attempt.isOver_of_kept aborted ▸ past)

/-- An attempt that has begun and is not over is inside, or it waits for the slot of its ticket. -/
theorem inside_or_waits (seating : Seating base s h) (stages : ∀ stage ∈ base.own, stage.Polite)
    (polite : base.processor.Polite) {k : Nat} {t : Attempt} (ht : s.attempts[k]? = some t)
    (begun : eventsOf k h ≠ []) (going : t.isOver = false) :
    (placeOf k h).isInside = true ∨
      ∃ ticket rest, placeOf k h = .waiting ticket ∧ t.program = .await (.slot 0 ticket) rest := by
  have keeps := (seating.keeps stages polite ht).1
  obtain none | ⟨verdict, done⟩ | ⟨p, rest, waits⟩ := seating.rests k t ht
  · exact absurd none begun
  · simp [Attempt.isOver, Attempt.isDone, done, Program.result?] at going
  · rw [waits] at keeps
    obtain inside | ⟨ticket, place, rfl⟩ := keeps.1
    · exact .inl inside
    · exact .inr ⟨ticket, rest, place, waits⟩

/-- What is told of no attempt changes nothing, if the gate stays. -/
theorem same (seating : Seating base s h) {s' : Station} {h' : List Occurrence}
    (custody : Custody base s' h') (gates : s'.premises.gates = s.premises.gates)
    (attempts : s'.attempts = s.attempts) (events : ∀ k, eventsOf k h' = eventsOf k h) :
    Seating base s' h' where
  custody := custody
  ticketed := seating.ticketed.same gates attempts
  tickets k t n ht ticket := by
    rw [attempts] at ht
    rw [placeOf, events] at ticket
    exact seating.tickets k t n ht ticket
  seats := by
    have gate : s'.gate = s.gate := by rw [Station.gate, Station.gate, Premises.gate, gates]; rfl
    rw [gate, Station.places_eq attempts events]
    exact seating.seats
  rests k t ht := by
    rw [attempts] at ht
    rw [events]
    exact seating.rests k t ht

/-- The gate is closed. -/
theorem closeGate (seating : Seating base s h) (custody : Custody base s.closeGate h) :
    Seating base s.closeGate h where
  custody := custody
  ticketed := seating.ticketed.closeGate
  tickets := seating.tickets
  seats := by
    have gate : s.closeGate.gate = s.gate.close := by
      rw [Station.gate, Station.closeGate, Premises.gate_setGate seating.ticketed.gates, if_pos rfl]
    rw [gate]
    exact seating.seats.close
  rests := seating.rests

/-- A loop steps. The attempts that it makes are outside. -/
theorem loop (seating : Seating base s h) {a a' : Ambient} {s' : Station} {i : Nat}
    {l l' : ReceiveLoop} {made : List Attempt} (step : s.LoopStep a a' s' i l l' made) :
    Seating base s' (h ++ (s.loopRecords a i).map .queue) := by
  have gates : s'.premises.gates = s.premises.gates := by rw [step.frame]
  have attempts : s'.attempts = s.attempts ++ made := step.accepted.attempts
  have events (k : Nat) : eventsOf k (h ++ (s.loopRecords a i).map .queue) = eventsOf k h := by
    rw [eventsOf_append, eventsOf_queue, List.append_nil]
  have places (k : Nat) : placeOf k (h ++ (s.loopRecords a i).map .queue) = placeOf k h := by
    rw [placeOf, events, placeOf]
  have fresh (k : Nat) (new : s.attempts.length ≤ k) : eventsOf k h = [] :=
    seating.custody.silent k new
  refine ⟨seating.custody.loop step, seating.ticketed.loop step, ?tickets, ?seats, ?rests⟩
  case tickets =>
    intro k t n ht ticket
    rw [places] at ticket
    by_cases old : k < s.attempts.length
    · rw [attempts, List.getElem?_append_left old] at ht
      exact seating.tickets k t n ht ticket
    · rw [placeOf, fresh k (Nat.le_of_not_lt old)] at ticket
      cases ticket
  case seats =>
    have gate : s'.gate = s.gate := by rw [Station.gate, Station.gate, Premises.gate, gates]; rfl
    have split : s'.places (h ++ (s.loopRecords a i).map .queue) = s.places h ++
        (List.range made.length).map fun k => s'.place h (s.attempts.length + k) := by
      have old (k : Nat) (within : k ∈ List.range s.attempts.length) :
          s'.place (h ++ (s.loopRecords a i).map .queue) k = s.place h k := by
        rw [Station.place, Station.place, attempts,
          List.getElem?_append_left (List.mem_range.mp within), places]
      have all (k : Nat) :
          s'.place (h ++ (s.loopRecords a i).map .queue) k = s'.place h k := by
        rw [Station.place, Station.place, places]
      rw [Station.places, attempts, List.length_append, List.range_add, List.map_append,
        List.map_map, List.map_congr_left old]
      exact congrArg _ (List.map_congr_left fun k _ => all _)
    rw [gate, split]
    apply seating.seats.append
    intro pl mem
    obtain ⟨k, _, rfl⟩ := List.mem_map.mp mem
    rw [Station.place, placeOf, fresh _ (Nat.le_add_right _ _)]
    exact ite_self _
  case rests =>
    intro k t ht
    rw [events]
    by_cases old : k < s.attempts.length
    · rw [attempts, List.getElem?_append_left old] at ht
      exact seating.rests k t ht
    · exact .inl (fresh k (Nat.le_of_not_lt old))

/-- An attempt steps. -/
theorem attempt (seating : Seating base s h) (stages : ∀ stage ∈ base.own, stage.Polite)
    (polite : base.processor.Polite) {a : Ambient} {k : Nat} {t : Attempt}
    (ht : s.attempts[k]? = some t) (kept : t.aborted = false) :
    Seating base
      { s with
        premises := (t.program.resume (s.site a t)).1.premises
        attempts := s.attempts.set k (s.resumed a t) }
      (h ++ s.attemptOccurrences a k t) := by
  obtain ⟨runs, follows⟩ := t.program.resume_runs (s.site a t)
  have within := (List.getElem?_eq_some_iff.mp ht).1
  have events (j : Nat) : eventsOf j (h ++ s.attemptOccurrences a k t) =
      eventsOf j h ++ if k = j then t.program.trace (s.site a t) else [] := by
    rw [eventsOf_append, Station.eventsOf_attemptOccurrences]
  have elsewhere {j : Nat} (other : k ≠ j) :
      placeOf j (h ++ s.attemptOccurrences a k t) = placeOf j h := by
    rw [placeOf, events, if_neg other, List.append_nil]
    rfl
  have after : placeOf k (h ++ s.attemptOccurrences a k t) =
      (t.program.trace (s.site a t)).foldl Place.after (placeOf k h) := by
    rw [placeOf, events, if_pos rfl, Place.of_append]
    rfl
  obtain ⟨_, passes⟩ := (seating.keeps stages polite ht).1.runs runs
  have gates := seating.ticketed.gates
  refine ⟨seating.custody.attempt ht, seating.ticketed.attempt ht, ?tickets, ?seats, ?rests⟩
  case tickets =>
    intro j u n hu ticket
    obtain ⟨rfl, rfl⟩ | ⟨other, hu⟩ := getElem?_set_cases ht hu
    · rw [after] at ticket
      refine List.mem_append.mpr ((follows.ticket passes gates ticket).imp ?_ ?_)
      · exact seating.tickets j t n ht
      · exact (Premises.mem_ticketsSince (follows.gates gates)).mpr
    · rw [elsewhere (Ne.symm other)] at ticket
      exact seating.tickets j u n hu ticket
  case seats =>
    have before := Station.seats_cons within seating.seats
    rw [Station.place_of_kept ht kept] at before
    have stays : (s.resumed a t).aborted = false := kept
    rw [Station.places_set within rfl fun j => elsewhere, stays, if_neg Bool.false_ne_true, after]
    exact Station.seats_set within (follows.seats passes before gates)
  case rests =>
    intro j u hu
    rw [events]
    obtain ⟨rfl, rfl⟩ | ⟨other, hu⟩ := getElem?_set_cases ht hu
    · obtain ⟨verdict, done⟩ | ⟨p, rest, waits, _⟩ := t.program.resume_rests (s.site a t)
      · exact .inr (.inl ⟨verdict, done⟩)
      · exact .inr (.inr ⟨p, rest, waits⟩)
    · rw [if_neg (Ne.symm other), List.append_nil]
      exact seating.rests j u hu

/-- An attempt is aborted. It gives up its ticket, which no other attempt has, and is outside. -/
theorem abort (seating : Seating base s h) {a a' : Ambient} {s' : Station}
    (abort : s.Abort a a' s') : Seating base s' h := by
  have custody := seating.custody.abort abort
  have ticketed := seating.ticketed.abort abort
  have before {k : Nat} {t : Attempt} (ht : s'.attempts[k]? = some t) :
      ∃ u, s.attempts[k]? = some u ∧ t.tickets = u.tickets ∧ t.program = u.program := by
    obtain ⟨u, hu, same⟩ := abort.attempt_before ht
    exact ⟨u, hu, by rw [same], by rw [same]⟩
  refine ⟨custody, ticketed, fun k t n ht ticket => ?tickets, ?seats, fun k t ht => ?rests⟩
  case tickets =>
    obtain ⟨u, hu, tickets, _⟩ := before ht
    rw [tickets]
    exact seating.tickets k u n hu ticket
  case rests =>
    obtain ⟨u, hu, _, program⟩ := before ht
    rw [Attempt.Rests, program]
    exact seating.rests k u hu
  case seats =>
    cases abort with
    | @intro k t l o telemetry ht going =>
        have within := (List.getElem?_eq_some_iff.mp ht).1
        have kept := (Attempt.isOver_eq_false_iff.mp going).2
        rw [Station.places_set within rfl fun _ _ => rfl]
        refine Station.seats_set within ?_
        refine Premises.surrender_seats _ _ seating.ticketed.gates
          (Station.seats_cons within seating.seats) (fun n ticket => ?_) fun n had has => ?_
        · rw [Station.place_of_kept ht kept] at ticket
          exact seating.tickets k t n ht ticket
        · obtain ⟨pl, mem, ticket⟩ := List.mem_filterMap.mp has
          obtain ⟨j, other, hpl⟩ := List.mem_eraseIdx_iff_getElem?.mp mem
          have bound : j < s.attempts.length := by
            simpa [Station.places] using (List.getElem?_eq_some_iff.mp hpl).1
          obtain rfl := Option.some.inj ((Station.getElem?_places bound h).symm.trans hpl)
          have hu := List.getElem?_eq_getElem bound
          -- whoever has a ticket was not aborted
          cases aborted : s.attempts[j].aborted with
          | true =>
              rw [Station.place_of_aborted hu aborted] at ticket
              cases ticket
          | false =>
              rw [Station.place_of_kept hu aborted] at ticket
              exact seating.ticketed.apart k j t _ (Ne.symm other) ht hu n had
                (seating.tickets j _ n hu ticket)

end Seating

namespace Duty

/-- The slots stay with the attempts that are inside, whatever is done. -/
theorem happens_seating {base : Station} {s s' : Duty} {h h' : List Occurrence} {deed : Deed}
    (seating : Seating base s.station h) (stages : ∀ stage ∈ base.own, stage.Polite)
    (polite : base.processor.Polite) (happens : s.Happens deed s' h') :
    Seating base s'.station (h ++ h') := by
  have custody := happens_custody seating.custody happens
  have still (k : Nat) : eventsOf k (h ++ []) = eventsOf k h := by rw [List.append_nil]
  cases happens with
  | loop step after =>
      exact after.aborts.preserve (P := fun _ s' => Seating base s' _)
        (fun abort seating => seating.abort abort) (seating.loop step)
  | attempt ht going =>
      exact seating.attempt stages polite ht (Attempt.isOver_eq_false_iff.mp going).2
  | closeGate =>
      rw [List.append_nil] at custody ⊢
      exact seating.closeGate custody
  | queue =>
      refine seating.same custody rfl rfl fun k => ?_
      rw [eventsOf_append, eventsOf_queue, List.append_nil]
  | start | stop | elsewhere | idle => exact seating.same custody rfl rfl still

variable (a : Ambient) (r : Receiver) (format : Format) (schema : Schema) (queue : String)
  (style : TokenStyle) (registry : Registry) (messageType : String) (own : List Stage)
  (p : Processor)

theorem begin_seating :
    let start := (begin a r format schema queue style registry messageType p).equip own
    Seating start.station start.station [] where
  custody := begin_custody a r format schema queue style registry messageType own p
  ticketed := by
    constructor <;> simp [equip, begin, Station.ofReceiver]
  tickets k t n ht := by simp [equip, begin, Station.ofReceiver] at ht
  seats := .ofCapacity r.slots
  rests k t ht := by simp [equip, begin, Station.ofReceiver] at ht

theorem run_seating (stages : ∀ stage ∈ own, stage.Polite) (polite : p.Polite)
    (deeds : List Deed) :
    let start := (begin a r format schema queue style registry messageType p).equip own
    Seating start.station (start.run deeds).1.station (start.run deeds).2 := by
  intro start
  exact run_induction (P := fun _ s h => Seating start.station s.station h)
    (begin_seating a r format schema queue style registry messageType own p)
    (fun _ _ _ _ _ _ _ happens seating => happens_seating seating stages polite happens) deeds

end Duty

end Courier
