import Courier.Proofs.Handling.Passage
import Courier.Proofs.Handling.Plain

/-!
# Handling that is cancelled

The stages around the processor never pause but for a slot, so a handling that rests waits for its
slot and has settled nothing, or the processor has been handed the delivery and has not come out
(`Paused`). Of the first it is known what is left, and so what comes of it when it goes on while it
is cancelled: it ends at once, without the processor, and settles the delivery by `turnedAway`,
whatever has become of its slot (`TurnedAway`).

Cancellation changes nothing for the second. When the processor comes out, the delivery is settled
by what it has done (`Processor.ByResult`).
-/

namespace Courier

open Program (Runs Ends Elaborates)

/-! ## Programs that do not pause -/

namespace Program

variable {α β : Type}

/-- A program that never pauses. -/
def Straight : Program α → Prop
  | .done _ => True
  | .call _ rest => ∀ answer, (rest answer).Straight
  | .await _ _ => False

namespace Straight

variable {x y : Program α} {st st' : Settlement} {events : List Event}

theorem bind (h : x.Straight) {f : α → Program β} (after : ∀ a, (f a).Straight) :
    (x.bind f).Straight := by
  induction x with
  | done a => exact after a
  | call e rest ih => exact fun answer => ih answer (h answer)
  | await p rest => exact h.elim

theorem runs (h : x.Straight) (runs : Runs x st events st' y) : y.Straight := by
  induction runs with
  | refl => exact h
  | refused _ _ ih | settled _ _ _ ih | called _ _ _ ih => exact ih (h _)
  | disposition _ ih => exact ih (h _)
  | waited => exact h.elim

/-- A program that does not pause ends as soon as it is resumed. -/
theorem resume (h : x.Straight) (s : Site) : ∃ a, (x.resume s).2 = .done a := by
  induction x generalizing s with
  | done a => exact ⟨a, rfl⟩
  | call e rest ih => exact ih _ (h _) _
  | await p rest => exact h.elim

end Straight

variable {x : Program α} {f : α → Program β} {st st' : Settlement} {events : List Event}
  {q : Pause} {rest : Program β}

/-- Where only the first of two programs can pause, a pause is one of the first. -/
theorem Runs.pause_first (straight : ∀ a, (f a).Straight)
    (h : Runs (x.bind f) st events st' (.await q rest)) :
    ∃ left, Runs x st events st' (.await q left) ∧ rest = left.bind f := by
  obtain ⟨y, within, same⟩ | ⟨_, a, _, _, _, after, _⟩ := h.of_bind
  · cases y with
    | done a =>
        have none := straight a
        rw [done_bind] at same
        rw [← same] at none
        exact none.elim
    | call e later => cases same
    | await p left =>
        cases same
        exact ⟨left, within, rfl⟩
  · exact ((straight a).runs after).elim

/-- Where the first of two programs cannot pause, it has ended before a pause. -/
theorem Runs.pause_second (straight : x.Straight)
    (h : Runs (x.bind f) st events st' (.await q rest)) :
    ∃ first a st₁ second, Ends x st first st₁ a ∧ Runs (f a) st₁ second st' (.await q rest) ∧
      events = first ++ second := by
  obtain ⟨y, within, same⟩ | ended := h.of_bind
  · cases y with
    | done a => exact ⟨events, a, st', [], within, same ▸ .refl _ _, (List.append_nil _).symm⟩
    | call e later => cases same
    | await p left => exact (straight.runs within).elim
  · exact ended

/-- A program that begins with a call has not begun as long as nothing has happened. -/
theorem Runs.silent {e : Effect} {rest : e.Answer → Program α} {y : Program α}
    (outside : e.isOwn = false) (runs : Runs (.call e rest) st [] st' y) :
    st' = st ∧ y = .call e rest := by
  cases runs with
  | refl => exact ⟨rfl, rfl⟩
  | refused | disposition => cases outside

/-- What leaves the gate alone stays where it is. -/
theorem Only.stays {x y : Program α} (h : x.Only fun e => e.isGate = false)
    (runs : Runs x st events st' y) (pl : Place) : events.foldl Place.after pl = pl := by
  induction runs with
  | refl => rfl
  | refused _ _ ih => exact ih (h.2 _)
  | settled _ _ _ ih => exact ih (h.2 _)
  | disposition _ ih => exact ih (h.2 _)
  | called answer _ _ ih =>
      rw [List.foldl_cons, Place.after_of_not_gate h.1]
      exact ih (h.2 _)
  | waited _ ih => exact ih h

end Program

/-! ## Stages that do not pause -/

namespace Service

theorem settling_straight (how : Settling) : (Service.settling how).Straight := by
  intro answer
  cases answer <;> trivial

end Service

namespace Stage

theorem correlate_straight (ctx : Context) : (correlate ctx).Straight := by
  intro present
  cases present with
  | some id => trivial
  | none => exact fun _ => trivial

theorem tell_straight (ctx : Context) (id : String) (verdict : Verdict ProcessingFault) :
    (tell ctx id verdict).Straight := by
  cases verdict with
  | panicked text => exact fun _ => trivial
  | passed | failed fault => exact fun _ _ _ _ _ => trivial

theorem giveBack_straight (ctx : Context) (fault : ProcessingFault) :
    (giveBack ctx fault).Straight := by
  intro _ answer
  match answer with
  | .ok () => trivial
  | .error (.alreadySettled _ _) => exact fun _ => trivial
  | .error (.queue _) => exact fun _ => trivial

theorem contain_straight (ctx : Context) (verdict : Verdict ProcessingFault) :
    (contain ctx verdict).Straight := by
  cases verdict with
  | failed fault => exact giveBack_straight ctx fault
  | panicked text => exact giveBack_straight ctx _
  | passed =>
      intro disposition
      cases disposition with
      | some _ => trivial
      | none => exact giveBack_straight ctx _

theorem limitDeliveries_straight {ctx : Context} (beyond : ¬ctx.count ≤ ctx.limit) (x : Service) :
    (limitDeliveries ctx x).Straight := by
  rw [limitDeliveries_of_gt beyond]
  exact fun _ _ => Service.settling_straight _

theorem around_straight (ctx : Context) (id : String) {x : Service} (h : x.Straight) :
    (around ctx id x).Straight :=
  (h.bind (tell_straight ctx id)).bind (contain_straight ctx)

/-- Seeing to a conversation settles nothing, does not hand the delivery over and stays outside. -/
theorem correlate_ends {ctx : Context} {st st' : Settlement} {events : List Event} {id : String}
    (h : Ends (correlate ctx) st events st' id) :
    st' = st ∧ events.any Event.isInvoke = false ∧
      ∀ pl, events.foldl Place.after pl = pl := by
  obtain ⟨present, after, rfl, rest⟩ := (Program.ends_call rfl).mp h
  cases present with
  | some id =>
      obtain ⟨rfl, rfl, _⟩ := Program.ends_done.mp rest
      exact ⟨rfl, rfl, fun _ => rfl⟩
  | none =>
      obtain ⟨_, _, rfl, last⟩ := (Program.ends_call rfl).mp rest
      obtain ⟨rfl, rfl, _⟩ := Program.ends_done.mp last
      exact ⟨rfl, rfl, fun _ => rfl⟩

end Stage

/-! ## Handling that rests -/

/-- Where a handling rests: it waits for its slot, and has done nothing but ask for it, or the
processor has the delivery. -/
inductive Paused (p : Processor) (ctx : Context) (events : List Event) (st : Settlement)
    (y : Service) : Prop where
  | waits (id : String) (ticket : Nat) : y = Stage.queued p ctx id ticket →
      ctx.count ≤ ctx.limit → st = {} → Place.of events = .waiting ticket →
      events.any Event.isInvoke = false → Paused p ctx events st y
  | runs : (Place.of events).isInside = true → events.any Event.isInvoke = true →
      Paused p ctx events st y

section

variable {p : Processor} {ctx : Context} {st st' : Settlement} {events : List Event} {q : Pause}
  {rest : Service}

/-- Who rests while holding a slot has handed the delivery to the processor. -/
theorem Stage.whileHolding_paused (polite : (p ctx).Only fun e => e.isGate = false) {ticket : Nat}
    (h : Runs (whileHolding 0 ticket (p.service ctx)) st events st' (.await q rest)) :
    (events.foldl Place.after (.inside ticket)).isInside = true ∧
      events.any Event.isInvoke = true := by
  have left_straight (verdict : Verdict ProcessingFault) :
      (Program.call (.leave 0 ticket) fun _ => Program.done verdict).Straight := fun _ => trivial
  obtain ⟨left, runs, _⟩ := Runs.pause_first left_straight h
  refine ⟨?_, ?_⟩
  · rw [(Processor.service_polite polite).stays runs]
    rfl
  · cases runs with
    | called resolved _ runs =>
        cases resolved with
        | error f => cases runs
        | ok _ =>
            cases runs with
            | called => rfl

/-- Who rests at a gate waits for a slot, or has got one. -/
theorem Stage.throttle_paused (polite : (p ctx).Only fun e => e.isGate = false)
    (h : Runs (throttle 0 ctx (p.service ctx)) st events st' (.await q rest)) :
    (∃ ticket, Program.await q rest =
        (.await (.slot 0 ticket) (.call (.enter 0 ticket) fun answer =>
          match answer with
          | .error f => .done (.failed f.toProcessing)
          | .ok () => whileHolding 0 ticket (p.service ctx))) ∧
        st' = st ∧ Place.of events = .waiting ticket ∧ events.any Event.isInvoke = false) ∨
      (Place.of events).isInside = true ∧ events.any Event.isInvoke = true := by
  obtain ⟨later, throttle, refused, admitted, queued⟩ := throttle_eq ctx (p.service ctx)
  rw [throttle] at h
  cases h with
  | called cancelled _ h =>
      cases cancelled with
      | true => cases h
      | false =>
          cases h with
          | called entry _ h =>
              cases entry with
              | refused =>
                  rw [refused] at h
                  cases h
              | admitted ticket =>
                  rw [admitted] at h
                  exact .inr (whileHolding_paused polite h)
              | queued ticket =>
                  rw [queued] at h
                  cases h with
                  | refl => exact .inl ⟨ticket, rfl, rfl, rfl, rfl⟩
                  | waited h =>
                      cases h with
                      | called answer _ h =>
                          cases answer with
                          | error f => cases h
                          | ok _ => exact .inr (whileHolding_paused polite h)

/-- A handling that rests waits for its slot, or the processor has the delivery. -/
theorem handle_paused (polite : (p ctx).Only fun e => e.isGate = false)
    (h : Runs (handle 0 [] p ctx) {} events st (.await q rest)) :
    Paused p ctx events st (.await q rest) := by
  rw [Stage.handle_eq] at h
  obtain ⟨first, id, _, second, correlated, around, rfl⟩ :=
    h.pause_second (Stage.correlate_straight ctx)
  obtain ⟨rfl, quiet, still⟩ := Stage.correlate_ends correlated
  obtain ⟨_, told, rfl⟩ := Runs.pause_first (Stage.contain_straight ctx) around
  obtain ⟨_, inner, rfl⟩ := Runs.pause_first (Stage.tell_straight ctx id) told
  have place : Place.of (first ++ second) = Place.of second := by
    rw [Place.of_append, Place.of, still]
    rfl
  by_cases enough : ctx.count ≤ ctx.limit
  · rw [Stage.limitDeliveries_of_le enough] at inner
    obtain ⟨ticket, same, rfl, waiting, none⟩ | ⟨inside, invoked⟩ :=
      Stage.throttle_paused polite inner
    · refine .waits id ticket ?_ enough rfl (place.trans waiting) ?_
      · exact congrArg (Stage.around ctx id) same
      · rw [List.any_append, quiet, none]
        rfl
    · refine .runs (place ▸ inside) ?_
      rw [List.any_append, invoked, Bool.or_true]
  · exact ((Stage.limitDeliveries_straight enough _).runs inner).elim

end

/-! ## What is settled without the processor -/

/-- The processor is handed the delivery as often with bookkeeping as without. -/
theorem Bookkept.any_invoke {events plain : List Event} (h : Bookkept events plain) :
    events.any Event.isInvoke = plain.any Event.isInvoke := by
  induction h with
  | nil => rfl
  | keep e _ ih => rw [List.any_cons, List.any_cons, ih]
  | @extra _ _ e book _ ih =>
      have quiet : e.isInvoke = false := by
        cases e with
        | called e answer => cases e <;> first | rfl | cases book
        | _ => rfl
      rw [List.any_cons, quiet, ih, Bool.false_or]

/-- A handling has ended with one settlement, and without the processor. -/
structure Dismissed (how : Settling) (h : Handling) (x : Service) : Prop where
  ended : ∃ verdict, x = .done verdict
  settled : h.settlement.claimed = some how
  invoked : h.invoked = false

/-- What only settles the delivery does so as soon as it goes on. -/
theorem Program.Elaborates.dismissed {x : Service} {how : Settling}
    (elaborates : Elaborates {} x (Plain.settle how)) (straight : x.Straight) {s : Site}
    (unsettled : s.handling.settlement = {}) (new : s.handling.invoked = false) :
    Dismissed how (x.resume s).1.handling (x.resume s).2 := by
  obtain ⟨verdict, done⟩ := straight.resume s
  obtain ⟨runs, follows⟩ := x.resume_runs s
  rw [unsettled, done] at runs
  obtain ⟨plain, ends, kept⟩ := elaborates.down runs
  obtain ⟨answer, _, rfl, last⟩ := Program.ends_settle_first.mp ends
  obtain ⟨rfl, settled, _⟩ := Program.ends_done.mp last
  refine ⟨⟨verdict, done⟩, by rw [settled], ?_⟩
  rw [follows.invoked, new, kept.any_invoke]
  rfl

/-- How a delivery is settled whose handling is cancelled before the processor has it. -/
def Stage.turnedAway (ctx : Context) : Settling :=
  if ctx.count ≤ ctx.limit then .abandon (some .cancelled)
  else .deadLetter (limitReason ctx.count ctx.limit)

section

variable {p : Processor} {ctx : Context} {s : Site}

/-- A fault inside the standard stages is what the delivery is abandoned with. -/
theorem Stage.around_failed_dismissed (id : String) (f : ProcessingFault)
    (unsettled : s.handling.settlement = {}) (new : s.handling.invoked = false) :
    let r := (around ctx id (.done (.failed f))).resume s
    Dismissed (.abandon (some f)) r.1.handling r.2 := by
  have told : Elaborates {} (around ctx id (.done (.failed f))) (giveBack ctx f) :=
    (tell_elaborates {} ctx id (.failed f)).bind fun _ _ => .refl _ _
  exact (told.trans (giveBack_elaborates {} ctx f)).dismissed (around_straight ctx id trivial)
    unsettled new

/-- A handling that begins while it is cancelled ends at once. -/
theorem handle_dismissed (cancelled : s.isCancelled = true)
    (unsettled : s.handling.settlement = {}) (new : s.handling.invoked = false) :
    let r := (handle 0 [] p ctx).resume s
    Dismissed (Stage.turnedAway ctx) r.1.handling r.2 := by
  by_cases enough : ctx.count ≤ ctx.limit
  · obtain ⟨id, properties, begun⟩ := correlate_resume ctx (fun id => Stage.around ctx id
      (Stage.limitDeliveries ctx (Stage.throttle 0 ctx (p.service ctx)))) s
    obtain ⟨later, throttle, _⟩ := Stage.throttle_eq ctx (p.service ctx)
    have asked (x : Service) : (Stage.around ctx id (.call .isCancelled fun cancelled =>
        if cancelled then .done (.failed .cancelled) else x)).resume (s.withProperties properties) =
          (Stage.around ctx id (if s.isCancelled then .done (.failed .cancelled) else x)).resume
            (s.withProperties properties) := rfl
    rw [Stage.handle_eq, begun, Stage.limitDeliveries_of_le enough, throttle, asked, cancelled,
      Stage.turnedAway, if_pos enough]
    exact Stage.around_failed_dismissed (s := s.withProperties properties) id .cancelled unsettled
      new
  · have straight : (handle 0 [] p ctx).Straight := by
      rw [Stage.handle_eq]
      exact (Stage.correlate_straight ctx).bind fun id =>
        Stage.around_straight ctx id (Stage.limitDeliveries_straight enough _)
    have elaborates := Plain.handle_elaborates {} 0 p ctx
    rw [Plain.handle, if_pos (UInt32.not_le.mp enough)] at elaborates
    rw [Stage.turnedAway, if_neg enough]
    exact elaborates.dismissed straight unsettled new

/-- A handling that waits for its slot ends at once when it is cancelled, also if it was handed the
slot. -/
theorem queued_dismissed (id : String) (ticket : Nat) (cancelled : s.isCancelled = true)
    (unsettled : s.handling.settlement = {}) (new : s.handling.invoked = false) :
    let r := (Stage.queued p ctx id ticket).resume s
    Dismissed (.abandon (some .cancelled)) r.1.handling r.2 := by
  have ready : s.ready (.slot 0 ticket) = true := Bool.or_eq_true_iff.mpr (.inl cancelled)
  have entered : s.perform (.enter 0 ticket) =
      (s.withGate 0 ((s.premises.gate 0).withdraw ticket), .error .cancelled) := by
    simp only [Site.perform, Site.enter, Gate.resume, cancelled, if_true]
  have turned : (Stage.queued p ctx id ticket).resume s =
      (Stage.around ctx id (.done (.failed .cancelled))).resume
        (s.withGate 0 ((s.premises.gate 0).withdraw ticket)) := by
    simp only [Stage.queued, Stage.around, Program.await_bind, Program.call_bind, Program.resume,
      if_pos ready, entered]
    rfl
  rw [turned]
  exact Stage.around_failed_dismissed (s := s.withGate 0 _) id .cancelled unsettled new

end

/-! ## What is settled by the processor's result -/

/-- The processor was handed the delivery and came out, and the delivery was settled by the
processor itself or else by how it came out, and only so. -/
def Processor.ByResult (p : Processor) (ctx : Context) (events : List Event) : Prop :=
  ∃ before own after st verdict,
    Bookkept events (before ++ .called .invoke () :: (own ++ after)) ∧
      Ends (p ctx) {} own st verdict ∧
      events.filterMap Event.settling? =
        [st.claimed.getD (Plain.conclusion (verdict.mapFault .processor))]

namespace Plain

variable {st st' : Settlement} {events : List Event}

theorem admission_ends {gate : Nat} {entry : Except GateFault Unit}
    (h : Ends (admission gate) st events st' entry) :
    st' = st ∧ events.any Event.isInvoke = false := by
  obtain ⟨cancelled, _, rfl, asked⟩ := (Program.ends_call rfl).mp h
  cases cancelled with
  | true =>
      obtain ⟨rfl, rfl, _⟩ := Program.ends_done.mp asked
      exact ⟨rfl, rfl⟩
  | false =>
      obtain ⟨answer, _, rfl, entered⟩ := (Program.ends_call rfl).mp asked
      cases answer with
      | refused | admitted ticket =>
          obtain ⟨rfl, rfl, _⟩ := Program.ends_done.mp entered
          exact ⟨rfl, rfl⟩
      | queued ticket =>
          obtain ⟨_, rfl, waited⟩ := Program.ends_await.mp entered
          obtain ⟨_, _, rfl, last⟩ := (Program.ends_call rfl).mp waited
          obtain ⟨rfl, rfl, _⟩ := Program.ends_done.mp last
          exact ⟨rfl, rfl⟩

theorem settle_ends_new {how : Settling} {verdict : Verdict ProcessingFault}
    (h : Ends (settle how) {} events st' verdict) :
    st'.claimed = some how ∧ events.any Event.isInvoke = false := by
  obtain ⟨_, _, rfl, last⟩ := Program.ends_settle_first.mp h
  obtain ⟨rfl, rfl, _⟩ := Program.ends_done.mp last
  exact ⟨rfl, rfl⟩

/-- What nobody has settled is settled by how it came out. -/
theorem conclude_claims {result verdict : Verdict ProcessingFault}
    (h : Ends (conclude result) st events st' verdict) :
    st'.claimed = some (st.claimed.getD (conclusion result)) ∧
      events.any Event.isInvoke = false := by
  have answered := Program.ends_disposition.mp h
  obtain ⟨_ | first⟩ := st
  · exact settle_ends_new answered
  · obtain ⟨rfl, rfl, _⟩ := Program.ends_done.mp answered
    exact ⟨rfl, rfl⟩

end Plain

/-- A delivery that the processor was handed is settled by its result. -/
theorem handle_byResult {gate : Nat} {p : Processor} {ctx : Context} {events : List Event}
    {st : Settlement} {verdict : Verdict ProcessingFault}
    (h : Ends (handle gate [] p ctx) {} events st verdict)
    (invoked : events.any Event.isInvoke = true) : p.ByResult ctx events := by
  obtain ⟨plain, ends, kept⟩ := (Plain.handle_elaborates {} gate p ctx).down h
  rw [kept.any_invoke] at invoked
  have claims := h.claims
  unfold Plain.handle at ends
  split at ends
  · simp [(Plain.settle_ends_new ends).2] at invoked
  · obtain ⟨first, entry, _, second, admitted, after, rfl⟩ := Program.ends_bind.mp ends
    obtain ⟨rfl, none⟩ := Plain.admission_ends admitted
    rw [List.any_append, none, Bool.false_or] at invoked
    cases entry with
    | error f => simp [(Plain.settle_ends_new after).2] at invoked
    | ok _ =>
        obtain ⟨tried, result, _, last, attempted, concluded, rfl⟩ := Program.ends_bind.mp after
        obtain ⟨claimed, none⟩ := Plain.conclude_claims concluded
        rw [List.any_append, none, Bool.or_false] at invoked
        obtain ⟨resolved, _, rfl, made⟩ := (Program.ends_call rfl).mp attempted
        cases resolved with
        | error f =>
            obtain ⟨rfl, _, _⟩ := Program.ends_done.mp made
            cases invoked
        | ok _ =>
            obtain ⟨_, _, rfl, ran⟩ := (Program.ends_call rfl).mp made
            change Ends ((p ctx).bind fun out =>
              .done (out.mapFault ProcessingFault.processor)) _ _ _ _ at ran
            obtain ⟨own, out, _, _, did, mapped, rfl⟩ := Program.ends_bind.mp ran
            obtain ⟨rfl, rfl, rfl⟩ := Program.ends_done.mp mapped
            refine ⟨first ++ [.called .resolve (.ok ())], own, last, _, out, ?_, did, ?_⟩
            · simpa using kept
            · simpa [claimed] using claims

end Courier
