import Courier.Proofs.Handling.Refusal
import Courier.Proofs.Receiver.Closing
import Courier.Proofs.Receiver.Tokens

/-!
# Stopping a receiver

A loop is cancelled when its receiver is stopped, or when a token above it is fired, and it stays
so. From then on the loop makes no attempts and hands no delivery to the processor. An attempt of
the loop that is in flight is at the gate still, where it has not begun or waits for a slot, or it
is past the gate and the processor has its delivery. One at the gate can step at once, and its first
step turns it away (`Attempt.AtGate`), whether or not it was handed a slot. One past the gate is
awaited by its loop and settled by the result of the processor. `Halts` says all of this of what is
done after a loop was cancelled, in any order.

A loop that is cancelled and has attempts in flight does not break off any more, so none of them is
aborted (`Duty.Cancelled.whole`).
-/

namespace Courier

open Program (Runs)

/-! ## Attempts at the gate -/

namespace Attempt

/-- The attempt is in flight and not past the gate: it has not begun, or it waits for its slot. -/
structure AtGate (p : Processor) (t : Attempt) : Prop where
  settlement : t.handling.settlement = {}
  invoked : t.handling.invoked = false
  program : t.program = handle 0 [] p t.handling.context ∨
    t.handling.context.count ≤ t.handling.context.limit ∧
      ∃ id ticket, t.program = Stage.queued p t.handling.context id ticket

namespace AtGate

variable {p : Processor} {t : Attempt}

/-- Cancellation rouses an attempt at the gate. -/
theorem canResume (atGate : t.AtGate p) {site : Site} (cancelled : site.isCancelled = true) :
    t.program.canResume site = true := by
  obtain fresh | ⟨_, id, ticket, waits⟩ := atGate.program
  · rw [fresh]
    rfl
  · rw [waits]
    exact Bool.or_eq_true_iff.mpr (.inl cancelled)

/-- An attempt at the gate is turned away when it steps after it was cancelled. -/
theorem dismissed (atGate : t.AtGate p) {s : Station} {a : Ambient}
    (cancelled : (s.site a t).isCancelled = true) :
    Dismissed (Stage.turnedAway t.handling.context) (s.resumed a t).handling
      (s.resumed a t).program := by
  have unsettled : (s.site a t).handling.settlement = {} := atGate.settlement
  have new : (s.site a t).handling.invoked = false := atGate.invoked
  unfold Station.resumed
  obtain fresh | ⟨enough, id, ticket, waits⟩ := atGate.program
  · rw [fresh]
    exact handle_dismissed cancelled unsettled new
  · rw [waits, Stage.turnedAway, if_pos enough]
    exact queued_dismissed id ticket cancelled unsettled new

end AtGate

end Attempt

/-- Every attempt in flight is at the gate or past it, and past it the processor has its
delivery. -/
theorem Seating.stands {base s : Station} {h : List Occurrence} (seating : Seating base s h)
    (plain : base.own = []) (polite : base.processor.Polite) {k : Nat} {t : Attempt}
    (ht : s.attempts[k]? = some t) (going : t.isOver = false) :
    t.AtGate base.processor ∧ (placeOf k h).isInside = false ∨
      (placeOf k h).isInside = true ∧ t.handling.invoked = true := by
  obtain ⟨runs, invoked⟩ := seating.custody.told k t ht
  rw [plain] at runs
  obtain none | ⟨verdict, done⟩ | ⟨q, rest, waits⟩ := seating.rests k t ht
  · rw [none] at runs invoked
    rw [placeOf, none]
    obtain ⟨first, begun⟩ : ∃ rest, handle 0 [] base.processor t.handling.context =
        .call (.property Properties.correlationId) rest := ⟨_, rfl⟩
    rw [begun] at runs
    obtain ⟨unsettled, fresh⟩ := Program.Runs.silent rfl runs
    exact .inl ⟨⟨unsettled, invoked, .inl (fresh.trans begun.symm)⟩, rfl⟩
  · simp [Attempt.isOver, Attempt.isDone, done, Program.result?] at going
  · rw [waits] at runs
    obtain ⟨id, ticket, same, enough, unsettled, waiting, silent⟩ | ⟨inside, handed⟩ :=
      handle_paused (polite _) runs
    · refine .inl ⟨⟨unsettled, invoked.trans silent, .inr ⟨enough, id, ticket, ?_⟩⟩, ?_⟩
      · rw [waits, same]
      · rw [placeOf, waiting]
        rfl
    · exact .inr ⟨inside, invoked.trans handed⟩

namespace Duty

/-! ## Attempts in a run -/

variable {s s' : Duty} {deed : Deed} {deeds more : List Deed} {h h' : List Occurrence} {i k : Nat}
  {t : Attempt}

theorem run_seating_from {base : Station} (seating : Seating base s.station h)
    (stages : ∀ stage ∈ base.own, stage.Polite) (polite : base.processor.Polite)
    (more : List Deed) : Seating base (s.run more).1.station (h ++ (s.run more).2) := by
  refine run_induction (P := fun _ s' h' => Seating base s'.station (h ++ h')) ?_ ?_ more
  · rwa [List.append_nil]
  · intro _ _ _ _ _ _ _ happens seating
    rw [← List.append_assoc]
    exact happens_seating seating stages polite happens

/-- A loop did not break off. -/
def Whole (s : Duty) (i : Nat) : Prop :=
  ∀ (l : ReceiveLoop) o, s.station.loops[i]? = some l → l.phase ≠ .broken o

/-- A loop that has not broken off had not done so before. -/
theorem happens_whole (happens : s.Happens deed s' h') (whole : s'.Whole i) : s.Whole i := by
  intro l o hl broken
  cases happens with
  | @loop j m m' made a₁ a' s₁ s' step after =>
      refine whole l o ?_ broken
      rw [after.aborts.loops, step.loops, List.getElem?_set_ne, hl]
      rintro rfl
      have going := step.going
      obtain rfl := Option.some.inj (step.was.symm.trans hl)
      simp [ReceiveLoop.isOver, broken] at going
  | start => exact whole l o (getElem?_append_of_some hl _) broken
  | attempt | stop | closeGate | queue | elsewhere | idle => exact whole l o hl broken

/-- An attempt that does not step, or has ended, stays as it is, and so does one whose loop does not
break off. -/
theorem happens_still (happens : s.Happens deed s' h') (ht : s.station.attempts[k]? = some t)
    (rests : deed ≠ .attempt k ∨ t.isOver = true) (spared : t.isOver = true ∨ s'.Whole t.loop) :
    s'.station.attempts[k]? = some t ∧ eventsOf k h' = [] := by
  cases happens with
  | @loop i l l' made a₁ a' s₁ s' step after =>
      have attempts : s₁.attempts = s.station.attempts ++ made := step.accepted.attempts
      refine ⟨after.aborts.still (attempts ▸ getElem?_append_of_some ht _) ?_, eventsOf_queue _ k⟩
      exact spared.imp_right fun whole l o hl => whole l o (after.aborts.loops ▸ hl)
  | @attempt j u a' hu going =>
      have other : j ≠ k := by
        rintro rfl
        obtain rfl := Option.some.inj (hu.symm.trans ht)
        obtain other | past := rests
        · exact other rfl
        · rw [going] at past
          cases past
      refine ⟨(List.getElem?_set_ne other).trans ht, ?_⟩
      rw [Station.eventsOf_attemptOccurrences, if_neg other]
  | queue => exact ⟨ht, eventsOf_queue _ k⟩
  | start | stop | closeGate | elsewhere | idle => exact ⟨ht, rfl⟩

theorem run_whole (whole : (s.run more).1.Whole i) : s.Whole i := by
  induction more generalizing s with
  | nil => exact whole
  | cons deed rest ih => exact happens_whole (s.step_happens deed) (ih whole)

theorem run_still (ht : s.station.attempts[k]? = some t)
    (rests : .attempt k ∉ more ∨ t.isOver = true)
    (spared : t.isOver = true ∨ (s.run more).1.Whole t.loop) :
    (s.run more).1.station.attempts[k]? = some t ∧ eventsOf k (s.run more).2 = [] := by
  refine run_induction (P := fun more s' h' => .attempt k ∉ more ∨ t.isOver = true →
    t.isOver = true ∨ s'.Whole t.loop →
    s'.station.attempts[k]? = some t ∧ eventsOf k h' = []) (fun _ _ => ⟨ht, rfl⟩) ?_ more rests
    spared
  intro deeds deed s' h' s'' h'' _ happens still rests spared
  have before : .attempt k ∉ deeds ∨ t.isOver = true :=
    rests.imp_left fun none mem => none (List.mem_append_left _ mem)
  have now : deed ≠ .attempt k ∨ t.isOver = true :=
    rests.imp_left fun none same => none (by simp [same])
  obtain ⟨ht', silent⟩ := still before (spared.imp_right (happens_whole happens))
  obtain ⟨ht'', silent'⟩ := happens_still happens ht' now spared
  exact ⟨ht'', by rw [eventsOf_append, silent, silent', List.append_nil]⟩

/-- What an attempt is does not change, and what it has handed over stays so. -/
theorem happens_remains (happens : s.Happens deed s' h') (ht : s.station.attempts[k]? = some t) :
    ∃ t', s'.station.attempts[k]? = some t' ∧ t'.loop = t.loop ∧
      t'.handling.context = t.handling.context ∧
      (t.handling.invoked = true → t'.handling.invoked = true) := by
  cases happens with
  | @loop i l l' made a₁ a' s₁ s' step after =>
      have attempts : s₁.attempts = s.station.attempts ++ made := step.accepted.attempts
      obtain ⟨b, ht'⟩ := after.aborts.attempt (attempts ▸ getElem?_append_of_some ht _)
      exact ⟨_, ht', rfl, rfl, id⟩
  | @attempt j u a' hu =>
      by_cases here : j = k
      · subst here
        obtain rfl := Option.some.inj (hu.symm.trans ht)
        have within := (List.getElem?_eq_some_iff.mp hu).1
        refine ⟨_, List.getElem?_set_self within, rfl, Station.resumed_context _ _ _, ?_⟩
        intro handed
        rw [Station.resumed_invoked, handed, Bool.true_or]
      · exact ⟨t, (List.getElem?_set_ne here).trans ht, rfl, rfl, id⟩
  | start | stop | closeGate | queue | elsewhere | idle => exact ⟨t, ht, rfl, rfl, id⟩

theorem run_remains (ht : s.station.attempts[k]? = some t) (more : List Deed) :
    ∃ t', (s.run more).1.station.attempts[k]? = some t' ∧ t'.loop = t.loop ∧
      t'.handling.context = t.handling.context ∧
      (t.handling.invoked = true → t'.handling.invoked = true) := by
  refine run_induction (P := fun _ s' _ => ∃ t', s'.station.attempts[k]? = some t' ∧
    t'.loop = t.loop ∧ t'.handling.context = t.handling.context ∧
      (t.handling.invoked = true → t'.handling.invoked = true)) ⟨t, ht, rfl, rfl, id⟩ ?_ more
  rintro _ deed s' h' s'' h'' _ happens ⟨t', ht', loop, context, invoked⟩
  obtain ⟨t'', ht'', loop', context', invoked'⟩ := happens_remains happens ht'
  exact ⟨t'', ht'', loop'.trans loop, context'.trans context, fun handed =>
    invoked' (invoked handed)⟩

/-- Whatever was handed to the processor was so in a step of its attempt. -/
theorem exists_of_mem_invocations {v : Invocation} (mem : v ∈ invocations (s.run more).2) :
    ∃ before after t, more = before ++ .attempt v.attempt :: after ∧
      (s.run before).1.station.attempts[v.attempt]? = some t ∧
      t.isOver = false ∧ t.handling.invoked = false ∧
      ((s.run before).1.station.resumed (s.run before).1.ambient t).handling.invoked = true := by
  refine run_induction (P := fun more _ h' => v ∈ invocations h' →
    ∃ before after t, more = before ++ .attempt v.attempt :: after ∧
      (s.run before).1.station.attempts[v.attempt]? = some t ∧
      t.isOver = false ∧ t.handling.invoked = false ∧
      ((s.run before).1.station.resumed (s.run before).1.ambient t).handling.invoked = true)
    (fun none => by simp [invocations] at none) ?_ more mem
  intro deeds deed s' h' s'' h'' reached happens found mem
  rw [invocations_append] at mem
  obtain old | new := List.mem_append.mp mem
  · obtain ⟨before, after, t, rfl, ht⟩ := found old
    exact ⟨before, after ++ [deed], t, by simp, ht⟩
  · cases happens with
    | @attempt j t a' ht going =>
        obtain ⟨rfl, unhanded, handed⟩ := Station.of_mem_invocations _ _ _ _ new
        refine ⟨deeds, [], t, rfl, ?_⟩
        rw [reached]
        exact ⟨ht, going, unhanded, handed⟩
    | loop => simp at new
    | queue => simp at new
    | start | stop | closeGate | elsewhere | idle => simp [invocations] at new

/-! ## Cancelled loops -/

/-- What was cancelled is not taken back. -/
def Lasting (s : Duty) : Deed → Prop
  | .elsewhere a => s.ambient.cancellations.fired ⊆ a.cancellations.fired
  | _ => True

instance decidableLasting (s : Duty) : (deed : Deed) → Decidable (s.Lasting deed)
  | .elsewhere _ => inferInstanceAs (Decidable (∀ n ∈ _, n ∈ _))
  | .loop _ | .attempt _ | .start _ | .stop | .closeGate | .queue _ | .count | .reorder _ =>
    inferInstanceAs (Decidable True)

/-- The receiver was stopped while a loop was at work, or a token above that loop was fired. -/
def Cancelled (s : Duty) (i : Nat) : Prop :=
  ∃ l, s.station.loops[i]? = some l ∧ s.ambient.isCancelled l.token = true

instance (s : Duty) (i : Nat) : Decidable (s.Cancelled i) :=
  decidable_of_iff (s.station.loops[i]?.any (s.ambient.isCancelled ·.token) = true)
    (Option.any_eq_true _ _)

theorem step_fired (lasting : s.Lasting deed) :
    s.ambient.cancellations.fired ⊆ (s.step deed).1.ambient.cancellations.fired := by
  have still : s.ambient.cancellations.fired ⊆ s.ambient.cancellations.fired := fun _ => id
  cases deed with
  | loop i =>
      simp only [step]
      split
      · exact still
      · rename_i went
        exact (Station.stepLoop_keeps went).fired
  | attempt k =>
      simp only [step]
      split
      · rename_i went
        exact (Station.stepAttempt_keeps went).fired
      · exact still
  | start parent =>
      simp only [step, Station.start]
      cases s.station.running <;> exact still
  | stop =>
      simp only [step, Station.stop]
      cases s.station.running with
      | none => exact still
      | some i =>
          simp only
          cases s.station.loops[i]? with
          | none => exact still
          | some l => exact s.ambient.cancellations.fired_cancel l.token
  | elsewhere a => exact lasting
  | reorder =>
      simp only [step]
      split <;> exact still
  | closeGate | queue | count => exact still

/-- A loop that is cancelled stays so. -/
theorem step_cancelled (cancelled : s.Cancelled i) (lasting : s.Lasting deed) :
    (s.step deed).1.Cancelled i := by
  obtain ⟨l, hl, fired⟩ := cancelled
  have kept : ∃ l', (s.step deed).1.station.loops[i]? = some l' ∧ l'.token = l.token := by
    have happens := s.step_happens deed
    revert happens
    generalize s.step deed = r
    intro happens
    obtain ⟨s', h'⟩ := r
    cases happens with
    | loop step after => exact after.aborts.loops ▸ step.keeps_token hl
    | start => exact ⟨l, getElem?_append_of_some hl _, rfl⟩
    | attempt | stop | closeGate | queue | elsewhere | idle => exact ⟨l, hl, rfl⟩
  obtain ⟨l', hl', token⟩ := kept
  exact ⟨l', hl', token ▸ Cancellations.isCancelled_mono (step_fired lasting) fired⟩

theorem run_cancelled (cancelled : s.Cancelled i) (lasting : s.Throughout Lasting more) :
    (s.run more).1.Cancelled i := by
  induction more generalizing s with
  | nil => exact cancelled
  | cons deed rest ih => exact ih (step_cancelled cancelled lasting.1) lasting.2

/-- Whoever stops a receiver cancels the loop that is at work. -/
theorem stop_cancels (kin : s.station.Kin)
    (last : ∀ i, s.station.running = some i → i + 1 = s.station.loops.length)
    (running : s.station.running = some i) : (s.step .stop).1.Cancelled i := by
  have within : i < s.station.loops.length := by
    have length := last i running
    omega
  have hl := List.getElem?_eq_getElem within
  have real := kin.loops _ (List.getElem_mem within)
  simp only [step, Station.stop, running, hl]
  exact ⟨_, hl, s.ambient.cancellations.isCancelled_cancel real⟩

/-- A cancelled loop makes no attempts. -/
theorem run_made (cancelled : s.Cancelled i) (lasting : s.Throughout Lasting more) {t : Attempt}
    (ht : (s.run more).1.station.attempts[k]? = some t) (mine : t.loop = i) :
    k < s.station.attempts.length := by
  refine run_induction (P := fun more s' _ => s.Throughout Lasting more → ∀ t,
    s'.station.attempts[k]? = some t → t.loop = i → k < s.station.attempts.length)
    (fun _ _ ht _ => (List.getElem?_eq_some_iff.mp ht).1) ?_ more lasting t ht mine
  intro deeds deed s' h' s'' h'' reached happens known lasting t ht mine
  obtain ⟨before, _⟩ := throughout_append.mp lasting
  cases happens with
  | @loop j l l' made a₁ a' s₁ s'' step after =>
      have attempts : s₁.attempts = s'.station.attempts ++ made := step.accepted.attempts
      obtain ⟨t', ht, same⟩ := after.aborts.attempt_before ht
      have mine : t'.loop = i := by
        rw [same] at mine
        exact mine
      rw [attempts] at ht
      by_cases old : k < s'.station.attempts.length
      · rw [List.getElem?_append_left old] at ht
        exact known before t' ht mine
      · rw [List.getElem?_append_right (Nat.le_of_not_lt old)] at ht
        have loop := (step.accepted.new t' (List.mem_of_getElem? ht)).loop
        obtain ⟨l, hl, fired⟩ := run_cancelled cancelled before
        rw [reached] at hl fired
        have look := Station.look?_of_cancelled hl fired
        obtain rfl : i = j := mine.symm.trans loop
        rw [step.none_of_received (Station.received_of_look look)] at ht
        simp at ht
  | attempt hu =>
      obtain ⟨rfl, rfl⟩ | ⟨_, ht⟩ := getElem?_set_cases hu ht
      · exact known before _ hu mine
      · exact known before t ht mine
  | start | stop | closeGate | queue | elsewhere | idle => exact known before t ht mine

/-- A loop does not break off after it was cancelled, if it has an attempt in flight. -/
theorem Cancelled.whole {start : Duty} (begun : Ending start [] start.station)
    (none : start.station.loops = []) (cancelled : (start.run deeds).1.Cancelled i)
    (lasting : (start.run deeds).1.Throughout Lasting more)
    (ht : (start.run deeds).1.station.attempts[k]? = some t) (mine : t.loop = i)
    (going : t.isOver = false) : ((start.run deeds).1.run more).1.Whole i := by
  refine run_induction (P := fun more s' _ => (start.run deeds).1.Throughout Lasting more →
    s'.Whole i) (fun _ l o hl broken => ?_) ?_ more lasting
  · have past := Station.over_of_unfinished (run_broken none deeds hl broken)
      (List.mem_of_getElem? ht) mine
    rw [going] at past
    cases past
  intro later deed s' h' s'' h'' reached happens known lasting
  obtain ⟨before, _⟩ := throughout_append.mp lasting
  have still := known before
  intro l o hl broken
  cases happens with
  | @loop j m m' made a₁ a' s₁ s'' step after =>
      rw [after.aborts.loops, step.loops] at hl
      obtain ⟨rfl, rfl⟩ | ⟨_, hl⟩ := getElem?_set_cases step.was hl
      · obtain ⟨first, _⟩ | ⟨lock, q, spill, look⟩ := step.overflows broken
        · -- a loop that has an attempt is past its beginning
          have ending := run_ending begun (deeds ++ later)
          rw [run_append, reached] at ending
          obtain ⟨t', ht', loop, _⟩ := run_remains ht later
          rw [reached] at ht'
          exact ending.begun _ m step.was first t' (List.mem_of_getElem? ht') (loop.trans mine)
        · obtain ⟨l', hl', fired⟩ := run_cancelled cancelled before
          rw [reached] at hl' fired
          rw [Station.look?_of_cancelled hl' fired] at look
          cases look
      · exact still l o hl broken
  | start =>
      obtain old | ⟨_, rfl⟩ := getElem?_concat_cases hl
      · exact still l o old broken
      · cases broken
  | attempt | stop | closeGate | queue | elsewhere | idle => exact still l o hl broken

/-! ## Stopping -/

/-- An attempt that has ended without the processor: it was turned away and keeps no slot. -/
structure TurnedAway (t : Attempt) (events : List Event) : Prop where
  ended : t.isDone = true
  unhanded : events.any Event.isInvoke = false
  settled : events.filterMap Event.settling? = [Stage.turnedAway t.handling.context]
  outside : Place.of events = .outside

/-- What is done after a loop was cancelled leaves the attempts of the loop as follows; `h` is the
history before. -/
structure Halts (p : Processor) (i : Nat) (s : Duty) (h : List Occurrence) (more : List Deed) :
    Prop where
  /-- No attempt is made. -/
  made : ∀ (k : Nat) (t : Attempt), (s.run more).1.station.attempts[k]? = some t → t.loop = i →
    k < s.station.attempts.length
  /-- Only attempts of other loops hand their deliveries to the processor. -/
  invoked : ∀ v ∈ invocations (s.run more).2, ∃ t,
    (s.run more).1.station.attempts[v.attempt]? = some t ∧ t.loop ≠ i
  /-- What was not past the gate can step, and its first step turns it away. -/
  waiting : ∀ (k : Nat) (t : Attempt), s.station.attempts[k]? = some t → t.loop = i →
    t.isOver = false → (placeOf k h).isInside = false →
    ∃ t', (s.run more).1.station.attempts[k]? = some t' ∧
      t'.handling.context = t.handling.context ∧
      (.attempt k ∉ more → t' = t ∧ eventsOf k (s.run more).2 = [] ∧
        t.program.canResume ((s.run more).1.station.site (s.run more).1.ambient t) = true) ∧
      (.attempt k ∈ more → TurnedAway t' (eventsOf k (h ++ (s.run more).2)))
  /-- What was past the gate stays there, awaited by its loop and not aborted, until the
  processor's result has settled it. -/
  running : ∀ (k : Nat) (t : Attempt), s.station.attempts[k]? = some t → t.loop = i →
    t.isOver = false → (placeOf k h).isInside = true →
    ∃ t', (s.run more).1.station.attempts[k]? = some t' ∧
      t'.handling.context = t.handling.context ∧ t'.aborted = false ∧
      (.attempt k ∉ more → t' = t) ∧
      (t'.isOver = false → (placeOf k (h ++ (s.run more).2)).isInside = true ∧
        ∀ l, (s.run more).1.station.loops[i]? = some l → l.phase ≠ .ended) ∧
      (t'.isOver = true → p.ByResult t'.handling.context (eventsOf k (h ++ (s.run more).2)))

section

variable {base : Station} {s : Duty} {h : List Occurrence} {i k : Nat} {more : List Deed}
  {t : Attempt}

/-- An attempt of a cancelled loop is cancelled. -/
theorem Cancelled.attempt (cancelled : s.Cancelled i) (kin : s.station.Kin)
    (ht : s.station.attempts[k]? = some t) (mine : t.loop = i) :
    (s.station.site s.ambient t).isCancelled = true := by
  obtain ⟨l, hl, fired⟩ := cancelled
  obtain ⟨l', hl', below⟩ := kin.attempts t (List.mem_of_getElem? ht)
  obtain rfl := Option.some.inj ((mine ▸ hl').symm.trans hl)
  exact Cancellations.isCancelled_of_parent below fired

theorem stages_polite (plain : base.own = []) : ∀ stage ∈ base.own, stage.Polite := by
  rw [plain]
  exact nofun

theorem step_attempt (ht : s.station.attempts[k]? = some t) (kept : t.aborted = false)
    (can : t.program.canResume (s.station.site s.ambient t) = true) :
    (s.step (.attempt k)).1.station.attempts[k]? =
      some (s.station.resumed s.ambient t) := by
  have within := (List.getElem?_eq_some_iff.mp ht).1
  simp only [step, Station.stepAttempt, ht]
  rw [if_neg (Bool.eq_false_iff.mp kept), if_pos can]
  exact List.getElem?_set_self within

/-- A cancelled loop hands nothing to the processor any more. -/
theorem invoked_elsewhere (seating : Seating base s.station h) (kin : s.station.Kin)
    (plain : base.own = []) (polite : base.processor.Polite) (cancelled : s.Cancelled i)
    (lasting : s.Throughout Lasting more) {v : Invocation}
    (mem : v ∈ invocations (s.run more).2) :
    ∃ t, (s.run more).1.station.attempts[v.attempt]? = some t ∧ t.loop ≠ i := by
  have stages := stages_polite plain
  obtain ⟨before, after, t, rfl, ht, going, unhanded, handed⟩ := exists_of_mem_invocations mem
  obtain ⟨lasting, _⟩ := throughout_append.mp lasting
  have seating := run_seating_from seating stages polite before
  have cancelled := run_cancelled cancelled lasting
  have kin := run_kin kin before
  obtain ⟨t', ht', loop, _⟩ := run_remains ht (.attempt v.attempt :: after)
  rw [run_append]
  refine ⟨t', ht', fun mine => ?_⟩
  obtain ⟨atGate, _⟩ | ⟨_, invoked⟩ := seating.stands plain polite ht going
  · have dismissed := atGate.dismissed (cancelled.attempt kin ht (loop.symm.trans mine))
    rw [dismissed.invoked] at handed
    cases handed
  · rw [invoked] at unhanded
    cases unhanded

/-- An attempt at the gate is turned away by its first step. -/
theorem turned_away (seating : Seating base s.station h) (kin : s.station.Kin)
    (plain : base.own = []) (polite : base.processor.Polite) (cancelled : s.Cancelled i)
    (lasting : s.Throughout Lasting more) (ht : s.station.attempts[k]? = some t)
    (mine : t.loop = i) (going : t.isOver = false) (whole : (s.run more).1.Whole i)
    (atGate : t.AtGate base.processor) (mem : .attempt k ∈ more) :
    ∃ t', (s.run more).1.station.attempts[k]? = some t' ∧
      t'.handling.context = t.handling.context ∧
      TurnedAway t' (eventsOf k (h ++ (s.run more).2)) := by
  have stages := stages_polite plain
  have later := run_seating_from seating stages polite more
  obtain ⟨before, after, rfl, first⟩ := List.eq_append_cons_of_mem mem
  obtain ⟨lasting, _⟩ := throughout_append.mp lasting
  have spared : (s.run before).1.Whole i := by
    rw [run_append] at whole
    exact run_whole whole
  obtain ⟨here, _⟩ := run_still ht (.inl first) (.inr (mine ▸ spared))
  have kept := (Attempt.isOver_eq_false_iff.mp going).2
  have cancelled := (run_cancelled cancelled lasting).attempt (run_kin kin before) here mine
  have stepped := step_attempt here kept (atGate.canResume cancelled)
  have context := (s.run before).1.station.resumed_context (s.run before).1.ambient t
  obtain ⟨⟨verdict, done⟩, settled, unhanded⟩ := atGate.dismissed cancelled
  have ended : ((s.run before).1.station.resumed (s.run before).1.ambient t).isDone = true := by
    rw [Attempt.isDone, done]
    rfl
  have past : ((s.run before).1.station.resumed (s.run before).1.ambient t).isOver = true := by
    rw [Attempt.isOver, ended, Bool.true_or]
  have last : (s.run (before ++ .attempt k :: after)).1.station.attempts[k]? =
      some ((s.run before).1.station.resumed (s.run before).1.ambient t) := by
    rw [run_append]
    exact (run_still stepped (.inr past) (.inl past)).1
  obtain ⟨runs, invoked⟩ := later.custody.told k _ last
  refine ⟨_, last, context, ended, invoked ▸ unhanded, ?_, ?_⟩
  · have claims := runs.claims
    rw [settled] at claims
    rw [context]
    exact claims
  · exact later.outside_of_done stages polite last ended

/-- A delivery of which the processor has come out is settled by its result. -/
theorem settled_byResult (seating : Seating base s.station h) (plain : base.own = [])
    (ht : s.station.attempts[k]? = some t) (past : t.isDone = true)
    (invoked : t.handling.invoked = true) :
    base.processor.ByResult t.handling.context (eventsOf k h) := by
  obtain ⟨runs, told⟩ := seating.custody.told k t ht
  rw [plain] at runs
  unfold Attempt.isDone at past
  cases program : t.program with
  | done verdict =>
      rw [program] at runs
      exact handle_byResult runs (told ▸ invoked)
  | call e rest => simp [program, Program.result?] at past
  | await q rest => simp [program, Program.result?] at past

theorem Cancelled.halts {start : Duty} (begun : Ending start [] start.station)
    (none : start.station.loops = []) (reached : (start.run deeds).1 = s)
    (cancelled : s.Cancelled i) (seating : Seating base s.station h) (kin : s.station.Kin)
    (plain : base.own = []) (polite : base.processor.Polite)
    (lasting : s.Throughout Lasting more) : Halts base.processor i s h more := by
  have stages := stages_polite plain
  have later := run_seating_from seating stages polite more
  have ending := run_ending begun (deeds ++ more)
  rw [run_append, reached] at ending
  have whole {k : Nat} {t : Attempt} (ht : s.station.attempts[k]? = some t) (mine : t.loop = i)
      (going : t.isOver = false) : (s.run more).1.Whole i := by
    subst reached
    exact cancelled.whole begun none lasting ht mine going
  refine ⟨fun k t ht mine => run_made cancelled lasting ht mine,
    fun v mem => invoked_elsewhere seating kin plain polite cancelled lasting mem,
    ?waiting, ?running⟩
  case waiting =>
    intro k t ht mine going outside
    have atGate : t.AtGate base.processor := by
      obtain ⟨atGate, _⟩ | ⟨inside, _⟩ := seating.stands plain polite ht going
      · exact atGate
      · rw [outside] at inside
        cases inside
    by_cases mem : .attempt k ∈ more
    · obtain ⟨t', ht', context, turned⟩ :=
        turned_away seating kin plain polite cancelled lasting ht mine going
          (whole ht mine going) atGate mem
      exact ⟨t', ht', context, fun none => absurd mem none, fun _ => turned⟩
    · obtain ⟨here, silent⟩ := run_still ht (.inl mem) (.inr (mine ▸ whole ht mine going))
      have fired := (run_cancelled cancelled lasting).attempt (run_kin kin more) here mine
      exact ⟨t, here, rfl, fun _ => ⟨rfl, silent, atGate.canResume fired⟩,
        fun some => absurd some mem⟩
  case running =>
    intro k t ht mine going inside
    have handed : t.handling.invoked = true := by
      obtain ⟨_, outside⟩ | ⟨_, handed⟩ := seating.stands plain polite ht going
      · rw [outside] at inside
        cases inside
      · exact handed
    obtain ⟨t', ht', loop, context, invoked⟩ := run_remains ht more
    have spared := whole ht mine going
    have kept : t'.aborted = false := by
      refine eq_false_of_ne_true fun aborted => ?_
      obtain ⟨l, o, hl, broken⟩ := ending.aborted t' (List.mem_of_getElem? ht') aborted
      exact spared l o (by rwa [loop, mine] at hl) broken
    refine ⟨t', ht', context, kept, fun none => ?_, fun going' => ⟨?_, fun l hl gone => ?_⟩,
      fun past => ?_⟩
    · have still := run_still ht (.inl none) (.inr (mine ▸ spared))
      exact Option.some.inj (ht'.symm.trans still.1)
    · obtain ⟨atGate, _⟩ | ⟨inside', _⟩ := later.stands plain polite ht' going'
      · have unhanded := atGate.invoked
        rw [invoked handed] at unhanded
        cases unhanded
      · exact inside'
    · have past := Station.over_of_unfinished (ending.ended i l hl gone) (List.mem_of_getElem? ht')
        (loop.trans mine)
      rw [going'] at past
      cases past
    · rw [Attempt.isOver_of_kept kept] at past
      exact settled_byResult later plain ht' past (invoked handed)

end

/-- Stopping a receiver without stages of its own cancels its loop. Whatever is done after a loop
was cancelled, by a stop or from above, admits nothing new. -/
theorem stopping_admits_nothing (a : Ambient) (r : Receiver) (format : Format) (schema : Schema)
    (queue : String) (style : TokenStyle) (registry : Registry) (messageType : String)
    (p : Processor) (polite : p.Polite) (deeds more : List Deed) :
    let start := begin a r format schema queue style registry messageType p
    let s := (start.run deeds).1
    let h := (start.run deeds).2
    (∀ i, s.station.running = some i → (s.step .stop).1.Cancelled i) ∧
      ∀ i, s.Cancelled i → s.Throughout Lasting more → Halts p i s h more := by
  intro start s h
  have seating : Seating start.station s.station h :=
    run_seating a r format schema queue style registry messageType [] p nofun polite deeds
  have begun : start.station.Kin := by
    constructor <;> simp [start, begin, Station.ofReceiver]
  have kin : s.station.Kin := run_kin begun deeds
  have first : Ending start [] start.station :=
    begin_ending a r format schema queue style registry messageType [] p
  exact ⟨fun i running => stop_cancels kin (run_ending first deeds).running running,
    fun i cancelled lasting =>
      Cancelled.halts first rfl rfl cancelled seating kin rfl polite lasting⟩

/-- A receiver with two slots, whose processor takes ten instants. -/
def counter : Duty :=
  begin {} ⟨"orders", "clerk", false, { maxConcurrentCalls := 2, prefetchCount := 2 }, {}⟩ .json
    .value "orders" .numbered clerk "order" fun _ => .await (.until 10) (.done .passed)

/-- Of four attempts two get slots, the third waits, and the fourth has not begun. When the first
has ended, its slot is handed to the third; then the receiver is stopped. -/
def counterDeeds : List Deed :=
  [.start ⟨[]⟩, .queue (.send { body := Utf8.encode "1" }),
    .queue (.send { body := Utf8.encode "2" }), .queue (.send { body := Utf8.encode "3" }),
    .queue (.send { body := Utf8.encode "4" }), .loop 0, .loop 0, .attempt 0, .attempt 1,
    .attempt 2, .elsewhere { clock := { now := 1000000 } }, .attempt 0, .stop]

/-- Afterwards the third and the fourth step, then the second, and the loop ends. -/
def counterRest : List Deed := [.attempt 2, .attempt 3, .attempt 1, .loop 0, .loop 0]

theorem stopping_admits_nothing_counter :
    let s := (counter.run counterDeeds).1
    let h := (counter.run counterDeeds).2
    s.station.gate.granted = [2] ∧
      s.station.attempts.map (fun t => (t.isOver, t.handling.invoked)) =
        [(true, true), (false, true), (false, false), (false, false)] ∧
      (List.range 4).map (fun k => ((eventsOf k (h ++ (s.run counterRest).2)).filterMap
          Event.settling?).map (·.disposition)) =
        [[.completed], [.completed], [.abandoned], [.abandoned]] ∧
      s.Cancelled 0 ∧ Halts counter.station.processor 0 s h counterRest := by
  have cancelled : (counter.run counterDeeds).1.Cancelled 0 := by decide +kernel
  have lasting : (counter.run counterDeeds).1.Throughout Lasting counterRest := by decide +kernel
  refine ⟨by decide +kernel, by decide +kernel, by decide +kernel, cancelled, ?_⟩
  unfold counter at cancelled lasting ⊢
  obtain ⟨_, halts⟩ := stopping_admits_nothing {}
    ⟨"orders", "clerk", false, { maxConcurrentCalls := 2, prefetchCount := 2 }, {}⟩ .json .value
    "orders" .numbered clerk "order" (fun _ => .await (.until 10) (.done .passed))
    (fun _ => trivial) counterDeeds counterRest
  exact halts 0 cancelled lasting

end Duty

end Courier
