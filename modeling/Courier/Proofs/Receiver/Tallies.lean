import Mathlib.Algebra.BigOperators.Group.Finset.Piecewise
import Mathlib.Algebra.Ring.Int.Defs
import Courier.Proofs.Entries
import Courier.Proofs.Handling.Tally
import Courier.Proofs.Receiver.Closing

/-!
# The counts of a receiver

The meters of a receiver tell how many attempts came out in which way. They are fed by the attempts
alone: a loop counts what it gives up of itself, under another name. So what a meter has grown by,
apart from what others have added to it, is the number of attempts that came to this outcome, and
all of them together are as many as there are attempts, less those that broke off inside and those
that were aborted before they counted (`Tallied`).
-/

namespace Courier

open Program (Ends)

namespace Telemetry

/-- How far a meter has counted. -/
def amount (t : Telemetry) (m : Meter) : Nat := (t.value? m).getD 0

theorem amount_gauge (t : Telemetry) (m other : Meter) (n : Nat) :
    (t.gauge m n).amount other = if m = other then n else t.amount other := by
  have found : (t.gauge m n).value? other = if m = other then some n else t.value? other :=
    lookup_set t.meters m other n
  rw [amount, found]
  split <;> rfl

theorem amount_count (t : Telemetry) (m other : Meter) :
    (t.count m).amount other = t.amount other + if m = other then 1 else 0 := by
  rw [count, amount_gauge]
  split
  · rename_i same
    rw [same, amount]
  · rfl

theorem amount_count_of_ne (t : Telemetry) {m other : Meter} (ne : m ≠ other) :
    (t.count m).amount other = t.amount other := by
  rw [amount_count, if_neg ne, Nat.add_zero]

end Telemetry

/-! ## What steps count -/

section

variable {name word : String}

theorem Site.perform_amount (s : Site) {e : Effect} (h : e.isOwn = false) :
    (s.perform e).1.ambient.telemetry.amount (.handled name word) =
      s.ambient.telemetry.amount (.handled name word) +
        (outcomes name [.called e (s.perform e).2]).count word := by
  cases e with
  | settle how => cases h
  | enter gate ticket =>
      simp only [perform, enter]
      split <;> rfl
  | count m =>
      refine (s.ambient.telemetry.amount_count m _).trans (congrArg _ ?_)
      cases m with
      | handled receiver outcome =>
          by_cases mine : receiver = name
          · subst mine
            simp [outcomes, Event.outcome?, List.count_singleton]
          · simp [outcomes, Event.outcome?, mine]
      | deadLettered receiver => rfl
      | handlingTime receiver => rfl
      | locked id => rfl
  | _ => rfl

/-- The meter of an outcome counts what happens at a site. -/
theorem Site.Follows.amount {s s' : Site} {events : List Event} (follows : s.Follows events s') :
    s'.ambient.telemetry.amount (.handled name word) =
      s.ambient.telemetry.amount (.handled name word) + (outcomes name events).count word := by
  induction follows with
  | refl => rfl
  | settled _ _ ih => exact ih
  | waited _ _ ih => exact ih
  | @called s _ e events own _ ih =>
      have first : outcomes name (.called e (s.perform e).2 :: events) =
          outcomes name [.called e (s.perform e).2] ++ outcomes name events :=
        outcomes_append name [_] events
      rw [ih, s.perform_amount own, first, List.count_append, Nat.add_assoc]

namespace Station

theorem reject_amount (s : Station) (a : Ambient) (d : Delivery) (f : CodecFault) :
    (s.reject a d f).1.telemetry.amount (.handled name word) =
      a.telemetry.amount (.handled name word) := by
  have apart : Meter.deadLettered s.receiver.name ≠ .handled name word := nofun
  have counted := (a.telemetry.note (.undecodable s.receiver.name d.message.id f
    d.message.body)).amount_count_of_ne apart
  simp only [reject]
  split <;> exact counted

theorem acceptAll_amount (i : Nat) (l : ReceiveLoop) (a : Ambient) (s : Station)
    (ds : List Delivery) : (acceptAll i l a s ds).1.telemetry.amount (.handled name word) =
      a.telemetry.amount (.handled name word) := by
  induction ds generalizing a s with
  | nil => rfl
  | cons d rest ih =>
      simp only [acceptAll]
      split
      · exact ih _ _
      · exact (ih _ _).trans (s.reject_amount a d _)

theorem hear_amount (a : Ambient) (s : Station) (i : Nat) (l : ReceiveLoop)
    (seen : Queue × Receiving.Outcome) :
    (hear a s i l seen).1.telemetry.amount (.handled name word) =
      a.telemetry.amount (.handled name word) := by
  obtain ⟨q, o⟩ := seen
  cases o with
  | batch ds => exact acceptAll_amount i l a (s.withQueue q) ds
  | failed f => cases f <;> rfl
  | waiting r => rfl
  | overflow => rfl

theorem Abort.amount {s s' : Station} {a a' : Ambient} (abort : s.Abort a a' s') :
    a'.telemetry.amount (.handled name word) = a.telemetry.amount (.handled name word) := by
  cases abort with
  | intro telemetry _ _ _ _ same => obtain rfl | ⟨span, rfl⟩ := same <;> rfl

/-- A loop counts no outcome, and neither do attempts that are aborted. -/
theorem stepLoop_amount {s s' : Station} {a a' : Ambient} {i : Nat}
    (step : s.stepLoop a i = some (a', s')) :
    a'.telemetry.amount (.handled name word) = a.telemetry.amount (.handled name word) := by
  obtain ⟨a₁, s₁, after, cases⟩ := stepLoop_cases step
  refine after.aborts.preserve (P := fun a' _ =>
    a'.telemetry.amount (.handled name word) = a.telemetry.amount (.handled name word))
    (fun abort same => abort.amount.trans same) ?_
  obtain ⟨_, still, _⟩ | ⟨_, seen, l, _, heard⟩ := cases
  · obtain rfl | ⟨n, rfl⟩ := still <;> rfl
  · obtain rfl : a₁ = (hear a s i l seen).1 := congrArg Prod.fst heard
    exact hear_amount a s i l seen

/-- An attempt counts what happens in it. -/
theorem stepAttempt_amount {s s' : Station} {a a' : Ambient} {k : Nat} {t : Attempt}
    (ht : s.attempts[k]? = some t) (step : s.stepAttempt a k = some (a', s')) :
    a'.telemetry.amount (.handled name word) = a.telemetry.amount (.handled name word) +
      (outcomes name (t.program.trace (s.site a t))).count word := by
  obtain ⟨_, follows⟩ := t.program.resume_runs (s.site a t)
  unfold stepAttempt at step
  simp only [ht] at step
  split at step
  · cases step
  · split at step
    · cases step
      split <;> exact follows.amount
    · cases step

end Station

/-! ## What a history counts -/

/-- The outcomes counted for a receiver in the attempts of a history, in the order of time. -/
def outcomesIn (name : String) (h : List Occurrence) : List String :=
  h.filterMap fun
    | .handling _ _ _ e => e.outcome? name
    | _ => none

theorem outcomesIn_append (h h' : List Occurrence) :
    outcomesIn name (h ++ h') = outcomesIn name h ++ outcomesIn name h' :=
  List.filterMap_append

theorem outcomesIn_queue (rs : List Queue.Record) : outcomesIn name (rs.map .queue) = [] := by
  simp [outcomesIn, List.filterMap_map]

theorem outcomesIn_attemptOccurrences (s : Station) (a : Ambient) (k : Nat) (t : Attempt) :
    outcomesIn name (s.attemptOccurrences a k t) =
      outcomes name (t.program.trace (s.site a t)) := by
  have invoked : outcomesIn name (if (s.resumed a t).handling.invoked && !t.handling.invoked then
      [.invoked ⟨a.now, k, t.delivery⟩] else []) = [] := by
    split <;> rfl
  rw [Station.attemptOccurrences, outcomesIn_append, invoked, List.append_nil]
  simp only [outcomesIn, outcomes, List.filterMap_map]
  rfl

theorem of_mem_outcomesIn {h : List Occurrence} (mem : word ∈ outcomesIn name h) :
    ∃ k, word ∈ outcomes name (eventsOf k h) := by
  obtain ⟨o, listed, found⟩ := List.mem_filterMap.mp mem
  cases o with
  | queue r => cases found
  | invoked i => cases found
  | handling time k d e =>
      have here : e ∈ eventsOf k h := List.mem_filterMap.mpr ⟨_, listed, if_pos rfl⟩
      exact ⟨k, List.mem_filterMap.mpr ⟨e, here, found⟩⟩

/-- What was counted in a history was counted in one of its attempts each time. -/
theorem countP_outcomesIn (q : String → Bool) {n : Nat} {h : List Occurrence}
    (silent : ∀ k, n ≤ k → eventsOf k h = []) :
    (outcomesIn name h).countP q =
      ∑ k ∈ Finset.range n, (outcomes name (eventsOf k h)).countP q := by
  induction h with
  | nil => exact (Finset.sum_eq_zero fun k _ => rfl).symm
  | cons o rest ih =>
      have split (k : Nat) : eventsOf k (o :: rest) = eventsOf k [o] ++ eventsOf k rest :=
        eventsOf_append [o] rest k
      have silent' : ∀ k, n ≤ k → eventsOf k rest = [] := fun k beyond =>
        (List.append_eq_nil_iff.mp ((split k).symm.trans (silent k beyond))).2
      have first : (outcomesIn name [o]).countP q =
          ∑ k ∈ Finset.range n, (outcomes name (eventsOf k [o])).countP q := by
        cases o with
        | queue r => exact (Finset.sum_eq_zero fun k _ => rfl).symm
        | invoked i => exact (Finset.sum_eq_zero fun k _ => rfl).symm
        | handling time j d e =>
            -- What happens in an attempt shows that the attempt is among the first `n`.
            have within : j < n := by
              by_contra beyond
              have here := silent j (Nat.le_of_not_lt beyond)
              simp [eventsOf, Occurrence.event?] at here
            have each (k : Nat) : (outcomes name (eventsOf k [.handling time j d e])).countP q =
                if j = k then (outcomes name [e]).countP q else 0 := by
              by_cases same : j = k
              · simp [eventsOf, Occurrence.event?, same]
              · simp [eventsOf, Occurrence.event?, same, outcomes]
            simp only [each]
            rw [Finset.sum_ite_eq, if_pos (Finset.mem_range.mpr within)]
            rfl
      have front : outcomesIn name (o :: rest) = outcomesIn name [o] ++ outcomesIn name rest :=
        outcomesIn_append [o] rest
      rw [front, List.countP_append, first, ih silent', ← Finset.sum_add_distrib]
      refine Finset.sum_congr rfl fun k _ => ?_
      rw [split, outcomes_append, List.countP_append]

/-- Where no attempt counts twice, the outcomes counted and the attempts without any are as many as
there are attempts. -/
theorem length_outcomesIn_add_silent {n : Nat} {h : List Occurrence}
    (silent : ∀ k, n ≤ k → eventsOf k h = [])
    (once : ∀ k, (outcomes name (eventsOf k h)).length ≤ 1) :
    (outcomesIn name h).length +
      ((Finset.range n).filter fun k => outcomes name (eventsOf k h) = []).card = n := by
  have length : (outcomesIn name h).length =
      ∑ k ∈ Finset.range n, (outcomes name (eventsOf k h)).length := by
    simpa using countP_outcomesIn (fun _ => true) silent
  have one (k : Nat) : (outcomes name (eventsOf k h)).length +
      (if outcomes name (eventsOf k h) = [] then 1 else 0) = 1 := by
    have few := once k
    split
    · rename_i none
      rw [none]
      rfl
    · rename_i some
      have counted := List.length_pos_iff.mpr some
      omega
  rw [length, Finset.card_filter, ← Finset.sum_add_distrib, Finset.sum_congr rfl fun k _ => one k,
    ← Finset.card_eq_sum_ones, Finset.card_range]

end

namespace Duty

/-- What others add to a meter in a deed. -/
def added (m : Meter) (s : Duty) : Deed → Int
  | .elsewhere a => a.telemetry.amount m - s.ambient.telemetry.amount m
  | _ => 0

/-- What others add to a meter in a run. -/
def addedBy (m : Meter) (s : Duty) : List Deed → Int
  | [] => 0
  | deed :: rest => s.added m deed + (s.step deed).1.addedBy m rest

/-- What a meter has grown by in a run, apart from what others have added. -/
def growth (m : Meter) (start : Duty) (deeds : List Deed) : Int :=
  (start.run deeds).1.ambient.telemetry.amount m - start.ambient.telemetry.amount m -
    start.addedBy m deeds

variable {name word : String}

theorem added_own {s : Duty} {deed : Deed} (own : ∀ a, deed ≠ .elsewhere a) (m : Meter) :
    s.added m deed = 0 := by
  cases deed with
  | elsewhere a => exact absurd rfl (own a)
  | _ => rfl

/-- What a receiver does itself counts the outcomes of which the history tells. -/
theorem step_amount (s : Duty) {deed : Deed} (own : ∀ a, deed ≠ .elsewhere a) :
    (s.step deed).1.ambient.telemetry.amount (.handled name word) =
      s.ambient.telemetry.amount (.handled name word) +
        (outcomesIn name (s.step deed).2).count word := by
  cases deed with
  | loop i =>
      simp only [step]
      split
      · rfl
      · rename_i stepped
        rw [Station.stepLoop_amount stepped, outcomesIn_queue]
        rfl
  | attempt k =>
      simp only [step]
      split
      · rename_i ht stepped
        rw [Station.stepAttempt_amount ht stepped, outcomesIn_attemptOccurrences]
      · rfl
  | start parent =>
      simp only [step, Station.start]
      cases s.station.running <;> rfl
  | stop =>
      simp only [step, Station.stop]
      cases s.station.running with
      | none => rfl
      | some i =>
          simp only
          cases s.station.loops[i]? <;> rfl
  | closeGate => rfl
  | queue action =>
      simp only [step, act, outcomesIn_queue]
      rfl
  | count =>
      simp only [step, act, outcomesIn_append, outcomesIn_queue]
      rfl
  | reorder locked =>
      simp only [step]
      split <;> rfl
  | elsewhere a => exact absurd rfl (own a)

/-- The meter of an outcome grows by the times that it was counted. -/
theorem growth_eq (s : Duty) (deeds : List Deed) :
    growth (.handled name word) s deeds = (outcomesIn name (s.run deeds).2).count word := by
  induction deeds generalizing s with
  | nil => simp [growth, run, addedBy, outcomesIn]
  | cons deed rest ih =>
      have here : ((s.step deed).1.ambient.telemetry.amount (.handled name word) : Int) =
          s.ambient.telemetry.amount (.handled name word) + s.added (.handled name word) deed +
            (outcomesIn name (s.step deed).2).count word := by
        by_cases own : ∀ a, deed ≠ .elsewhere a
        · rw [s.step_amount own, added_own own]
          omega
        · obtain ⟨a, rfl⟩ := not_forall_not.mp own
          simp only [step, added, outcomesIn, List.filterMap_nil, List.count_nil]
          omega
      have later := ih (s.step deed).1
      simp only [growth, run, addedBy, outcomesIn_append, List.count_append] at later ⊢
      omega

/-! ## Attempts and their outcomes -/

/-- An attempt broke off: what is inside of the instrumenting stage ended in a panic. -/
def BrokeOff (base s : Station) (h : List Occurrence) (k : Nat) : Prop :=
  ∃ t text claimed, s.attempts[k]? = some t ∧
    Came base.own base.processor t.handling.context (eventsOf k h) (.panicked text) claimed

/-- An attempt was aborted, as its loop broke off, before it counted. -/
def CutShort (name : String) (s : Station) (h : List Occurrence) (k : Nat) : Prop :=
  ∃ t, s.attempts[k]? = some t ∧ t.aborted = true ∧ outcomes name (eventsOf k h) = []

/-- What the attempts of a receiver have counted.

* An attempt counts once at most, and under one of the words. Once it has come to its end, what is
inside of the instrumenting stage has come to a verdict, and the attempt has counted the strokes of
it.
* The meter of a word has grown by the number of attempts that counted it.
* When the loops have ended, all attempts have come to their ends. Only attempts of loops that broke
off are aborted.
* When nothing more becomes of any attempt, the meters together have grown by the number of
attempts, less those that broke off inside and those that were cut short. -/
structure Tallied (start : Duty) (deeds : List Deed) (s : Station) (h : List Occurrence) :
    Prop where
  once : ∀ k, (outcomes start.station.receiver.name (eventsOf k h)).length ≤ 1
  words : ∀ k, ∀ word ∈ outcomes start.station.receiver.name (eventsOf k h), word ∈ outcomeWords
  came : ∀ k t, s.attempts[k]? = some t → t.isDone = true → ∃ verdict claimed,
    Came start.station.own start.station.processor t.handling.context (eventsOf k h) verdict claimed
  counted : ∀ k t verdict claimed, s.attempts[k]? = some t →
    Came start.station.own start.station.processor t.handling.context (eventsOf k h) verdict
      claimed →
    outcomes start.station.receiver.name (eventsOf k h) = strokes verdict claimed
  meter : ∀ word, growth (.handled start.station.receiver.name word) start deeds =
    ((Finset.range s.attempts.length).filter fun k =>
      outcomes start.station.receiver.name (eventsOf k h) = [word]).card
  stopped : (∀ l ∈ s.loops, l.phase = .ended) →
    ∀ t ∈ s.attempts, t.isDone = true ∧ t.aborted = false
  aborted : ∀ t ∈ s.attempts, t.aborted = true →
    ∃ l o, s.loops[t.loop]? = some l ∧ l.phase = .broken o
  total : (∀ t ∈ s.attempts, t.isOver = true) → ∃ uncounted : Finset Nat,
    (∀ k, k ∈ uncounted ↔
      BrokeOff start.station s h k ∨ CutShort start.station.receiver.name s h k) ∧
      (outcomeWords.map fun word =>
        growth (.handled start.station.receiver.name word) start deeds).sum + uncounted.card =
      s.attempts.length

theorem count_of_length_le {word : String} {l : List String} (once : l.length ≤ 1) :
    l.countP (· == word) = if l = [word] then 1 else 0 := by
  match l with
  | [] => rfl
  | [first] => by_cases same : first = word <;> simp [same]
  | _ :: _ :: _ => simp at once

/-- Lists of words are as long as the words in them are many. -/
theorem sum_count_outcomeWords {l : List String} (words : ∀ word ∈ l, word ∈ outcomeWords) :
    (outcomeWords.map fun word => (l.count word : Int)).sum = l.length := by
  induction l with
  | nil => rfl
  | cons first rest ih =>
      obtain ⟨here, later⟩ := List.forall_mem_cons.mp words
      have rest_sum := ih later
      simp only [outcomeWords, List.map_cons, List.map_nil, List.sum_cons, List.sum_nil,
        List.count_cons, List.length_cons] at rest_sum ⊢
      simp only [outcomeWords, List.mem_cons, List.not_mem_nil, or_false] at here
      obtain rfl | rfl | rfl | rfl | rfl := here <;> simp <;> omega

section

variable {start : Duty} {deeds : List Deed} {s : Station} {h : List Occurrence}

theorem receiver_of_mem (custody : Custody start.station s h) {t : Attempt}
    (mem : t ∈ s.attempts) : t.handling.context.receiver = start.station.receiver.name := by
  obtain ⟨payload, _, context⟩ := custody.contexts t mem
  rw [context]

/-- What an attempt has counted so far are the strokes of some verdict, if it has counted. -/
theorem attempt_counts (custody : Custody start.station s h)
    (stages : ∀ stage ∈ start.station.own, stage.Discreet start.station.receiver.name)
    (discreet : start.station.processor.Discreet start.station.receiver.name) (k : Nat) :
    outcomes start.station.receiver.name (eventsOf k h) = [] ∨ ∃ verdict claimed,
      outcomes start.station.receiver.name (eventsOf k h) = strokes verdict claimed := by
  cases ht : s.attempts[k]? with
  | none =>
      rw [custody.silent k (List.getElem?_eq_none_iff.mp ht)]
      exact .inl rfl
  | some t =>
      rw [← receiver_of_mem custody (List.mem_of_getElem? ht)] at stages discreet ⊢
      exact handle_counts stages discreet (custody.told k t ht).1

/-- An attempt that has ended has come to a verdict. -/
theorem attempt_came (custody : Custody start.station s h) {k : Nat} {t : Attempt}
    (ht : s.attempts[k]? = some t) (past : t.isDone = true) : ∃ verdict claimed,
      Came start.station.own start.station.processor t.handling.context (eventsOf k h) verdict
        claimed := by
  have told := (custody.told k t ht).1
  cases program : t.program with
  | done result => exact came_of_ends (program ▸ told)
  | call e rest => simp [Attempt.isDone, Program.result?, program] at past
  | await p rest => simp [Attempt.isDone, Program.result?, program] at past

theorem attempt_counted (custody : Custody start.station s h)
    (stages : ∀ stage ∈ start.station.own, stage.Discreet start.station.receiver.name)
    (discreet : start.station.processor.Discreet start.station.receiver.name) {k : Nat}
    {t : Attempt} (ht : s.attempts[k]? = some t) {verdict : Verdict ProcessingFault}
    {claimed : Settlement} (came : Came start.station.own start.station.processor
      t.handling.context (eventsOf k h) verdict claimed) :
    outcomes start.station.receiver.name (eventsOf k h) = strokes verdict claimed := by
  rw [← receiver_of_mem custody (List.mem_of_getElem? ht)] at stages discreet ⊢
  exact came.counted stages discreet

/-- The attempts that counted nothing, once they are over, are those that broke off inside and those
that were cut short. -/
theorem uncounted_iff (custody : Custody start.station s h)
    (stages : ∀ stage ∈ start.station.own, stage.Discreet start.station.receiver.name)
    (discreet : start.station.processor.Discreet start.station.receiver.name)
    (past : ∀ t ∈ s.attempts, t.isOver = true) (k : Nat) :
    k < s.attempts.length ∧ outcomes start.station.receiver.name (eventsOf k h) = [] ↔
      BrokeOff start.station s h k ∨ CutShort start.station.receiver.name s h k := by
  constructor
  · rintro ⟨within, none⟩
    have ht := List.getElem?_eq_getElem within
    obtain done | aborted := Bool.or_eq_true_iff.mp (past _ (List.mem_of_getElem? ht))
    · obtain ⟨verdict, claimed, came⟩ := attempt_came custody ht done
      have counted := attempt_counted custody stages discreet ht came
      obtain ⟨text, rfl⟩ := strokes_eq_nil.mp (counted.symm.trans none)
      exact .inl ⟨_, text, claimed, ht, came⟩
    · exact .inr ⟨_, ht, aborted, none⟩
  · rintro (⟨t, text, claimed, ht, came⟩ | ⟨t, ht, _, none⟩)
    · exact ⟨(List.getElem?_eq_some_iff.mp ht).1, attempt_counted custody stages discreet ht came⟩
    · exact ⟨(List.getElem?_eq_some_iff.mp ht).1, none⟩

theorem tallied (custody : Custody start.station s h) (ending : Ending start deeds s)
    (growths : ∀ word, growth (.handled start.station.receiver.name word) start deeds =
      (outcomesIn start.station.receiver.name h).count word)
    (stages : ∀ stage ∈ start.station.own, stage.Discreet start.station.receiver.name)
    (discreet : start.station.processor.Discreet start.station.receiver.name) :
    Tallied start deeds s h := by
  have each := attempt_counts custody stages discreet
  have once (k : Nat) : (outcomes start.station.receiver.name (eventsOf k h)).length ≤ 1 := by
    obtain none | ⟨verdict, claimed, counted⟩ := each k
    · simp [none]
    · rw [counted]
      exact strokes_length_le verdict claimed
  have words (k : Nat) : ∀ word ∈ outcomes start.station.receiver.name (eventsOf k h),
      word ∈ outcomeWords := by
    obtain none | ⟨verdict, claimed, counted⟩ := each k
    · simp [none]
    · rw [counted]
      exact strokes_subset verdict claimed
  refine ⟨once, words, fun _ _ => attempt_came custody,
    fun _ _ _ _ ht came => attempt_counted custody stages discreet ht came, ?meter, ?stopped,
    ending.aborted, ?total⟩
  case meter =>
    intro word
    rw [growths, List.count, countP_outcomesIn _ custody.silent, Finset.card_filter]
    exact congrArg _ (Finset.sum_congr rfl fun k _ => count_of_length_le (once k))
  case stopped =>
    intro ended t mem
    have here := List.getElem?_eq_getElem (ending.mine t mem)
    have phase := ended _ (List.mem_of_getElem? here)
    have past := Station.over_of_unfinished (ending.ended t.loop _ here phase) mem rfl
    have kept : t.aborted = false := by
      refine eq_false_of_ne_true fun aborted => ?_
      obtain ⟨l, o, hl, broken⟩ := ending.aborted t mem aborted
      rw [ended l (List.mem_of_getElem? hl)] at broken
      cases broken
    exact ⟨Attempt.isOver_of_kept kept ▸ past, kept⟩
  case total =>
    intro past
    refine ⟨(Finset.range s.attempts.length).filter fun k =>
      outcomes start.station.receiver.name (eventsOf k h) = [], fun k => ?_, ?_⟩
    · rw [Finset.mem_filter, Finset.mem_range]
      exact uncounted_iff custody stages discreet past k
    · have listed : ∀ word ∈ outcomesIn start.station.receiver.name h, word ∈ outcomeWords := by
        intro word mem
        obtain ⟨k, here⟩ := of_mem_outcomesIn mem
        exact words k word here
      have all := length_outcomesIn_add_silent custody.silent once
      simp only [growths]
      rw [sum_count_outcomeWords listed]
      omega

end

section

variable (a : Ambient) (r : Receiver) (format : Format) (schema : Schema) (queue : String)
  (style : TokenStyle) (registry : Registry) (messageType : String) (own : List Stage)
  (p : Processor)

theorem run_custody (deeds : List Deed) :
    let start := (begin a r format schema queue style registry messageType p).equip own
    Custody start.station (start.run deeds).1.station (start.run deeds).2 := by
  intro start
  exact run_induction (P := fun _ s h => Custody start.station s.station h)
    (begin_custody a r format schema queue style registry messageType own p)
    (fun _ _ _ _ _ _ _ happens custody => happens_custody custody happens) deeds

/-- Whatever is done and however the processor and the receiver's own stages behave, as long as they
leave these counts alone, each attempt that has come to its end has counted how it came out: once,
under the word of the fault or of the disposition, unless what is inside broke off. -/
theorem attempts_tallied (stages : ∀ stage ∈ own, stage.Discreet r.name)
    (discreet : p.Discreet r.name) (deeds : List Deed) :
    let start := (begin a r format schema queue style registry messageType p).equip own
    Tallied start deeds (start.run deeds).1.station (start.run deeds).2 := by
  intro start
  exact tallied (run_custody a r format schema queue style registry messageType own p deeds)
    (run_ending (begin_ending a r format schema queue style registry messageType own p) deeds)
    (fun _ => growth_eq start deeds) stages discreet

end

/-- A processor that breaks off at one number, fails at another, and passes at the rest. -/
def moody : Processor := fun ctx =>
  match ctx.payload with
  | .int 1 => .done (.panicked (some "index out of range"))
  | .int 2 => .done (.failed (.ofText "out of stock"))
  | _ => .done .passed

theorem moody_discreet (name : String) : moody.Discreet name := by
  intro ctx
  unfold moody
  split <;> trivial

/-- A receiver for such a processor. -/
def moodyDesk : Duty :=
  (begin {} ⟨"orders", "clerk", false, {}, {}⟩ .json .value "orders" .numbered clerk "order"
    moody).equip []

/-- A message of each kind is handled, and the receiver is stopped. -/
def moodyDeeds : List Deed :=
  [.start ⟨[]⟩, .queue (.send { body := Utf8.encode "1" }),
    .queue (.send { body := Utf8.encode "2" }), .queue (.send { body := Utf8.encode "3" }),
    .loop 0, .loop 0, .attempt 0, .attempt 1, .attempt 2, .stop, .loop 0, .loop 0]

theorem attempts_tallied_moody :
    let s := (moodyDesk.run moodyDeeds).1
    let h := (moodyDesk.run moodyDeeds).2
    s.station.loops.map (·.phase) = [.ended] ∧ s.station.attempts.map (·.isOver) =
        [true, true, true] ∧
      ((List.range 3).map fun k => outcomes "orders" (eventsOf k h)) =
        [[], ["failed"], ["completed"]] ∧
      Tallied moodyDesk moodyDeeds s.station h := by
  refine ⟨by decide +kernel, by decide +kernel, by decide +kernel, ?_⟩
  unfold moodyDesk
  exact attempts_tallied {} ⟨"orders", "clerk", false, {}, {}⟩ .json .value "orders" .numbered
    clerk "order" [] moody nofun (moody_discreet "orders") moodyDeeds

/-- An attempt breaks off and is over, the receiver is stopped, and no meter was ever touched. -/
theorem panic_uncounted :
    let deeds : List Deed := [.start ⟨[]⟩, .queue (.send { body := Utf8.encode "1" }), .loop 0,
      .loop 0, .attempt 0, .stop, .loop 0, .loop 0]
    let s := (moodyDesk.run deeds).1
    s.station.loops.map (·.phase) = [.ended] ∧ s.station.attempts.map (·.isOver) = [true] ∧
      s.ambient.telemetry.meters.length = 0 ∧
      (outcomeWords.map fun word => growth (.handled "orders" word) moodyDesk deeds).sum = 0 := by
  decide +kernel

end Duty

end Courier
