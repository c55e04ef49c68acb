import Courier.Proofs.Handling.Passage
import Courier.Proofs.Receiver.Loops
import Mathlib.Data.List.Induction

/-!
# What the deeds of a duty do

`Duty.Happens` lists all that can come of a deed: a loop steps, and its attempts are aborted if it
breaks off by that, an attempt steps, a loop is begun, the last loop is told to end, the gate is
closed, others use the queue, something happens elsewhere, or nothing happens. What all of these
keep holds after every run (`Duty.run_induction`).

Some things are true only of runs in which nothing untoward is done. `Duty.Throughout` says that
something holds of every deed where it is done.
-/

namespace Courier

open Queue (Record Moves)

theorem Site.perform_controller (s : Site) (e : Effect) :
    (s.perform e).1.ambient.controller = s.ambient.controller := by
  cases e with
  | settle how =>
      simp only [perform, settle]
      split <;> rfl
  | enter gate ticket =>
      simp only [perform, enter]
      split <;> rfl
  | _ => rfl

theorem Site.Follows.controller {s s' : Site} {events : List Event} (h : s.Follows events s') :
    s'.ambient.controller = s.ambient.controller := by
  induction h with
  | refl => rfl
  | settled _ _ ih => exact ih
  | called _ _ ih => exact ih.trans (Site.perform_controller _ _)
  | waited _ _ ih => exact ih

namespace Occurrence

/-- What a loop has asked of the queue itself for a delivery, whether it was granted or not. -/
def direct? : Occurrence → Option (LockToken × Settling)
  | .queue (.settled _ token how _) => some (token, how)
  | _ => none

end Occurrence

/-- What the loops have asked of the queue themselves. -/
def directs (h : List Occurrence) : List (LockToken × Settling) := h.filterMap Occurrence.direct?

@[simp] theorem directs_append (h h' : List Occurrence) :
    directs (h ++ h') = directs h ++ directs h' :=
  List.filterMap_append

@[simp] theorem directs_attemptOccurrences (s : Station) (a : Ambient) (k : Nat) (t : Attempt) :
    directs (s.attemptOccurrences a k t) = [] := by
  apply List.filterMap_eq_nil_iff.mpr
  intro o mem
  obtain mem | mem := List.mem_append.mp mem
  · obtain ⟨e, _, rfl⟩ := List.mem_map.mp mem
    rfl
  · split at mem
    · rw [List.mem_singleton.mp mem]
      rfl
    · simp at mem

/-- The stations of a run differ from each other in nothing that a loop does not touch. -/
theorem Station.LoopStep.frame {a a' : Ambient} {s s' : Station} {i : Nat} {l l' : ReceiveLoop}
    {made : List Attempt} (step : s.LoopStep a a' s' i l l' made) : s' = { s with
      premises := { s.premises with queue := s'.premises.queue }
      loops := s.loops.set i l'
      attempts := s.attempts ++ made } := by
  have rest : s' = { s with
      premises := { s.premises with queue := s'.premises.queue }
      loops := s'.loops
      attempts := s'.attempts } :=
    congrArg (fun s'' : Station => { s'' with loops := s'.loops }) step.accepted.rest
  have attempts : s'.attempts = s.attempts ++ made := step.accepted.attempts
  rwa [step.loops, attempts] at rest

theorem Attempt.isDone_of_canResume {t : Attempt} {s : Site} (can : t.program.canResume s = true) :
    t.isDone = false := by
  unfold isDone
  cases program : t.program with
  | done verdict => simp [program, Program.canResume] at can
  | call e rest => rfl
  | await p rest => rfl

/-- What a step of an attempt does. -/
theorem Station.stepAttempt_shape {s s' : Station} {a a' : Ambient} {k : Nat} {t : Attempt}
    (ht : s.attempts[k]? = some t) (step : s.stepAttempt a k = some (a', s')) :
    t.isOver = false ∧ t.program.canResume (s.site a t) = true ∧ a'.clock = a.clock ∧
      a'.controller.inFlight = a.controller.inFlight -
        (if (s.resumed a t).isOver then 1 else 0) ∧
      s' = { s with
        premises := (t.program.resume (s.site a t)).1.premises
        attempts := s.attempts.set k (s.resumed a t) } := by
  obtain ⟨_, follows⟩ := t.program.resume_runs (s.site a t)
  have controller : (t.program.resume (s.site a t)).1.ambient.controller = a.controller :=
    follows.controller
  unfold stepAttempt at step
  simp only [ht] at step
  split at step
  · simp at step
  · rename_i kept
    have kept : t.aborted = false := eq_false_of_ne_true kept
    split at step
    · rename_i can
      cases step
      refine ⟨?_, can, ?_, ?_, rfl⟩
      · rw [Attempt.isOver_of_kept kept, Attempt.isDone_of_canResume can]
      · split <;> exact follows.clock
      · rw [Attempt.isOver_of_kept (t := s.resumed a t) kept]
        by_cases past : (s.resumed a t).isDone = true
        · rw [if_pos past]
          split
          · simp only [Controller.leave, controller]
          · rename_i going
            exact absurd past going
        · rw [if_neg past]
          split
          · rename_i ended
            exact absurd ended past
          · rw [controller, Nat.sub_zero]
    · simp at step

/-! ## Attempts in flight -/

namespace Station

/-- A new attempt has not ended. -/
theorem New.going {s : Station} {i : Nat} {t : Attempt} (new : s.New i t) : t.isOver = false := by
  rw [Attempt.isOver_of_kept new.kept, Attempt.isDone, new.program, handle_eq_standard]
  rfl

/-- How many attempts of some of the loops have not ended. -/
def inFlightOf (s : Station) (mine : Nat → Bool) : Nat :=
  s.attempts.countP fun t => mine t.loop && !t.isOver

theorem unfinished_eq (s : Station) (i : Nat) : s.unfinished i = s.inFlightOf (· == i) :=
  List.countP_eq_length_filter.symm

/-- None of the attempts of some of the loops is in flight when all of them have ended. -/
theorem inFlightOf_eq_zero {s : Station} {mine : Nat → Bool} :
    s.inFlightOf mine = 0 ↔ ∀ t ∈ s.attempts, mine t.loop = true → t.isOver = true := by
  simp [inFlightOf, List.countP_eq_zero]

theorem over_of_unfinished {s : Station} {i : Nat} (none : s.unfinished i = 0) {t : Attempt}
    (mem : t ∈ s.attempts) (mine : t.loop = i) : t.isOver = true := by
  rw [unfinished_eq] at none
  exact inFlightOf_eq_zero.mp none t mem (by simp [mine])

variable {s s' : Station} {a a' : Ambient} {i : Nat} {l l' : ReceiveLoop} {made : List Attempt}

theorem LoopStep.capacity (step : s.LoopStep a a' s' i l l' made) : s'.capacity = s.capacity := by
  rw [step.frame]
  rfl

/-- A loop has as many attempts in flight more as it makes. -/
theorem LoopStep.inFlightOf (step : s.LoopStep a a' s' i l l' made) (mine : Nat → Bool) :
    s'.inFlightOf mine = s.inFlightOf mine + if mine i then made.length else 0 := by
  have new : made.countP (fun t => mine t.loop && !t.isOver) =
      if mine i then made.length else 0 := by
    have same : ∀ t ∈ made, (mine t.loop && !t.isOver) = mine i := fun t mem => by
      have new := step.accepted.new t mem
      rw [new.loop, new.going, Bool.not_false, Bool.and_true]
    rw [List.countP_congr (q := fun _ => mine i) fun t mem => by rw [same t mem]]
    cases mine i <;> simp
  have attempts : s'.attempts = s.attempts ++ made := step.accepted.attempts
  rw [Station.inFlightOf, Station.inFlightOf, attempts, List.countP_append, new]

theorem LoopStep.unfinished_self (step : s.LoopStep a a' s' i l l' made) :
    s'.unfinished i = s.unfinished i + made.length := by
  rw [unfinished_eq, unfinished_eq, step.inFlightOf, if_pos (beq_self_eq_true i)]

theorem LoopStep.unfinished_other (step : s.LoopStep a a' s' i l l' made) {j : Nat}
    (other : i ≠ j) : s'.unfinished j = s.unfinished j := by
  rw [unfinished_eq, unfinished_eq, step.inFlightOf, if_neg (by simpa using other), Nat.add_zero]

/-- A loop makes no attempt when it receives nothing. -/
theorem LoopStep.none_of_received (step : s.LoopStep a a' s' i l l' made)
    (none : s.received a i = []) : made = [] := by
  have few := step.accepted.length_le
  rw [none] at few
  exact List.eq_nil_of_length_eq_zero (Nat.le_zero.mp few)

/-- An attempt in flight changes, and may be over then. -/
theorem inFlightOf_set {k : Nat} {t : Attempt} (t' : Attempt) (ht : s.attempts[k]? = some t)
    (going : t.isOver = false) (loop : t'.loop = t.loop)
    (attempts : s'.attempts = s.attempts.set k t') (mine : Nat → Bool) :
    s'.inFlightOf mine + (if mine t.loop && t'.isOver then 1 else 0) = s.inFlightOf mine := by
  obtain ⟨within, here⟩ := List.getElem?_eq_some_iff.mp ht
  rw [inFlightOf, inFlightOf, attempts, List.countP_set within, here, loop, going]
  cases counted : mine t.loop with
  | false => simp
  | true =>
      have some : 0 < s.attempts.countP fun t => mine t.loop && !t.isOver :=
        List.countP_pos_iff.mpr ⟨t, List.mem_of_getElem? ht, by simp [counted, going]⟩
      cases t'.isOver <;> simp <;> omega

theorem inFlightOf_resumed {k : Nat} {t : Attempt} (ht : s.attempts[k]? = some t)
    (going : t.isOver = false) (premises : Premises) (mine : Nat → Bool) :
    ({ s with premises := premises, attempts := s.attempts.set k (s.resumed a t) } :
        Station).inFlightOf mine + (if mine t.loop && (s.resumed a t).isOver then 1 else 0) =
      s.inFlightOf mine :=
  inFlightOf_set (s.resumed a t) ht going rfl rfl mine

theorem unfinished_resumed {k : Nat} {t : Attempt} (ht : s.attempts[k]? = some t)
    (going : t.isOver = false) (premises : Premises) (j : Nat) :
    ({ s with premises := premises, attempts := s.attempts.set k (s.resumed a t) } :
        Station).unfinished j ≤ s.unfinished j := by
  rw [unfinished_eq, unfinished_eq]
  exact Nat.le.intro (inFlightOf_resumed ht going premises _)

/-- An attempt that is aborted is not in flight any more. -/
theorem Abort.unfinished_le (abort : Abort a s a' s') (j : Nat) :
    s'.unfinished j ≤ s.unfinished j := by
  cases abort with
  | @intro k t l o telemetry ht going =>
      rw [unfinished_eq, unfinished_eq]
      exact Nat.le.intro (inFlightOf_set { t with aborted := true } ht going rfl rfl _)

theorem Aborts.unfinished_le (aborts : Aborts a s a' s') (j : Nat) :
    s'.unfinished j ≤ s.unfinished j :=
  aborts.preserve (P := fun _ s' => s'.unfinished j ≤ s.unfinished j)
    (fun abort fewer => (abort.unfinished_le j).trans fewer) (Nat.le_refl _)

end Station

namespace Duty

/-- What can come of a deed, with what a history tells of it. -/
inductive Happens (s : Duty) : Deed → Duty → List Occurrence → Prop where
  | loop {i : Nat} {l l' : ReceiveLoop} {made : List Attempt} {a₁ a' : Ambient} {s₁ s' : Station} :
      Station.LoopStep s.ambient a₁ s.station s₁ i l l' made →
      Station.Aftermath a₁ s₁ i a' s' →
      Happens s (.loop i) ⟨a', s'⟩ ((s.station.loopRecords s.ambient i).map .queue)
  | attempt {k : Nat} {t : Attempt} {a' : Ambient} : s.station.attempts[k]? = some t →
      t.isOver = false → t.program.canResume (s.station.site s.ambient t) = true →
      a'.clock = s.ambient.clock →
      a'.controller.inFlight = s.ambient.controller.inFlight -
        (if (s.station.resumed s.ambient t).isOver then 1 else 0) →
      Happens s (.attempt k)
        ⟨a', { s.station with
          premises := (t.program.resume (s.station.site s.ambient t)).1.premises
          attempts := s.station.attempts.set k (s.station.resumed s.ambient t) }⟩
        (s.station.attemptOccurrences s.ambient k t)
  | start {parent : CancelToken} : s.station.running = none →
      Happens s (.start parent)
        ⟨(s.ambient.child parent).1, { s.station with
          loops := s.station.loops ++ [{ token := (s.ambient.child parent).2 }]
          running := some s.station.loops.length }⟩ []
  | stop {a' : Ambient} : a'.clock = s.ambient.clock → a'.controller = s.ambient.controller →
      Happens s .stop ⟨a', { s.station with running := none }⟩ []
  | closeGate : Happens s .closeGate { s with station := s.station.closeGate } []
  | queue {deed : Deed} {q : Queue} {rs : List Record} :
      Moves s.ambient.now s.station.premises.queue rs q →
      (∀ time token how answer, .settled time token how answer ∉ rs) →
      Queue.deliveries rs = [] → Queue.Excused rs → (∀ a, deed ≠ .elsewhere a) →
      Happens s deed { s with station := s.station.withQueue q } (rs.map .queue)
  | elsewhere (a : Ambient) : Happens s (.elsewhere a)
      { s with ambient := { a with clock := s.ambient.clock.advanceTo a.clock.now } } []
  | idle {deed : Deed} : (∀ a, deed ≠ .elsewhere a) → Happens s deed s []

/-- All that comes of a deed is one of these. -/
theorem step_happens (s : Duty) (deed : Deed) : s.Happens deed (s.step deed).1 (s.step deed).2 := by
  cases deed with
  | loop i =>
      simp only [step]
      split
      · exact .idle nofun
      · rename_i a' s' stepped
        obtain ⟨l, l', made, a₁, s₁, loop, after⟩ := Station.stepLoop_step stepped
        exact .loop loop after
  | attempt k =>
      simp only [step]
      split
      · rename_i t a' s' ht stepped
        obtain ⟨going, can, clock, inFlight, rfl⟩ := Station.stepAttempt_shape ht stepped
        exact .attempt ht going can clock inFlight
      · exact .idle nofun
  | start parent =>
      simp only [step, Station.start]
      cases running : s.station.running with
      | some i => exact .idle nofun
      | none => exact .start running
  | stop =>
      simp only [step, Station.stop]
      cases running : s.station.running with
      | none => exact .idle nofun
      | some i =>
          simp only
          cases s.station.loops[i]? with
          | none => exact .stop rfl rfl
          | some l => exact .stop rfl rfl
  | closeGate => exact .closeGate
  | queue action =>
      have plain : Queue.Excused (action.alone.records s.exchange) := by
        apply Queue.Excused.of_none <;> cases action <;>
          simp [Shift.QueueAction.alone, Exchange.Action.records]
      refine .queue (s.exchange.act_moves action.alone) ?_ ?_ plain nofun <;> cases action <;>
        simp [Shift.QueueAction.alone, Exchange.Action.records]
  | count =>
      have moves := ((s.exchange.act_moves .pending).trans
        ((s.act .pending).1.exchange.act_moves .inFlight))
      exact .queue moves (by simp [Exchange.Action.records]) rfl .nil nofun
  | reorder locked =>
      simp only [step]
      split
      · rename_i perm
        exact .queue (Queue.reorder_moves s.ambient.now perm) (by simp) rfl .nil nofun
      · exact .idle nofun
  | elsewhere a => exact .elsewhere a

/-! ## Runs -/

/-- A run in two parts. -/
theorem run_append (s : Duty) (deeds more : List Deed) :
    s.run (deeds ++ more) = (((s.run deeds).1.run more).1,
      (s.run deeds).2 ++ ((s.run deeds).1.run more).2) := by
  induction deeds generalizing s with
  | nil => rfl
  | cons deed rest ih => simp [run, ih, List.append_assoc]

theorem run_concat (s : Duty) (deeds : List Deed) (deed : Deed) :
    s.run (deeds ++ [deed]) = (((s.run deeds).1.step deed).1,
      (s.run deeds).2 ++ ((s.run deeds).1.step deed).2) := by
  rw [run_append]
  simp [run]

/-- What holds at the beginning and is kept by every deed holds after every run. -/
theorem run_induction {start : Duty} {P : List Deed → Duty → List Occurrence → Prop}
    (nil : P [] start [])
    (concat : ∀ deeds deed {s h s' h'}, start.run deeds = (s, h) → s.Happens deed s' h' →
      P deeds s h → P (deeds ++ [deed]) s' (h ++ h')) (deeds : List Deed) :
    P deeds (start.run deeds).1 (start.run deeds).2 := by
  induction deeds using List.reverseRecOn with
  | nil => exact nil
  | append_singleton deeds deed ih =>
      rw [run_concat]
      exact concat deeds deed rfl ((start.run deeds).1.step_happens deed) ih

/-- Something holds of every deed of a run, in the state in which it is done. -/
def Throughout (allowed : Duty → Deed → Prop) (s : Duty) : List Deed → Prop
  | [] => True
  | deed :: rest => allowed s deed ∧ (s.step deed).1.Throughout allowed rest

instance decidableThroughout {allowed : Duty → Deed → Prop}
    [∀ s deed, Decidable (allowed s deed)] :
    (s : Duty) → (deeds : List Deed) → Decidable (s.Throughout allowed deeds)
  | _, [] => inferInstanceAs (Decidable True)
  | s, deed :: rest =>
    have : Decidable ((s.step deed).1.Throughout allowed rest) := decidableThroughout _ rest
    inferInstanceAs (Decidable (allowed s deed ∧ (s.step deed).1.Throughout allowed rest))

theorem throughout_append {allowed : Duty → Deed → Prop} {s : Duty} {deeds more : List Deed} :
    s.Throughout allowed (deeds ++ more) ↔
      s.Throughout allowed deeds ∧ (s.run deeds).1.Throughout allowed more := by
  induction deeds generalizing s with
  | nil => simp [Throughout, run]
  | cons deed rest ih => simp [Throughout, run, ih, and_assoc]

theorem throughout_concat {allowed : Duty → Deed → Prop} {s : Duty} {deeds : List Deed}
    {deed : Deed} : s.Throughout allowed (deeds ++ [deed]) ↔
      s.Throughout allowed deeds ∧ allowed (s.run deeds).1 deed := by
  rw [throughout_append]
  simp [Throughout]

end Duty

end Courier
