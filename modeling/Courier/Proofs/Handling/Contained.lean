import Courier.Proofs.Handling.Plain

/-!
# Faults are contained

Whatever stages a receiver puts around its processor, the containing stage is outside of them all.
It lets nothing out but success, it settles what the inside has left unsettled, and it leaves a
settlement alone that the inside has claimed. Nothing is said here of the stages inside: each is
any function from services to services.

That a service comes to an end at all is a matter of its courses. A course follows a program from
call to call and from pause to pause, whatever the calls are answered. Programs are finite in
depth, so no course goes on forever; a service waits only where one of its pauses has not come to
its end.
-/

namespace Courier

open Program (perform Runs Ends Elaborates)

namespace Program

variable {α β : Type}

/-! ## Courses -/

/-- What is left of a program after its next call or pause. -/
inductive Next : Program α → Program α → Prop where
  | called {e : Effect} {rest : e.Answer → Program α} (answer : e.Answer) :
      Next (rest answer) (.call e rest)
  | waited {p : Pause} {rest : Program α} : Next rest (.await p rest)

theorem wellFounded_next : WellFounded (Next (α := α)) := by
  constructor
  intro x
  induction x with
  | done a => exact ⟨_, fun _ next => nomatch next⟩
  | call e rest ih =>
      refine ⟨_, fun y next => ?_⟩
      cases next with
      | called answer => exact ih answer
  | await p rest ih =>
      refine ⟨_, fun y next => ?_⟩
      cases next with
      | waited => exact ih

/-- Programs one after the other, each of which is next to the one before as long as that has not
ended. -/
def IsCourse (course : Nat → Program α) : Prop :=
  ∀ n, (∃ a, course n = .done a) ∨ Next (course (n + 1)) (course n)

/-- A program all of whose results are of some kind, whatever its calls are answered. -/
def Yields (ok : α → Prop) : Program α → Prop
  | .done a => ok a
  | .call _ rest => ∀ answer, (rest answer).Yields ok
  | .await _ rest => rest.Yields ok

theorem yields_bind {ok : β → Prop} {f : α → Program β} (after : ∀ a, (f a).Yields ok)
    (x : Program α) : (x.bind f).Yields ok := by
  induction x with
  | done a => exact after a
  | call e rest ih => exact ih
  | await p rest ih => exact ih

theorem Yields.next {ok : α → Prop} {x y : Program α} (h : x.Yields ok) (next : Next y x) :
    y.Yields ok := by
  cases next with
  | called answer => exact h answer
  | waited => exact h

theorem Yields.runs {ok : α → Prop} {x y : Program α} (h : x.Yields ok) {st st' : Settlement}
    {events : List Event} (runs : Runs x st events st' y) : y.Yields ok := by
  induction runs with
  | refl => exact h
  | refused _ _ ih => exact ih (h _)
  | settled _ _ _ ih => exact ih (h _)
  | disposition _ ih => exact ih (h _)
  | called _ _ _ ih => exact ih (h _)
  | waited _ ih => exact ih h

/-- A course comes to an end, and with a result of the kind that the program yields. -/
theorem Yields.course_ends {ok : α → Prop} {x : Program α} (h : x.Yields ok)
    {course : Nat → Program α} (start : course 0 = x) (is_course : IsCourse course) :
    ∃ n a, course n = .done a ∧ ok a := by
  induction x using wellFounded_next.induction generalizing course with
  | _ x ih =>
      obtain ⟨a, done⟩ | next := is_course 0
      · rw [start] at done
        exact ⟨0, a, start.trans done, by simpa [done, Yields] using h⟩
      · rw [start] at next
        have is_rest : IsCourse fun n => course (n + 1) := fun n => is_course (n + 1)
        obtain ⟨n, a, done, good⟩ := ih _ next (h.next next) rfl is_rest
        exact ⟨n + 1, a, done, good⟩

end Program

/-! ## The containing stage -/

namespace Stage

/-- The fault for which a delivery is abandoned that came out in some way and was not settled. -/
def reason : Verdict ProcessingFault → ProcessingFault
  | .passed => .unsettled
  | .failed fault => fault
  | .panicked text => .panicked (panicText text)

/-- Abandons the delivery for the way in which it came out, unless the settlement is claimed. -/
def abandonUnsettled (verdict : Verdict ProcessingFault) : Service := do
  match ← perform .disposition with
  | some _ => return .passed
  | none => Plain.settle (.abandon (some (reason verdict)))

theorem giveBack_yields (ctx : Context) (fault : ProcessingFault) :
    (giveBack ctx fault).Yields (· = .passed) := by
  intro _ answer
  match answer with
  | .ok () => rfl
  | .error (.alreadySettled ..) => exact fun _ => rfl
  | .error (.queue _) => exact fun _ => rfl

theorem contain_yields (ctx : Context) (verdict : Verdict ProcessingFault) :
    (contain ctx verdict).Yields (· = .passed) := by
  cases verdict with
  | passed =>
      intro disposition
      cases disposition with
      | some _ => rfl
      | none => exact giveBack_yields ctx .unsettled
  | failed fault => exact giveBack_yields ctx fault
  | panicked text => exact giveBack_yields ctx _

/-- Giving back what is claimed already is refused, so it comes to nothing. -/
theorem giveBack_elaborates_abandon (st : Settlement) (ctx : Context)
    (verdict : Verdict ProcessingFault) :
    Elaborates st (giveBack ctx (reason verdict)) (abandonUnsettled verdict) := by
  apply (giveBack_elaborates st ctx (reason verdict)).trans
  refine .disposition_right ?_
  obtain ⟨_ | first⟩ := st
  · exact .refl _ _
  · exact .refused_left (.refl _ _)

theorem contain_elaborates (st : Settlement) (ctx : Context) (verdict : Verdict ProcessingFault) :
    Elaborates st (contain ctx verdict) (abandonUnsettled verdict) := by
  cases verdict with
  | passed =>
      refine .disposition_left ?_
      obtain ⟨_ | first⟩ := st
      · exact giveBack_elaborates_abandon _ ctx .passed
      · exact .disposition_right (.refl _ _)
  | failed fault => exact giveBack_elaborates_abandon st ctx (.failed fault)
  | panicked text => exact giveBack_elaborates_abandon st ctx (.panicked text)

variable {st st' : Settlement} {ctx : Context} {verdict result : Verdict ProcessingFault}
  {events : List Event}

theorem abandonUnsettled_ends (h : Ends (abandonUnsettled verdict) st events st' result) :
    st'.claimed = some (st.claimed.getD (.abandon (some (reason verdict)))) := by
  have answered := Program.ends_disposition.mp h
  obtain ⟨_ | first⟩ := st
  · obtain ⟨answer, after, _, done⟩ := Program.ends_settle_first.mp answered
    obtain ⟨_, rfl, _⟩ := Program.ends_done.mp done
    rfl
  · obtain ⟨_, rfl, _⟩ := Program.ends_done.mp answered
    rfl

/-- What was claimed stays claimed; what was not is abandoned for the way in which it came out. -/
theorem contain_ends (h : Ends (contain ctx verdict) st events st' result) :
    st'.claimed = some (st.claimed.getD (.abandon (some (reason verdict)))) := by
  obtain ⟨plain, ends, _⟩ := (contain_elaborates st ctx verdict).down h
  exact abandonUnsettled_ends ends

/-- The containing stage comes to an end whatever it finds. -/
theorem exists_contain_ends (st : Settlement) (ctx : Context)
    (verdict : Verdict ProcessingFault) :
    ∃ events st' result, Ends (contain ctx verdict) st events st' result := by
  have plain : ∃ events st' result, Ends (abandonUnsettled verdict) st events st' result := by
    obtain ⟨_ | first⟩ := st
    · exact ⟨_, _, _, Program.ends_disposition.mpr
        (Program.ends_settle_first.mpr ⟨.ok (), [], rfl, .refl _ _⟩)⟩
    · exact ⟨_, _, _, Program.ends_disposition.mpr (.refl _ _)⟩
  obtain ⟨events, st', result, ends⟩ := plain
  obtain ⟨events, ends, _⟩ := (contain_elaborates st ctx verdict).up ends
  exact ⟨events, st', result, ends⟩

end Stage

/-- The service that the containing stage is put around: a receiver's own stages around its
processor, and the other standard stages around them. -/
def contained (gate : Nat) (own : List Stage) (p : Processor) (ctx : Context) : Service :=
  compose (own ++ [Stage.throttle gate, Stage.limitDeliveries, Stage.instrument]) ctx
    (p.service ctx)

theorem handle_eq_contained (gate : Nat) (own : List Stage) (p : Processor) (ctx : Context) :
    handle gate own p ctx = (contained gate own p ctx).bind (Stage.contain ctx) := by
  have split : own ++ standardStages gate =
      (own ++ [Stage.throttle gate, Stage.limitDeliveries, Stage.instrument]) ++
        [Stage.containFaults] := by
    simp [standardStages]
  rw [handle, split, compose_append]
  exact Stage.containFaults_eq ctx _

/-- Whatever the receiver's own stages and the processor do, and whatever gate, registry and queue
answer, handling a delivery comes to an end on every course, and always passes: no fault and no
panic gets out. By then the settlement is claimed once, and one settlement has reached the queue. If
the inside had claimed it, that claim stands and nothing reaches the queue after the inside has
ended; if not, the delivery is abandoned with the fault of the inside, or as unsettled if the inside
has passed. However the inside ends, handling goes on from there to its end. Where a delivery is
handled to the end at some site, what happens there is such a run. -/
theorem handle_settles_once (gate : Nat) (own : List Stage) (p : Processor) (ctx : Context) :
    (∀ course, course 0 = handle gate own p ctx → Program.IsCourse course →
      ∃ n, course n = .done .passed) ∧
    (∀ events st verdict, Ends (handle gate own p ctx) {} events st verdict →
      verdict = .passed ∧
      ∃ how, st.claimed = some how ∧ events.filterMap Event.settling? = [how] ∧
        ∃ inside result claimed outside,
          Ends (contained gate own p ctx) {} inside claimed result ∧ events = inside ++ outside ∧
          match claimed.claimed with
          | some first => how = first ∧ outside.filterMap Event.settling? = []
          | none => how = .abandon (some (Stage.reason result))) ∧
    (∀ inside claimed result, Ends (contained gate own p ctx) {} inside claimed result →
      ∃ outside st, Ends (handle gate own p ctx) {} (inside ++ outside) st .passed) ∧
    ∀ cancelAt fuel s s' verdict, s.handling.settlement = {} →
      Rehearsal.run cancelAt fuel s (handle gate own p ctx) = (s', some verdict) →
      Ends (handle gate own p ctx) {}
        (Rehearsal.events cancelAt fuel s (handle gate own p ctx)) s'.handling.settlement
        verdict := by
  have yields : (handle gate own p ctx).Yields (· = .passed) := by
    rw [handle_eq_contained]
    exact Program.yields_bind (Stage.contain_yields ctx) _
  have passes {events st verdict} (h : Ends (handle gate own p ctx) {} events st verdict) :
      verdict = .passed :=
    yields.runs h
  refine ⟨?course, ?settled, ?goes_on, ?site⟩
  case course =>
    intro course start is_course
    obtain ⟨n, _, done, rfl⟩ := yields.course_ends start is_course
    exact ⟨n, done⟩
  case settled =>
    intro events st verdict h
    refine ⟨passes h, ?_⟩
    rw [handle_eq_contained] at h
    obtain ⟨inside, result, claimed, outside, within, after, rfl⟩ := Program.ends_bind.mp h
    have claim := Stage.contain_ends after
    have once : (inside ++ outside).filterMap Event.settling? = st.claimed.toList := by
      simpa using h.claims
    refine ⟨_, claim, by simpa [claim] using once, inside, result, claimed, outside, within, rfl,
      ?_⟩
    cases inner_claim : claimed.claimed with
    | none => rfl
    | some first =>
        have settled_inside : inside.filterMap Event.settling? = [first] := by
          simpa [inner_claim] using within.claims
        rw [List.filterMap_append, settled_inside, claim, inner_claim] at once
        exact ⟨rfl, by simpa using once⟩
  case goes_on =>
    intro inside claimed result within
    obtain ⟨outside, st, verdict, after⟩ := Stage.exists_contain_ends claimed ctx result
    have whole : Ends (handle gate own p ctx) {} (inside ++ outside) st verdict := by
      rw [handle_eq_contained]
      exact Program.ends_bind.mpr ⟨_, _, _, _, within, after, rfl⟩
    exact ⟨outside, st, passes whole ▸ whole⟩
  case site =>
    intro cancelAt fuel s s' verdict unsettled h
    exact unsettled ▸ Rehearsal.run_ends h

end Courier
