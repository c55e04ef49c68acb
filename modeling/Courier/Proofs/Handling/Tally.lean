import Courier.Proofs.Handling.Passage

/-!
# What a handling counts

The instrumenting stage counts how a handling came out: one stroke for the receiver under one of
five words. It stands inside of the stage that contains faults and outside of all that can fail,
settle or end early, so every verdict passes it, and its word is read off the verdict and off how
the settlement was claimed by then (`strokes`).

A panic is a verdict as well, but the stage lets it pass without a stroke. So a handling that has
come to its end has counted exactly once if what is inside came to a verdict of its own, and not at
all if it broke off (`Came.counted`). Nothing that is called apart from this counts, provided that
the receiver's own stages and the processor leave these counts alone.
-/

namespace Courier

open Program (perform Runs Ends ends_bind)

/-! ## Strokes -/

namespace Event

/-- The outcome that an event counts for a receiver, if it counts one. -/
def outcome? (name : String) : Event → Option String
  | .called (.count (.handled receiver word)) _ => if receiver = name then some word else none
  | _ => none

end Event

/-- The outcomes that some events count for a receiver. -/
def outcomes (name : String) (events : List Event) : List String :=
  events.filterMap (Event.outcome? name)

@[simp] theorem outcomes_append (name : String) (events more : List Event) :
    outcomes name (events ++ more) = outcomes name events ++ outcomes name more :=
  List.filterMap_append

/-- A call that counts no outcome for a receiver. -/
def Effect.Leaves (name : String) (e : Effect) : Prop := ∀ word, e ≠ .count (.handled name word)

/-- A stage that counts no outcome itself, around whatever does not. -/
def Stage.Discreet (name : String) (stage : Stage) : Prop :=
  ∀ ctx x, Program.Only (Effect.Leaves name) x → (stage ctx x).Only (Effect.Leaves name)

/-- A processor that counts no outcome itself. -/
def Processor.Discreet (name : String) (p : Processor) : Prop :=
  ∀ ctx, (p ctx).Only (Effect.Leaves name)

/-- The words for how a handling can come out. -/
def outcomeWords : List String :=
  ["completed", "abandoned", "dead_lettered", "failed", "unsettled"]

/-- What is counted of what came to a verdict, with the settlement claimed in some way. -/
def strokes : Verdict ProcessingFault → Settlement → List String
  | .panicked _, _ => []
  | verdict, claimed => [Stage.outcome verdict claimed.disposition]

section

variable {verdict : Verdict ProcessingFault} {claimed : Settlement}

theorem strokes_length_le (verdict : Verdict ProcessingFault) (claimed : Settlement) :
    (strokes verdict claimed).length ≤ 1 := by
  cases verdict <;> simp [strokes]

theorem strokes_eq_nil : strokes verdict claimed = [] ↔ ∃ text, verdict = .panicked text := by
  cases verdict <;> simp [strokes]

theorem outcome_mem_outcomeWords (verdict : Verdict ProcessingFault)
    (disposition : Option Disposition) : Stage.outcome verdict disposition ∈ outcomeWords := by
  cases verdict with
  | failed fault => simp [Stage.outcome, outcomeWords]
  | panicked text => simp [Stage.outcome, outcomeWords]
  | passed =>
      cases disposition with
      | none => simp [Stage.outcome, outcomeWords]
      | some d => cases d <;> simp [Stage.outcome, outcomeWords, Disposition.label]

theorem strokes_subset (verdict : Verdict ProcessingFault) (claimed : Settlement) :
    ∀ word ∈ strokes verdict claimed, word ∈ outcomeWords := by
  intro word mem
  cases verdict with
  | panicked text => cases mem
  | passed | failed fault =>
      rw [List.mem_singleton.mp mem]
      exact outcome_mem_outcomeWords _ _

end

namespace Program

variable {α : Type} {name : String}

/-- Where nothing is called that counts, nothing is counted. -/
theorem Only.uncounted {x y : Program α} (h : x.Only (Effect.Leaves name)) {st st' : Settlement}
    {events : List Event} (runs : Runs x st events st' y) : outcomes name events = [] := by
  apply List.filterMap_eq_nil_iff.mpr
  intro event mem
  unfold Event.outcome?
  split
  · rename_i receiver word answer
    split
    · rename_i mine
      exact absurd (congrArg _ (mine ▸ rfl)) (h.called runs mem word)
    · rfl
  · rfl

end Program

/-! ## The stages -/

namespace Stage

variable {name : String} {ctx : Context} {x : Service}

theorem whileHolding_leaves (h : x.Only (Effect.Leaves name)) (gate ticket : Nat) :
    (whileHolding gate ticket x).Only (Effect.Leaves name) :=
  h.bind fun _ => ⟨nofun, fun _ => trivial⟩

theorem throttle_leaves (h : x.Only (Effect.Leaves name)) :
    (throttle 0 ctx x).Only (Effect.Leaves name) := by
  obtain ⟨rest, throttle, refused, admitted, queued⟩ := throttle_eq ctx x
  rw [throttle]
  refine ⟨nofun, fun cancelled => ?_⟩
  cases cancelled with
  | true => trivial
  | false =>
      refine ⟨nofun, fun entry => ?_⟩
      cases entry with
      | refused =>
          rw [refused]
          trivial
      | admitted t =>
          rw [admitted]
          exact whileHolding_leaves h 0 t
      | queued t =>
          rw [queued]
          refine ⟨nofun, fun answer => ?_⟩
          cases answer with
          | error f => trivial
          | ok _ => exact whileHolding_leaves h 0 t

theorem limitDeliveries_leaves (h : x.Only (Effect.Leaves name)) :
    (limitDeliveries ctx x).Only (Effect.Leaves name) := by
  by_cases enough : ctx.count ≤ ctx.limit
  · rw [limitDeliveries_of_le enough]
    exact h
  · rw [limitDeliveries_of_gt enough]
    exact ⟨nofun, fun _ => ⟨nofun, fun _ => Service.settling_only nofun⟩⟩

theorem correlate_leaves : (correlate ctx).Only (Effect.Leaves name) := by
  refine ⟨nofun, fun answer => ?_⟩
  cases answer with
  | some id => trivial
  | none => exact ⟨nofun, fun _ => trivial⟩

theorem contain_leaves (verdict : Verdict ProcessingFault) :
    (contain ctx verdict).Only (Effect.Leaves name) :=
  contain_only (fun _ => nofun) (fun _ => nofun) nofun ctx verdict

/-- The note comes before the stroke, and all the rest after it. -/
theorem stroke_counts {word : String} {span : Span} {verdict : Verdict ProcessingFault}
    {st st' : Settlement} {events : List Event} {y : Service}
    (runs : Runs (do
      perform (.note (.handled word))
      perform (.count (.handled name word))
      perform (.count (.handlingTime name))
      perform (.span span)
      return verdict : Service) st events st' y) :
    outcomes name events = [word] ∨ outcomes name events = [] ∧ y.result? = none := by
  cases runs with
  | refl => exact .inr ⟨rfl, rfl⟩
  | called _ _ runs =>
      cases runs with
      | refl => exact .inr ⟨rfl, rfl⟩
      | called _ _ runs =>
          have rest : Program.Only (Effect.Leaves name) (do
              perform (.count (.handlingTime name))
              perform (.span span)
              return verdict : Service) := ⟨nofun, fun _ => ⟨nofun, fun _ => trivial⟩⟩
          refine .inl ?_
          have now : Event.outcome? name (.called (.count (.handled name word)) ()) = some word :=
            if_pos rfl
          rw [outcomes, List.filterMap_cons_none rfl, List.filterMap_cons_some now]
          exact congrArg _ (rest.uncounted runs)

/-- Telling of a verdict counts its strokes, and has done so when it has come to its end. -/
theorem tell_counts {id : String} {verdict : Verdict ProcessingFault} {claimed st' : Settlement}
    {events : List Event} {y : Service} (runs : Runs (tell ctx id verdict) claimed events st' y) :
    outcomes ctx.receiver events = strokes verdict claimed ∨
      outcomes ctx.receiver events = [] ∧ y.result? = none := by
  cases verdict with
  | panicked text =>
      have only : (tell ctx id (.panicked text)).Only (Effect.Leaves ctx.receiver) :=
        ⟨nofun, fun _ => trivial⟩
      exact .inl (only.uncounted runs)
  | passed | failed fault =>
      cases runs with
      | refl => exact .inr ⟨rfl, rfl⟩
      | disposition runs => exact stroke_counts runs
      | called _ own => cases own

end Stage

/-! ## Handling -/

/-- What the instrumenting stage is put around: the processor, the receiver's own stages, and the
standard stages further inside. -/
def inside (own : List Stage) (p : Processor) (ctx : Context) : Service :=
  Stage.limitDeliveries ctx (Stage.throttle 0 ctx (compose own ctx (p.service ctx)))

theorem handle_eq_inside (own : List Stage) (p : Processor) (ctx : Context) :
    handle 0 own p ctx = (Stage.correlate ctx).bind fun id =>
      (inside own p ctx).bind fun verdict =>
        (Stage.tell ctx id verdict).bind (Stage.contain ctx) := by
  rw [handle_eq_standard, Stage.containFaults_eq, Stage.instrument_eq, Program.bind_assoc]
  refine congrArg (Program.bind (Stage.correlate ctx)) (funext fun id => ?_)
  exact Program.bind_assoc (inside own p ctx) (Stage.tell ctx id) (Stage.contain ctx)

/-- A handling that has come to its end by some events. What is inside of the instrumenting stage
came to a verdict, with the settlement claimed in some way. -/
inductive Came (own : List Stage) (p : Processor) (ctx : Context) :
    List Event → Verdict ProcessingFault → Settlement → Prop where
  | ended {before within after : List Event} {st₁ claimed st' : Settlement} {id : String}
      {verdict result : Verdict ProcessingFault} : Ends (Stage.correlate ctx) {} before st₁ id →
      Ends (inside own p ctx) st₁ within claimed verdict →
      Ends ((Stage.tell ctx id verdict).bind (Stage.contain ctx)) claimed after st' result →
      Came own p ctx (before ++ (within ++ after)) verdict claimed

section

variable {own : List Stage} {p : Processor} {ctx : Context} {events : List Event}
  {verdict : Verdict ProcessingFault} {claimed : Settlement}

/-- Every handling that has come to its end has done so with a verdict from inside. -/
theorem came_of_ends {st' : Settlement} {result : Verdict ProcessingFault}
    (ends : Ends (handle 0 own p ctx) {} events st' result) :
    ∃ verdict claimed, Came own p ctx events verdict claimed := by
  rw [handle_eq_inside] at ends
  obtain ⟨before, id, st₁, rest, correlated, later, rfl⟩ := ends_bind.mp ends
  obtain ⟨within, verdict, claimed, after, inner, told, rfl⟩ := ends_bind.mp later
  exact ⟨verdict, claimed, .ended correlated inner told⟩

theorem inside_leaves {name : String} (stages : ∀ stage ∈ own, stage.Discreet name)
    (discreet : p.Discreet name) (ctx : Context) :
    (inside own p ctx).Only (Effect.Leaves name) := by
  apply Stage.limitDeliveries_leaves
  apply Stage.throttle_leaves
  apply compose_only stages
  exact Processor.service_only (discreet ctx) nofun nofun nofun fun _ => nofun

/-- A handling that has come to its end has counted the strokes of the verdict from inside, however
it came to it. -/
theorem Came.counted (came : Came own p ctx events verdict claimed)
    (stages : ∀ stage ∈ own, stage.Discreet ctx.receiver) (discreet : p.Discreet ctx.receiver) :
    outcomes ctx.receiver events = strokes verdict claimed := by
  obtain ⟨correlated, inner, ends⟩ := came
  have leaves := inside_leaves stages discreet ctx
  rw [outcomes_append, outcomes_append, Stage.correlate_leaves.uncounted correlated,
    leaves.uncounted inner, List.nil_append, List.nil_append]
  obtain ⟨told, verdict', st₂, contained, tells, contains, rfl⟩ := ends_bind.mp ends
  rw [outcomes_append, (Stage.contain_leaves verdict').uncounted contains, List.append_nil]
  obtain counted | ⟨_, going⟩ := Stage.tell_counts tells
  · exact counted
  · cases going

/-- As far as a handling has come, it has counted at most once, and under one of the five words. -/
theorem handle_counts {st' : Settlement} {y : Service}
    (stages : ∀ stage ∈ own, stage.Discreet ctx.receiver) (discreet : p.Discreet ctx.receiver)
    (runs : Runs (handle 0 own p ctx) {} events st' y) :
    outcomes ctx.receiver events = [] ∨
      ∃ verdict claimed, outcomes ctx.receiver events = strokes verdict claimed := by
  have leaves := inside_leaves stages discreet ctx
  rw [handle_eq_inside] at runs
  -- It has come as far as looking for an identifier, as what is inside, or as telling of it.
  obtain ⟨_, correlates, _⟩ | ⟨before, id, st₁, rest, correlated, later, rfl⟩ := runs.of_bind
  · exact .inl (Stage.correlate_leaves.uncounted correlates)
  rw [outcomes_append, Stage.correlate_leaves.uncounted correlated, List.nil_append]
  obtain ⟨_, inner, _⟩ | ⟨within, verdict, claimed, after, inner, last, rfl⟩ := later.of_bind
  · exact .inl (leaves.uncounted inner)
  rw [outcomes_append, leaves.uncounted inner, List.nil_append]
  have told {said : List Event} {st : Settlement} {z : Service}
      (tells : Runs (Stage.tell ctx id verdict) claimed said st z) :
      outcomes ctx.receiver said = [] ∨
        ∃ verdict claimed, outcomes ctx.receiver said = strokes verdict claimed := by
    obtain counted | ⟨none, _⟩ := Stage.tell_counts tells
    · exact .inr ⟨verdict, claimed, counted⟩
    · exact .inl none
  obtain ⟨_, tells, _⟩ | ⟨said, verdict', st₂, contained, tells, contains, rfl⟩ := last.of_bind
  · exact told tells
  rw [outcomes_append, (Stage.contain_leaves verdict').uncounted contains, List.append_nil]
  exact told tells

end

end Courier
