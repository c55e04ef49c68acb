import Courier.Bench.Script
import Courier.Proofs.Handling.Footprint
import Courier.Proofs.Handling.Plain

/-!
# Why a delivery is completed or dead-lettered

However far the handling of a delivery has come, it has been handed to its processor only within its
limit; it has been completed only by the processor or after the processor passed; and it has been
dead-lettered only by the processor or because it was past its limit.

Most of what the stages do is quiet: it neither hands the delivery on nor completes or dead-letters
it. A program that encloses another adds quiet events before and after, so the stages can be taken
off one by one until only the processor is left.
-/

namespace Courier

open Program (perform Runs Ends)

namespace Event

/-- Whether an event neither hands the delivery to the processor nor completes or dead-letters it.
-/
def isQuiet : Event → Bool
  | .settled .complete _ => false
  | .settled (.deadLetter _) _ => false
  | .called .invoke _ => false
  | _ => true

theorem not_invoke_of_isQuiet {e : Event} (quiet : e.isQuiet = true) : e.isInvoke = false := by
  cases e with
  | called e answer => cases e <;> first | rfl | simp [isQuiet] at quiet
  | _ => rfl

end Event

namespace Effect

/-- Whether a call is to a gate. -/
def isGate : Effect → Bool
  | .request _ => true
  | .enter .. => true
  | .leave .. => true
  | _ => false

/-- Whether a call hands the delivery to the processor. -/
def isInvoke : Effect → Bool
  | .invoke => true
  | _ => false

end Effect

namespace Program

variable {α β γ : Type}

/-- A program that only makes quiet events, whatever it is answered. -/
structure Quiet (x : Program α) : Prop where
  events : ∀ {st events st' y}, Runs x st events st' y → ∀ e ∈ events, e.isQuiet = true

theorem quiet_done (a : α) : Quiet (.done a) := by
  constructor
  intro st events st' y h
  cases h
  simp

theorem quiet_call {e : Effect} (outside : e.isOwn = false) {rest : e.Answer → Program α}
    (quiet : ∀ answer, (Event.called e answer).isQuiet = true)
    (after : ∀ answer, Quiet (rest answer)) : Quiet (.call e rest) := by
  constructor
  intro st events st' y h
  cases h with
  | refl => simp
  | refused => simp [Effect.isOwn] at outside
  | settled => simp [Effect.isOwn] at outside
  | disposition => simp [Effect.isOwn] at outside
  | called answer _ h => exact List.forall_mem_cons.mpr ⟨quiet answer, (after answer).events h⟩

theorem quiet_disposition {rest : Option Disposition → Program α}
    (after : ∀ answer, Quiet (rest answer)) : Quiet (.call .disposition rest) := by
  constructor
  intro st events st' y h
  cases h with
  | refl => simp
  | disposition h => exact (after _).events h
  | called _ outside _ => simp [Effect.isOwn] at outside

theorem quiet_abandon {fault : Option ProcessingFault}
    {rest : Except SettlementFault Unit → Program α} (after : ∀ answer, Quiet (rest answer)) :
    Quiet (.call (.settle (.abandon fault)) rest) := by
  constructor
  intro st events st' y h
  cases h with
  | refl => simp
  | refused _ h => exact (after _).events h
  | settled answer _ h => exact List.forall_mem_cons.mpr ⟨rfl, (after _).events h⟩
  | called _ outside _ => simp [Effect.isOwn] at outside

/-- All events of the first program that are not quiet are events of the second. -/
structure Encloses (x : Program α) (inner : Program β) : Prop where
  split : ∀ {events st y}, Runs x {} events st y →
    (∀ e ∈ events, e.isQuiet = true) ∨ ∃ before within after st' z,
      events = before ++ within ++ after ∧ (∀ e ∈ before, e.isQuiet = true) ∧
        (∀ e ∈ after, e.isQuiet = true) ∧ Runs inner {} within st' z

namespace Encloses

variable {x : Program α} {y : Program β} {z : Program γ}

theorem refl (x : Program α) : Encloses x x := by
  constructor
  intro events st y h
  exact .inr ⟨[], events, [], st, y, by simp, by simp, by simp, h⟩

theorem of_quiet (quiet : Quiet x) : Encloses x y :=
  ⟨fun h => .inl (quiet.events h)⟩

theorem trans (first : Encloses x y) (second : Encloses y z) : Encloses x z := by
  constructor
  intro events st w h
  obtain quiet | ⟨before, within, after, st', w', rfl, quiet, quiet', h⟩ := first.split h
  · exact .inl quiet
  · obtain quiet'' | ⟨before', within', after', st'', w'', rfl, quiet₁, quiet₂, h⟩ := second.split h
    · refine .inl (List.forall_mem_append.mpr ⟨?_, quiet'⟩)
      exact List.forall_mem_append.mpr ⟨quiet, quiet''⟩
    · refine .inr ⟨before ++ before', within', after' ++ after, st'', w'', by simp, ?_, ?_, h⟩
      · exact List.forall_mem_append.mpr ⟨quiet, quiet₁⟩
      · exact List.forall_mem_append.mpr ⟨quiet₂, quiet'⟩

/-- What follows quietly is enclosing. -/
theorem bind {f : α → Program β} (quiet : ∀ a, Quiet (f a)) : Encloses (x.bind f) x := by
  constructor
  intro events st w h
  obtain ⟨w', within, rfl⟩ | ⟨first, a, st₁, second, ends, after, rfl⟩ := h.of_bind
  · exact .inr ⟨[], events, [], st, w', by simp, by simp, by simp, within⟩
  · exact .inr ⟨[], first, second, st₁, .done a, by simp, by simp, (quiet a).events after, ends⟩

theorem call {e : Effect} (outside : e.isOwn = false) {rest : e.Answer → Program α}
    (quiet : ∀ answer, (Event.called e answer).isQuiet = true)
    (after : ∀ answer, Encloses (rest answer) y) : Encloses (.call e rest) y := by
  constructor
  intro events st w h
  cases h with
  | refl => exact .inl (by simp)
  | refused => simp [Effect.isOwn] at outside
  | settled => simp [Effect.isOwn] at outside
  | disposition => simp [Effect.isOwn] at outside
  | called answer _ h =>
      obtain still | ⟨before, within, later, st', w', rfl, quiet₁, quiet₂, h⟩ :=
        (after answer).split h
      · exact .inl (List.forall_mem_cons.mpr ⟨quiet answer, still⟩)
      · exact .inr ⟨_ :: before, within, later, st', w', rfl,
          List.forall_mem_cons.mpr ⟨quiet answer, quiet₁⟩, quiet₂, h⟩

theorem await (p : Pause) (after : Encloses x y) : Encloses (.await p x) y := by
  constructor
  intro events st w h
  cases h with
  | refl => exact .inl (by simp)
  | waited h =>
      obtain still | ⟨before, within, later, st', w', rfl, quiet₁, quiet₂, h⟩ :=
        after.split h
      · exact .inl (List.forall_mem_cons.mpr ⟨rfl, still⟩)
      · exact .inr ⟨_ :: before, within, later, st', w', rfl,
          List.forall_mem_cons.mpr ⟨rfl, quiet₁⟩, quiet₂, h⟩

end Encloses

end Program

open Program (Quiet Encloses)

/-! ## The standard stages -/

namespace Stage

theorem giveBack_quiet (ctx : Context) (fault : ProcessingFault) : Quiet (giveBack ctx fault) := by
  refine Program.quiet_call rfl (fun _ => rfl) fun _ => Program.quiet_abandon fun answer => ?_
  match answer with
  | .ok () => exact Program.quiet_done _
  | .error (.alreadySettled _ _) =>
      exact Program.quiet_call rfl (fun _ => rfl) fun _ => Program.quiet_done _
  | .error (.queue _) =>
      exact Program.quiet_call rfl (fun _ => rfl) fun _ => Program.quiet_done _

theorem contain_quiet (ctx : Context) (verdict : Verdict ProcessingFault) :
    Quiet (contain ctx verdict) := by
  cases verdict with
  | failed fault => exact giveBack_quiet ctx fault
  | panicked text => exact giveBack_quiet ctx _
  | passed =>
      apply Program.quiet_disposition
      intro disposition
      cases disposition with
      | some _ => exact Program.quiet_done _
      | none => exact giveBack_quiet ctx _

theorem tell_quiet (ctx : Context) (id : String) (verdict : Verdict ProcessingFault) :
    Quiet (tell ctx id verdict) := by
  have counted (word : String) : Quiet (do
      perform (.note (.handled word))
      perform (.count (.handled ctx.receiver word))
      perform (.count (.handlingTime ctx.receiver))
      perform (.span ⟨ctx.receiver, ctx.messageId, ctx.count, id, some word⟩)
      return verdict : Service) := by
    refine Program.quiet_call rfl (fun _ => rfl) fun _ => ?_
    refine Program.quiet_call rfl (fun _ => rfl) fun _ => ?_
    refine Program.quiet_call rfl (fun _ => rfl) fun _ => ?_
    exact Program.quiet_call rfl (fun _ => rfl) fun _ => Program.quiet_done _
  cases verdict with
  | panicked text => exact Program.quiet_call rfl (fun _ => rfl) fun _ => Program.quiet_done _
  | passed | failed fault => exact Program.quiet_disposition fun _ => counted _

/-- Containing faults and telling of the handling add nothing that is not quiet. -/
theorem outer_encloses (ctx : Context) (inner : Service) :
    Encloses (containFaults ctx (instrument ctx inner)) inner := by
  have told (id : String) : Encloses (inner.bind (tell ctx id)) inner :=
    .bind (tell_quiet ctx id)
  rw [containFaults_eq, instrument_eq]
  apply Encloses.trans (.bind (contain_quiet ctx))
  refine .call rfl (fun _ => rfl) ?_
  intro present
  cases present with
  | some id => exact told id
  | none => exact .call rfl (fun _ => rfl) fun _ => told ctx.messageId

/-- Admission adds nothing that is not quiet. -/
theorem throttle_encloses (gate : Nat) (ctx : Context) (inner : Service) :
    Encloses (throttle gate ctx inner) inner := by
  have held (ticket : Nat) : Encloses (whileHolding gate ticket inner) inner :=
    .bind fun _ => Program.quiet_call rfl (fun _ => rfl) fun _ => Program.quiet_done _
  refine .call rfl (fun _ => rfl) ?_
  intro cancelled
  cases cancelled with
  | true => exact .of_quiet (Program.quiet_done _)
  | false =>
      refine .call rfl (fun _ => rfl) ?_
      intro entry
      cases entry with
      | refused => exact .of_quiet (Program.quiet_done _)
      | admitted ticket => exact held ticket
      | queued ticket =>
          refine .await _ (.call rfl (fun _ => rfl) fun answer => ?_)
          cases answer with
          | error f => exact .of_quiet (Program.quiet_done _)
          | ok _ => exact held ticket

end Stage

/-! ## The processor -/

namespace Processor

/-- By some events the processor was handed the delivery, once, and then did what is its own, by
which it got to some program. -/
def Did (p : Processor) (ctx : Context) (events own : List Event)
    (y : Program (Verdict Cause)) : Prop :=
  ∃ before after st, events = before ++ .called .invoke () :: (own ++ after) ∧
    (∀ e ∈ before ++ after, e.isInvoke = false) ∧ Runs (p ctx) {} own st y

theorem Did.enclosed {p : Processor} {ctx : Context} {events own : List Event}
    {y : Program (Verdict Cause)} (did : p.Did ctx events own y) {before after : List Event}
    (quiet : ∀ e ∈ before, e.isQuiet = true) (quiet' : ∀ e ∈ after, e.isQuiet = true) :
    p.Did ctx (before ++ events ++ after) own y := by
  obtain ⟨before', after', st, rfl, once, h⟩ := did
  refine ⟨before ++ before', after' ++ after, st, by simp, ?_, h⟩
  intro e he
  obtain (he | he) | he | he := (List.mem_append.mp he).imp List.mem_append.mp List.mem_append.mp
  · exact Event.not_invoke_of_isQuiet (quiet e he)
  · exact once e (List.mem_append_left _ he)
  · exact once e (List.mem_append_right _ he)
  · exact Event.not_invoke_of_isQuiet (quiet' e he)

/-- A processor that keeps to its own: it calls no gate and hands no delivery over. -/
def Modest (p : Processor) : Prop :=
  ∀ ctx, (p ctx).Only fun e => e.isGate = false ∧ e.isInvoke = false

/-- A modest processor is handed a delivery once. -/
theorem Did.once {p : Processor} (modest : p.Modest) {ctx : Context} {events own : List Event}
    {y : Program (Verdict Cause)} (did : p.Did ctx events own y) :
    (events.filter Event.isInvoke).length = 1 := by
  obtain ⟨before, after, st, rfl, once, h⟩ := did
  have mine : ∀ e ∈ own, e.isInvoke = false := by
    intro e he
    cases e with
    | called e answer =>
        have aside := ((modest ctx).called h he).2
        cases e <;> first | rfl | simp [Effect.isInvoke] at aside
    | _ => rfl
  have none {l : List Event} (silent : ∀ e ∈ l, e.isInvoke = false) :
      l.filter Event.isInvoke = [] :=
    List.filter_eq_nil_iff.mpr fun e he => by simp [silent e he]
  rw [List.forall_mem_append] at once
  have here : (Event.called .invoke ()).isInvoke = true := rfl
  rw [List.filter_append, List.filter_cons_of_pos here, List.filter_append, none once.1,
    none once.2, none mine]
  rfl

theorem complete_runs {verdict : Verdict ProcessingFault} {st st' : Settlement}
    {events : List Event} {y : Service} (h : Runs (complete verdict) st events st' y) :
    ∀ e ∈ events, verdict = .passed ∧ ∃ answer, e = .settled .complete answer := by
  cases verdict with
  | failed fault | panicked text =>
      cases h
      simp
  | passed =>
      cases h with
      | refl => simp
      | called _ outside _ => simp [Effect.isOwn] at outside
      | disposition h =>
          obtain ⟨_ | first⟩ := st
          · cases h with
            | refl => simp
            | refused claim _ => simp at claim
            | called _ outside _ => simp [Effect.isOwn] at outside
            | settled answer _ h =>
                cases answer <;> cases h <;> simp
          · cases h
            simp

/-- A processor with what comes before and after it: unless nothing of note has happened, it was
handed the delivery, and what it has not settled itself is completed only after it has passed. -/
theorem service_runs {p : Processor} {ctx : Context} {st : Settlement} {events : List Event}
    {y : Service} (h : Runs (p.service ctx) {} events st y) :
    (∀ e ∈ events, e.isQuiet = true) ∨ ∃ resolved own after st' z,
      events = .called .resolve resolved :: .called .invoke () :: (own ++ after) ∧
        Runs (p ctx) {} own st' z ∧
        ∀ e ∈ after, z = .done .passed ∧ ∃ answer, e = .settled .complete answer := by
  rw [service_eq] at h
  cases h with
  | refl => exact .inl (by simp)
  | called resolved _ h =>
      cases resolved with
      | error f =>
          cases h
          exact .inl (by simp [Event.isQuiet])
      | ok _ =>
          cases h with
          | refl => exact .inl (by simp [Event.isQuiet])
          | called _ _ h =>
              change Runs (((p ctx).bind fun verdict => .done (verdict.mapFault .processor)).bind
                complete) _ _ _ _ at h
              rw [Program.bind_assoc] at h
              obtain ⟨z, h, _⟩ | ⟨own, verdict, st₁, after, ends, finish, rfl⟩ := Runs.of_bind h
              · exact .inr ⟨_, _, [], st, z, by rw [List.append_nil], h, by simp⟩
              · refine .inr ⟨_, own, after, st₁, .done verdict, rfl, ends, ?_⟩
                intro e he
                obtain ⟨passed, answer⟩ := complete_runs finish e he
                cases verdict with
                | passed => exact ⟨rfl, answer⟩
                | failed cause | panicked text => simp [Verdict.mapFault] at passed

end Processor

/-- What the events of handling a delivery can be: quiet ones, the end of a delivery past its limit,
or, within the limit, the doings of the processor and a completion after it has passed. -/
inductive Justified (p : Processor) (ctx : Context) (events : List Event) : Prop where
  | quiet : (∀ e ∈ events, e.isQuiet = true) → Justified p ctx events
  | overLimit :
      ctx.limit < ctx.count →
      (∀ e ∈ events, e.isQuiet = true ∨
        ∃ answer, e = .settled (.deadLetter (Stage.limitReason ctx.count ctx.limit)) answer) →
      Justified p ctx events
  | processed {own : List Event} {z : Program (Verdict Cause)} :
      ctx.count ≤ ctx.limit → p.Did ctx events own z →
      (∀ e ∈ events, e.isQuiet = true ∨ e = .called .invoke () ∨ e ∈ own ∨
        z = .done .passed ∧ ∃ answer, e = .settled .complete answer) →
      Justified p ctx events

namespace Stage

theorem limitDeliveries_of_le {ctx : Context} (enough : ctx.count ≤ ctx.limit) (inner : Service) :
    limitDeliveries ctx inner = inner :=
  if_pos enough

theorem limitDeliveries_of_gt {ctx : Context} (beyond : ¬ctx.count ≤ ctx.limit) (inner : Service) :
    limitDeliveries ctx inner = (do
      perform (.note (.overDelivered ctx.receiver ctx.messageId ctx.count ctx.limit))
      perform (.count (.deadLettered ctx.receiver))
      Service.settling (.deadLetter (limitReason ctx.count ctx.limit))) :=
  if_neg beyond

/-- Giving up a delivery past its limit. -/
theorem giveUp_runs {ctx : Context} {st : Settlement} {events : List Event} {inner y : Service}
    (beyond : ¬ctx.count ≤ ctx.limit) (h : Runs (limitDeliveries ctx inner) {} events st y) :
    ∀ e ∈ events, e.isQuiet = true ∨
      ∃ answer, e = .settled (.deadLetter (limitReason ctx.count ctx.limit)) answer := by
  rw [limitDeliveries_of_gt beyond] at h
  cases h with
  | refl => simp
  | called _ _ h =>
      refine List.forall_mem_cons.mpr ⟨.inl rfl, ?_⟩
      cases h with
      | refl => simp
      | called _ _ h =>
          refine List.forall_mem_cons.mpr ⟨.inl rfl, ?_⟩
          cases h with
          | refl => simp
          | refused claim _ => simp at claim
          | called _ outside _ => simp [Effect.isOwn] at outside
          | settled answer _ h =>
              refine List.forall_mem_cons.mpr ⟨.inr ⟨answer, rfl⟩, ?_⟩
              cases answer <;> cases h <;> simp

end Stage

/-- Within its limit, all that is not quiet in the handling of a delivery is around the processor.
-/
theorem handle_encloses {ctx : Context} (enough : ctx.count ≤ ctx.limit) (gate : Nat)
    (p : Processor) : Encloses (handle gate [] p ctx) (p.service ctx) := by
  have inner := Stage.throttle_encloses gate ctx (p.service ctx)
  rw [← Stage.limitDeliveries_of_le enough (Stage.throttle gate ctx (p.service ctx))] at inner
  exact (Stage.outer_encloses ctx _).trans inner

/-- However far the handling of a delivery has come, it is justified. -/
theorem handle_justified {gate : Nat} {p : Processor} {ctx : Context} {events : List Event}
    {st : Settlement} {y : Service} (h : Runs (handle gate [] p ctx) {} events st y) :
    Justified p ctx events := by
  by_cases enough : ctx.count ≤ ctx.limit
  · obtain quiet | ⟨before, _, after, st', z, rfl, quiet₁, quiet₂, h⟩ :=
      (handle_encloses enough gate p).split h
    · exact .quiet quiet
    · obtain quiet | ⟨resolved, own, later, st'', z', rfl, runs, completion⟩ :=
        Processor.service_runs h
      · refine .quiet (List.forall_mem_append.mpr ⟨?_, quiet₂⟩)
        exact List.forall_mem_append.mpr ⟨quiet₁, quiet⟩
      · have did : p.Did ctx (.called .resolve resolved :: .called .invoke () :: (own ++ later))
            own z' := by
          refine ⟨[.called .resolve resolved], later, st'', rfl, ?_, runs⟩
          intro e he
          obtain rfl | he := List.mem_cons.mp he
          · rfl
          · obtain ⟨_, _, rfl⟩ := completion e he
            rfl
        refine .processed enough (did.enclosed quiet₁ quiet₂) ?_
        intro e he
        simp only [List.mem_append, List.mem_cons] at he
        obtain (he | rfl | rfl | he | he) | he := he
        · exact .inl (quiet₁ e he)
        · exact .inl rfl
        · exact .inr (.inl rfl)
        · exact .inr (.inr (.inl he))
        · exact .inr (.inr (.inr (completion e he)))
        · exact .inl (quiet₂ e he)
  · obtain quiet | ⟨before, within, after, st', z, rfl, quiet₁, quiet₂, h⟩ :=
      (Stage.outer_encloses ctx _).split h
    · exact .quiet quiet
    · refine .overLimit (UInt32.not_le.mp enough) ?_
      intro e he
      rw [List.append_assoc, List.mem_append, List.mem_append] at he
      obtain he | he | he := he
      · exact .inl (quiet₁ e he)
      · exact Stage.giveUp_runs enough h e he
      · exact .inl (quiet₂ e he)

namespace Justified

variable {p : Processor} {ctx : Context} {events : List Event}

/-- Only a delivery within its limit is handed to the processor. -/
theorem invoked (h : Justified p ctx events) (invoked : .called .invoke () ∈ events) :
    ctx.count ≤ ctx.limit := by
  cases h with
  | quiet quiet => simpa [Event.isQuiet] using quiet _ invoked
  | overLimit beyond each => simpa [Event.isQuiet] using each _ invoked
  | processed enough _ _ => exact enough

/-- Only the processor completes, or it has passed. -/
theorem completed (h : Justified p ctx events) {answer : Except QueueFault Unit}
    (completed : .settled .complete answer ∈ events) :
    ∃ own z, p.Did ctx events own z ∧ (.settled .complete answer ∈ own ∨ z = .done .passed) := by
  cases h with
  | quiet quiet => simpa [Event.isQuiet] using quiet _ completed
  | overLimit beyond each => simpa [Event.isQuiet] using each _ completed
  | processed _ did each =>
      obtain quiet | invoked | mem | passed := each _ completed
      · simp [Event.isQuiet] at quiet
      · simp at invoked
      · exact ⟨_, _, did, .inl mem⟩
      · exact ⟨_, _, did, .inr passed.1⟩

/-- Only the processor dead-letters, or the delivery is past its limit. -/
theorem deadLettered (h : Justified p ctx events) {reason : String}
    {answer : Except QueueFault Unit} (lettered : .settled (.deadLetter reason) answer ∈ events) :
    (ctx.limit < ctx.count ∧ reason = Stage.limitReason ctx.count ctx.limit) ∨
      ∃ own z, p.Did ctx events own z ∧ .settled (.deadLetter reason) answer ∈ own := by
  cases h with
  | quiet quiet => simpa [Event.isQuiet] using quiet _ lettered
  | overLimit beyond each =>
      obtain quiet | ⟨_, same⟩ := each _ lettered
      · simp [Event.isQuiet] at quiet
      · rw [Event.settled.injEq, Settling.deadLetter.injEq] at same
        exact .inl ⟨beyond, same.1⟩
  | processed _ did each =>
      obtain quiet | invoked | mem | ⟨_, _, same⟩ := each _ lettered
      · simp [Event.isQuiet] at quiet
      · simp at invoked
      · exact .inr ⟨_, _, did, mem⟩
      · simp at same

end Justified

/-! ## Scripted processors -/

theorem Script.Step.run_modest (step : Script.Step) :
    step.run.Only fun e => e.isGate = false ∧ e.isInvoke = false := by
  cases step with
  | fail cause | panic text => trivial
  | settle how strict =>
      refine ⟨⟨rfl, rfl⟩, fun answer => ⟨⟨rfl, rfl⟩, fun _ => ?_⟩⟩
      cases answer <;> trivial
  | sleep period | cancel | failSettlements on | waitCancelled =>
      exact ⟨⟨rfl, rfl⟩, fun _ => trivial⟩
  | _ => exact ⟨⟨rfl, rfl⟩, fun _ => ⟨⟨rfl, rfl⟩, fun _ => trivial⟩⟩

/-- Processors that go through scripts are modest. -/
theorem Scripts.processor_modest (s : Scripts) : s.processor.Modest := by
  have steps (script : List Script.Step) :
      (Script.run script).Only fun e => e.isGate = false ∧ e.isInvoke = false := by
    induction script with
    | nil => trivial
    | cons step rest ih =>
        apply step.run_modest.bind
        intro verdict
        cases verdict with
        | some verdict => trivial
        | none => exact ih
  intro ctx
  refine ⟨⟨rfl, rfl⟩, fun _ => (steps _).bind ?_⟩
  intro verdict
  cases verdict with
  | passed | failed cause => exact ⟨⟨rfl, rfl⟩, fun _ => trivial⟩
  | panicked text => trivial

end Courier
