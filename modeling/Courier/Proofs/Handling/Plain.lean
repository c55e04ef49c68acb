import Courier.Bench.Rehearsal
import Courier.Proofs.Handling.Bookkeeping

/-!
# The plain way to handle a delivery

Without stages of its own, a receiver handles a delivery as `Plain.handle` says in one piece: a
delivery past its limit is dead-lettered; one that is not admitted is abandoned with the reason;
any other goes to its processor, and what the processor has not settled is completed or abandoned
by how it came out.

The standard stages elaborate this program. A settlement that the queue refuses inside of one stage
becomes a fault that an outer stage tries to settle again; by then the settlement is claimed, so
nothing more reaches the queue.
-/

namespace Courier

open Program (perform pause Ends Elaborates)

namespace Plain

/-- Asks for a slot and waits for it; who is cancelled before it has one gets none. -/
def admission (gate : Nat) : Program (Except GateFault Unit) := do
  if ← perform .isCancelled then return .error .cancelled
  match ← perform (.request gate) with
  | .refused => return .error .closed
  | .admitted _ => return .ok ()
  | .queued ticket =>
    pause (.slot gate ticket)
    perform (.enter gate ticket)

/-- Makes the processor and lets it handle the delivery. -/
def attempt (p : Processor) (ctx : Context) : Service := do
  match ← perform .resolve with
  | .error f => return .failed f
  | .ok () =>
    perform .invoke
    return (← p ctx).mapFault .processor

/-- How a delivery is settled that came out in some way: abandoned with exactly the fault, if there
was one. -/
def conclusion : Verdict ProcessingFault → Settling
  | .passed => .complete
  | .failed fault => .abandon (some fault)
  | .panicked text => .abandon (some (.panicked (Stage.panicText text)))

/-- Settles the delivery, whatever the queue says to it. -/
def settle (how : Settling) : Service := do
  let _ ← perform (.settle how)
  return .passed

/-- Settles the delivery as it came out, unless the settlement is claimed. -/
def conclude (verdict : Verdict ProcessingFault) : Service := do
  match ← perform .disposition with
  | some _ => return .passed
  | none => settle (conclusion verdict)

/-- The plain way to handle a delivery. -/
def handle (gate : Nat) (p : Processor) (ctx : Context) : Service := do
  if ctx.limit < ctx.count then
    settle (.deadLetter (Stage.limitReason ctx.count ctx.limit))
  else
    match ← admission gate with
    | .error f => settle (.abandon (some f.toProcessing))
    | .ok () =>
      let verdict ← attempt p ctx
      conclude verdict

end Plain

/-! ## The standard stages -/

namespace Stage

/-- What is told of a delivery once it came out. -/
def tell (ctx : Context) (correlationId : String) : Verdict ProcessingFault → Service
  | .panicked text => do
    perform (.span ⟨ctx.receiver, ctx.messageId, ctx.count, correlationId, none⟩)
    return .panicked text
  | verdict => do
    let word := outcome verdict (← perform .disposition)
    perform (.note (.handled word))
    perform (.count (.handled ctx.receiver word))
    perform (.count (.handlingTime ctx.receiver))
    perform (.span ⟨ctx.receiver, ctx.messageId, ctx.count, correlationId, some word⟩)
    return verdict

/-- What becomes of a delivery once it came out. -/
def contain (ctx : Context) : Verdict ProcessingFault → Service
  | .passed => do
    match ← perform .disposition with
    | some _ => return .passed
    | none => giveBack ctx .unsettled
  | .failed fault => giveBack ctx fault
  | .panicked text => giveBack ctx (.panicked (panicText text))

theorem instrument_eq (ctx : Context) (inner : Service) :
    instrument ctx inner = (correlate ctx).bind fun id => inner.bind (tell ctx id) := rfl

theorem containFaults_eq (ctx : Context) (inner : Service) :
    containFaults ctx inner = inner.bind (contain ctx) := rfl

theorem tell_elaborates (st : Settlement) (ctx : Context) (correlationId : String)
    (verdict : Verdict ProcessingFault) :
    Elaborates st (tell ctx correlationId verdict) (.done verdict) := by
  have counted (word : String) : Elaborates st (do
      perform (.note (.handled word))
      perform (.count (.handled ctx.receiver word))
      perform (.count (.handlingTime ctx.receiver))
      perform (.span ⟨ctx.receiver, ctx.messageId, ctx.count, correlationId, some word⟩)
      return verdict : Service) (.done verdict) := by
    refine .extra rfl (fun _ => rfl) fun _ => .extra rfl (fun _ => rfl) fun _ => ?_
    exact .extra rfl (fun _ => rfl) fun _ => .extra rfl (fun _ => rfl) fun _ => .refl _ _
  cases verdict with
  | panicked text => exact .extra rfl (fun _ => rfl) fun _ => .refl _ _
  | passed => exact .disposition_left (counted _)
  | failed fault => exact .disposition_left (counted _)

/-- Telling about a service adds bookkeeping to it. -/
theorem instrument_elaborates (st : Settlement) (ctx : Context) (inner : Service) :
    Elaborates st (instrument ctx inner) inner := by
  have told (id : String) : Elaborates st (inner.bind (tell ctx id)) inner :=
    .of_results fun st' verdict => tell_elaborates st' ctx id verdict
  rw [instrument_eq]
  refine .extra rfl (fun _ => by simp [Event.isBookkeeping]) ?_
  intro present
  cases present with
  | some id => exact told id
  | none => exact .extra rfl (fun _ => by simp [Event.isBookkeeping]) fun _ => told ctx.messageId

/-- Giving the slot back adds bookkeeping to a service. -/
theorem whileHolding_elaborates (st : Settlement) (gate ticket : Nat) (inner : Service) :
    Elaborates st (whileHolding gate ticket inner) inner :=
  .of_results fun _ _ => .extra rfl (fun _ => rfl) fun _ => .refl _ _

/-- A service behind a gate: it runs if the delivery is admitted, else the reason is the fault. -/
theorem throttle_elaborates (st : Settlement) (gate : Nat) (ctx : Context) (inner : Service) :
    Elaborates st (throttle gate ctx inner) ((Plain.admission gate).bind fun entry =>
      match entry with
      | .error f => .done (.failed f.toProcessing)
      | .ok () => inner) := by
  refine .call rfl ?_
  intro cancelled
  cases cancelled with
  | true => exact .refl _ _
  | false =>
      refine .call rfl ?_
      intro entry
      cases entry with
      | refused => exact .refl _ _
      | admitted ticket => exact whileHolding_elaborates st gate ticket inner
      | queued ticket =>
          refine .await _ (.call rfl fun answer => ?_)
          cases answer with
          | error f => exact .refl _ _
          | ok _ => exact whileHolding_elaborates st gate ticket inner

/-- Abandoning after a fault settles at most once; a refused settlement is only told. -/
theorem giveBack_elaborates (st : Settlement) (ctx : Context) (fault : ProcessingFault) :
    Elaborates st (giveBack ctx fault) (Plain.settle (.abandon (some fault))) := by
  refine .extra rfl (fun _ => rfl) fun _ => ?_
  obtain ⟨_ | first⟩ := st
  · refine .settle ?_
    intro answer
    cases answer with
    | ok _ => exact .refl _ _
    | error f => exact .extra rfl (fun _ => rfl) fun _ => .refl _ _
  · refine .refused_left (.refused_right ?_)
    exact .extra rfl (fun _ => rfl) fun _ => .refl _ _

/-- A settlement inside of the containing stage settles at most once, whatever the queue says: the
fault that a refusal makes finds the settlement claimed. -/
theorem contain_settling_elaborates (st : Settlement) (ctx : Context) (how : Settling) :
    Elaborates st ((Service.settling how).bind (contain ctx)) (Plain.settle how) := by
  obtain ⟨_ | first⟩ := st
  · refine .settle ?_
    intro answer
    cases answer with
    | ok _ => exact .disposition_left (.refl _ _)
    | error f =>
        refine (giveBack_elaborates _ ctx _).trans ?_
        exact .refused_left (.refl _ _)
  · refine .refused_left (.refused_right ?_)
    refine (giveBack_elaborates _ ctx _).trans ?_
    exact .refused_left (.refl _ _)

end Stage

namespace Processor

/-- What the processor has not settled itself is completed after it has passed. -/
def complete : Verdict ProcessingFault → Service
  | .passed => do
    match ← perform .disposition with
    | some _ => return .passed
    | none => Service.settling .complete
  | verdict => return verdict

theorem service_eq (p : Processor) (ctx : Context) :
    p.service ctx = (Plain.attempt p ctx).bind complete := by
  refine congrArg (Program.call .resolve) (funext fun answer => ?_)
  cases answer with
  | error f => rfl
  | ok _ =>
      refine congrArg (Program.call .invoke) (funext fun _ => ?_)
      refine Eq.trans ?_ (Program.bind_assoc (p ctx) _ complete).symm
      refine congrArg (Program.bind (p ctx)) (funext fun verdict => ?_)
      cases verdict <;> rfl

end Processor

namespace Plain

variable {st : Settlement} {ctx : Context}

/-- A settlement that comes too late is refused, so trying it does no harm. -/
theorem settle_elaborates_conclude (st : Settlement) (verdict : Verdict ProcessingFault) :
    Elaborates st (settle (conclusion verdict)) (conclude verdict) := by
  refine .disposition_right ?_
  obtain ⟨_ | first⟩ := st
  · exact .refl _ _
  · exact .refused_left (.refl _ _)

/-- Completing what passed, and then containing the faults, is the plain conclusion. -/
theorem complete_elaborates (st : Settlement) (ctx : Context) (verdict : Verdict ProcessingFault) :
    Elaborates st ((Processor.complete verdict).bind (Stage.contain ctx)) (conclude verdict) := by
  cases verdict with
  | failed fault =>
      exact (Stage.giveBack_elaborates st ctx fault).trans
        (settle_elaborates_conclude st (.failed fault))
  | panicked text =>
      exact (Stage.giveBack_elaborates st ctx _).trans
        (settle_elaborates_conclude st (.panicked text))
  | passed =>
      refine .disposition_left (.disposition_right ?_)
      obtain ⟨_ | first⟩ := st
      · exact Stage.contain_settling_elaborates _ ctx .complete
      · exact .disposition_left (.refl _ _)

/-- The standard stages around a processor elaborate the plain way to handle a delivery. -/
theorem handle_elaborates (st : Settlement) (gate : Nat) (p : Processor) (ctx : Context) :
    Elaborates st (Courier.handle gate [] p ctx) (handle gate p ctx) := by
  let admitted : Service := Stage.throttle gate ctx (p.service ctx)
  have instrumented : Elaborates st (Courier.handle gate [] p ctx)
      ((Stage.limitDeliveries ctx admitted).bind (Stage.contain ctx)) :=
    (Stage.instrument_elaborates st ctx _).bind fun _ _ => .refl _ _
  apply instrumented.trans
  by_cases within : ctx.count ≤ ctx.limit
  · have enough : ¬ctx.limit < ctx.count := UInt32.not_lt.mpr within
    simp only [Stage.limitDeliveries, if_pos within, handle, if_neg enough]
    refine ((Stage.throttle_elaborates st gate ctx _).bind fun _ _ => .refl _ _).trans ?_
    rw [Program.bind_assoc]
    refine (Elaborates.refl st _).bind ?_
    intro st' entry
    cases entry with
    | error f => exact Stage.giveBack_elaborates st' ctx _
    | ok _ =>
        change Elaborates st' ((p.service ctx).bind (Stage.contain ctx)) _
        rw [Processor.service_eq, Program.bind_assoc]
        exact (Elaborates.refl st' _).bind fun st'' verdict => complete_elaborates st'' ctx verdict
  · have beyond : ctx.limit < ctx.count := UInt32.not_le.mp within
    simp only [Stage.limitDeliveries, if_neg within, handle, if_pos beyond]
    refine .extra rfl (fun _ => rfl) fun _ => .extra rfl (fun _ => rfl) fun _ => ?_
    exact Stage.contain_settling_elaborates st ctx _

variable {st' : Settlement} {events : List Event} {verdict : Verdict ProcessingFault}

theorem settle_ends {how : Settling} (h : Ends (settle how) st events st' verdict) :
    verdict = .passed ∧ ∃ first, st'.claimed = some first := by
  obtain ⟨_ | first⟩ := st
  · obtain ⟨_, _, _, done⟩ := Program.ends_settle_first.mp h
    obtain ⟨_, rfl, rfl⟩ := Program.ends_done.mp done
    exact ⟨rfl, how, rfl⟩
  · have done := Program.ends_settle_refused.mp h
    obtain ⟨_, rfl, rfl⟩ := Program.ends_done.mp done
    exact ⟨rfl, first, rfl⟩

theorem conclude_ends {result : Verdict ProcessingFault}
    (h : Ends (conclude result) st events st' verdict) :
    verdict = .passed ∧ ∃ first, st'.claimed = some first := by
  have answered := Program.ends_disposition.mp h
  obtain ⟨_ | first⟩ := st
  · exact settle_ends answered
  · obtain ⟨_, rfl, rfl⟩ := Program.ends_done.mp answered
    exact ⟨rfl, first, rfl⟩

/-- The plain way always ends well, and with the settlement claimed. -/
theorem handle_ends {gate : Nat} {p : Processor}
    (h : Ends (handle gate p ctx) st events st' verdict) :
    verdict = .passed ∧ ∃ first, st'.claimed = some first := by
  unfold handle at h
  split at h
  · exact settle_ends h
  · obtain ⟨_, entry, _, _, _, after, _⟩ := Program.ends_bind.mp h
    cases entry with
    | error f => exact settle_ends after
    | ok _ =>
        obtain ⟨_, _, _, _, _, concluded, _⟩ := Program.ends_bind.mp after
        exact conclude_ends concluded

end Plain

namespace Rehearsal

@[simp] theorem moveTo_handling (cancelAt : Option Nat) (s : Site) (t : Nat) :
    (moveTo cancelAt s t).handling = s.handling := by
  cases cancelAt <;> rfl

/-- What happens while a program is run to its end. -/
def events {α : Type} (cancelAt : Option Nat) : Nat → Site → Program α → List Event
  | 0, _, _ => []
  | fuel + 1, s, x =>
    x.trace s ++
      match x.resume s with
      | (_, .done _) => []
      | (s, rest) =>
        match nextTime? cancelAt s rest with
        | some t => events cancelAt fuel (moveTo cancelAt s t) rest
        | none => []

/-- A program that is resumed until it ends, while time passes, comes to its end by what happens. -/
theorem run_ends {α : Type} {cancelAt : Option Nat} {fuel : Nat} {s s' : Site} {x : Program α}
    {a : α} (h : run cancelAt fuel s x = (s', some a)) :
    Ends x s.handling.settlement (events cancelAt fuel s x) s'.handling.settlement a := by
  induction fuel generalizing s x with
  | zero => simp [run] at h
  | succ fuel ih =>
      obtain ⟨runs, _⟩ := x.resume_runs s
      generalize resumed : x.resume s = r at runs
      obtain ⟨s₁, y⟩ := r
      cases y with
      | done b =>
          simp only [run, resumed, Prod.mk.injEq, Option.some.injEq] at h
          obtain ⟨rfl, rfl⟩ := h
          simp only [events, resumed, List.append_nil]
          exact runs
      | call e rest | await p rest =>
          simp only [run, resumed] at h
          split at h
          · rename_i next
            have ends := ih h
            rw [moveTo_handling] at ends
            simp only [events, resumed, next]
            exact runs.trans ends
          · simp at h

end Rehearsal

/-- Whatever the processor does, the gate and the registry answer and the queue says to each
settlement, handling a delivery without stages of its own passes, settles the delivery with the
queue exactly once, and does all of this as the plain way does it, bookkeeping apart. Nothing that
may come of the plain way is missing. Where a delivery is handled to the end at some site, what
happens there is such a run. -/
theorem handle_corresponds_plain (gate : Nat) (p : Processor) (ctx : Context) :
    (∀ events st verdict, Ends (handle gate [] p ctx) {} events st verdict →
      verdict = .passed ∧
      (∃ how, events.filterMap Event.settling? = [how] ∧ st.claimed = some how) ∧
      ∃ plain, Ends (Plain.handle gate p ctx) {} plain st .passed ∧ Bookkept events plain) ∧
    (∀ plain st verdict, Ends (Plain.handle gate p ctx) {} plain st verdict →
      ∃ events, Ends (handle gate [] p ctx) {} events st verdict ∧ Bookkept events plain) ∧
    ∀ cancelAt fuel s s' verdict, s.handling.settlement = {} →
      Rehearsal.run cancelAt fuel s (handle gate [] p ctx) = (s', some verdict) →
      Ends (handle gate [] p ctx) {}
        (Rehearsal.events cancelAt fuel s (handle gate [] p ctx)) s'.handling.settlement
        verdict := by
  have elaborates := Plain.handle_elaborates {} gate p ctx
  refine ⟨?_, ?_, ?_⟩
  · intro events st verdict h
    obtain ⟨plain, ends, book⟩ := elaborates.down h
    obtain ⟨rfl, how, claimed⟩ := Plain.handle_ends ends
    have settlings : events.filterMap Event.settling? = [how] := by
      simpa [claimed] using h.claims
    exact ⟨rfl, ⟨how, settlings, claimed⟩, plain, ends, book⟩
  · intro plain st verdict h
    exact elaborates.up h
  · intro cancelAt fuel s s' verdict unsettled h
    exact unsettled ▸ Rehearsal.run_ends h

end Courier
