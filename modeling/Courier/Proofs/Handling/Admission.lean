import Courier.Proofs.Gate
import Courier.Proofs.Handling.Footprint
import Courier.Proofs.Handling.Reasons

/-!
# Waiting for admission

Before a delivery is handed to its processor, its handling asks the gate for a slot. It gets one at
once, waits in the queue of the gate, or is turned away. `Stage.queued` is what is left of a
handling that waits. Every other handling that has begun is behind admission: it takes no more slots
that others have waited for, and if it has not handed over the delivery yet, it never will.
-/

namespace Courier

open Program (perform pause)

namespace Effect

/-- Whether a call takes a slot that was waited for. -/
def isEnter : Effect → Bool
  | .enter .. => true
  | _ => false

theorem isEnter_of_isGate {e : Effect} (h : e.isGate = false) : e.isEnter = false := by
  cases e <;> first | rfl | exact h

end Effect

/-! ## The gate of a site -/

namespace Site

/-- The gate of the receiver at whose site a delivery is handled. -/
def gate (s : Site) : Gate := s.premises.gate 0

theorem gate_withGate (s : Site) (i : Nat) (g : Gate) :
    (s.withGate i g).gate = if i = 0 ∧ s.premises.gates ≠ [] then g else s.gate := by
  cases gates : s.premises.gates with
  | nil => simp [gate, withGate, Premises.setGate, Premises.gate, gates]
  | cons first rest =>
      cases i with
      | zero => simp [gate, withGate, Premises.setGate, Premises.gate, gates]
      | succ i => simp [gate, withGate, Premises.setGate, Premises.gate, gates]

/-- A call that takes no slot that was waited for leaves every ticket its place. -/
theorem perform_gate (s : Site) {e : Effect} (h : e.isEnter = false) :
    Gate.Advances none s.gate (s.perform e).1.gate := by
  cases e with
  | enter i t => simp [Effect.isEnter] at h
  | settle how =>
      simp only [perform, settle]
      split <;> exact .refl _ _
  | request i =>
      simp only [perform, gate_withGate]
      split
      · rename_i here
        rw [here.1]
        exact Gate.advances_request _
      · exact .refl _ _
  | leave i t =>
      simp only [perform, gate_withGate]
      split
      · rename_i here
        rw [here.1]
        exact Gate.advances_release _ t
      · exact .refl _ _
  | _ => exact .refl _ _

/-- Taking a slot that was waited for. -/
theorem perform_enter_gate (s : Site) (t : Nat) :
    Gate.Advances (some t) s.gate (s.perform (.enter 0 t)).1.gate := by
  have resumed := Gate.advances_resume s.gate t s.isCancelled
  simp only [perform, enter]
  split
  · rename_i g r found
    rw [gate, found] at resumed
    rw [gate_withGate]
    split
    · exact resumed
    · exact .refl _ _
  · rename_i g found
    rw [gate, found] at resumed
    rw [gate_withGate]
    split
    · exact resumed.trans (Gate.advances_withdraw g t)
    · exact .refl _ _

/-- No gate is taken away. -/
theorem perform_gates (s : Site) (e : Effect) (h : s.premises.gates ≠ []) :
    (s.perform e).1.premises.gates ≠ [] := by
  cases e with
  | settle how =>
      simp only [perform, settle]
      split <;> exact h
  | enter i t =>
      simp only [perform, enter]
      split <;> simpa [withGate, Premises.setGate] using h
  | request i => simpa [perform, withGate, Premises.setGate] using h
  | leave i t => simpa [perform, withGate, Premises.setGate] using h
  | _ => exact h

theorem Follows.gates {s s' : Site} {events : List Event} (h : s.Follows events s')
    (some : s.premises.gates ≠ []) : s'.premises.gates ≠ [] := by
  induction h with
  | refl => exact some
  | settled _ _ ih => exact ih some
  | called _ _ ih => exact ih (perform_gates _ _ some)
  | waited _ _ ih => exact ih some

end Site

/-! ## Handling, before and behind admission -/

namespace Stage

/-- What the stages around admission make of a service, once the delivery belongs to a
conversation. -/
def around (ctx : Context) (id : String) (x : Service) : Service :=
  (x.bind (tell ctx id)).bind (contain ctx)

/-- What is left of a handling that waits in the queue of the gate. -/
def queued (p : Processor) (ctx : Context) (id : String) (ticket : Nat) : Service :=
  around ctx id (.await (.slot 0 ticket) (.call (.enter 0 ticket) fun answer =>
    match answer with
    | .error f => .done (.failed f.toProcessing)
    | .ok () => whileHolding 0 ticket (p.service ctx)))

theorem throttle_eq (ctx : Context) (x : Service) :
    ∃ rest : Gate.Entry → Service,
      throttle 0 ctx x = (.call .isCancelled fun cancelled =>
        if cancelled then .done (.failed .cancelled) else .call (.request 0) rest) ∧
      rest .refused = .done (.failed .gateClosed) ∧
      (∀ t, rest (.admitted t) = whileHolding 0 t x) ∧
      ∀ t, rest (.queued t) = .await (.slot 0 t) (.call (.enter 0 t) fun answer =>
        match answer with
        | .error f => .done (.failed f.toProcessing)
        | .ok () => whileHolding 0 t x) := by
  refine ⟨_, rfl, rfl, fun _ => rfl, fun t => ?_⟩
  refine congrArg (fun rest => Program.await (.slot 0 t) (.call (.enter 0 t) rest)) ?_
  funext answer
  cases answer <;> rfl

theorem handle_eq (p : Processor) (ctx : Context) :
    handle 0 [] p ctx = (correlate ctx).bind fun id =>
      around ctx id (limitDeliveries ctx (throttle 0 ctx (p.service ctx))) :=
  Program.bind_assoc (correlate ctx) _ (contain ctx)

variable {ok : Effect → Prop}

theorem giveBack_only (note : ∀ n, ok (.note n)) (settle : ∀ how, ok (.settle how)) (ctx : Context)
    (fault : ProcessingFault) : (giveBack ctx fault).Only ok := by
  refine ⟨note _, fun _ => ⟨settle _, ?_⟩⟩
  intro answer
  match answer with
  | .ok () => trivial
  | .error (.alreadySettled _ _) => exact ⟨note _, fun _ => trivial⟩
  | .error (.queue _) => exact ⟨note _, fun _ => trivial⟩

/-- Containing faults takes no more than notes and settlements. -/
theorem contain_only (note : ∀ n, ok (.note n)) (settle : ∀ how, ok (.settle how))
    (disposition : ok .disposition) (ctx : Context) (verdict : Verdict ProcessingFault) :
    (contain ctx verdict).Only ok := by
  cases verdict with
  | failed fault => exact giveBack_only note settle ctx fault
  | panicked text => exact giveBack_only note settle ctx _
  | passed =>
      refine ⟨disposition, ?_⟩
      intro answer
      cases answer with
      | some _ => trivial
      | none => exact giveBack_only note settle ctx _

/-- The stages around admission neither call a gate nor hand the delivery over. -/
theorem around_only (aside : ∀ e, e.isGate = false → e.isInvoke = false → ok e) (ctx : Context)
    (id : String) {x : Service} (h : x.Only ok) : (around ctx id x).Only ok := by
  refine (h.bind fun verdict => ?_).bind fun verdict => ?_
  · cases verdict with
    | panicked text => exact ⟨aside _ rfl rfl, fun _ => trivial⟩
    | passed | failed fault =>
        exact ⟨aside _ rfl rfl, fun _ => ⟨aside _ rfl rfl, fun _ => ⟨aside _ rfl rfl, fun _ =>
          ⟨aside _ rfl rfl, fun _ => ⟨aside _ rfl rfl, fun _ => trivial⟩⟩⟩⟩⟩
  · exact contain_only (fun _ => aside _ rfl rfl) (fun _ => aside _ rfl rfl) (aside _ rfl rfl) ctx
      verdict

end Stage

theorem Service.settling_only {ok : Effect → Prop} {how : Settling} (settle : ok (.settle how)) :
    (Service.settling how).Only ok := by
  refine ⟨settle, ?_⟩
  intro answer
  cases answer <;> trivial

/-- Around its doings, a processor is made, is given the delivery, and has it completed. -/
theorem Processor.service_only {ok : Effect → Prop} {p : Processor} {ctx : Context}
    (doings : (p ctx).Only ok) (resolve : ok .resolve) (invoke : ok .invoke)
    (disposition : ok .disposition) (settle : ∀ how, ok (.settle how)) :
    (p.service ctx).Only ok := by
  have tried : (Plain.attempt p ctx).Only ok := by
    refine ⟨resolve, ?_⟩
    intro answer
    cases answer with
    | error f => trivial
    | ok _ => exact ⟨invoke, fun _ => doings.bind fun _ => trivial⟩
  rw [service_eq]
  apply tried.bind
  intro verdict
  cases verdict with
  | failed fault => trivial
  | panicked text => trivial
  | passed =>
      refine ⟨disposition, ?_⟩
      intro answer
      cases answer with
      | some _ => trivial
      | none => exact Service.settling_only (settle .complete)

/-- A processor that calls no gate does not when its doings are completed either. -/
theorem Processor.service_polite {p : Processor} {ctx : Context}
    (polite : (p ctx).Only fun e => e.isGate = false) :
    (p.service ctx).Only fun e => e.isGate = false :=
  service_only polite rfl rfl rfl fun _ => rfl

/-! ## What stepping does -/

/-- What a handling has come to that is behind admission. -/
structure Behind (h : Handling) (x : Service) : Prop where
  polite : x.Only fun e => e.isEnter = false
  handed : h.invoked = true ∨ x.Only fun e => e.isInvoke = false

section

variable {p : Processor} {ctx : Context} {x : Service} {s : Site}

theorem Site.perform_uninvoked (s : Site) {e : Effect} (h : e.isInvoke = false) :
    (s.perform e).1.handling.invoked = s.handling.invoked := by
  cases e with
  | invoke => simp [Effect.isInvoke] at h
  | settle how =>
      simp only [perform, settle]
      split <;> rfl
  | enter gate ticket =>
      simp only [perform, enter]
      split <;> rfl
  | _ => rfl

/-- What is handed to the processor stays so. -/
theorem resume_invoked (x : Service) (h : s.handling.invoked = true) :
    (x.resume s).1.handling.invoked = true := by
  rw [(x.resume_runs s).2.invoked, h, Bool.true_or]

theorem resume_uninvoked (h : x.Only fun e => e.isInvoke = false) :
    (x.resume s).1.handling.invoked = s.handling.invoked :=
  h.preserve (P := fun s' => s'.handling.invoked = s.handling.invoked)
    (fun s' _ still before => (s'.perform_uninvoked still).trans before) rfl

theorem resume_gate (h : x.Only fun e => e.isEnter = false) :
    Gate.Advances none s.gate (x.resume s).1.gate :=
  h.preserve (P := fun s' => Gate.Advances none s.gate s'.gate)
    (fun s' _ polite before => before.trans (s'.perform_gate polite)) (.refl _ _)

theorem behind_of_aside (h : x.Only fun e => e.isEnter = false ∧ e.isInvoke = false) (s : Site) :
    Behind (x.resume s).1.handling (x.resume s).2 :=
  ⟨(h.mono fun _ => And.left).resume s, .inr ((h.mono fun _ => And.right).resume s)⟩

theorem aside_of {e : Effect} (gate : e.isGate = false) (invoke : e.isInvoke = false) :
    e.isEnter = false ∧ e.isInvoke = false :=
  ⟨Effect.isEnter_of_isGate gate, invoke⟩

theorem held_only (polite : (p ctx).Only fun e => e.isGate = false) (id : String) (ticket : Nat) :
    (Stage.around ctx id (Stage.whileHolding 0 ticket (p.service ctx))).Only
      fun e => e.isEnter = false := by
  refine Stage.around_only (fun e gate _ => Effect.isEnter_of_isGate gate) ctx id ?_
  have service := (Processor.service_polite polite).mono fun _ => Effect.isEnter_of_isGate
  exact service.bind fun _ => ⟨rfl, fun _ => trivial⟩

/-- A handling that holds a slot makes the processor and hands the delivery over, unless the
processor cannot be made. -/
theorem held_behind (polite : (p ctx).Only fun e => e.isGate = false) (id : String)
    (ticket : Nat) (s : Site) :
    let r := (Stage.around ctx id (Stage.whileHolding 0 ticket (p.service ctx))).resume s
    Behind r.1.handling r.2 := by
  refine ⟨(held_only polite id ticket).resume s, ?_⟩
  obtain ⟨rest, service, failed, later, handed⟩ :
      ∃ rest : Except ProcessingFault Unit → Service, p.service ctx = .call .resolve rest ∧
        (∀ f, rest (.error f) = .done (.failed f)) ∧
        ∃ later : Unit → Service, rest (.ok ()) = .call .invoke later :=
    ⟨_, rfl, fun _ => rfl, _, rfl⟩
  let resolved := s.premises.registry.resolve s.premises.messageType s.handling.scope
  have first : (Stage.around ctx id (Stage.whileHolding 0 ticket (p.service ctx))).resume s =
      (Stage.around ctx id (Stage.whileHolding 0 ticket (rest resolved))).resume s := by
    rw [service]
    rfl
  rw [first]
  cases resolved with
  | error f =>
      rw [failed f]
      refine .inr (Program.Only.resume (Stage.around_only (fun _ _ invoke => invoke) ctx id ?_) s)
      exact ⟨rfl, fun _ => trivial⟩
  | ok _ =>
      have second : (Stage.around ctx id (Stage.whileHolding 0 ticket
          (.call .invoke later))).resume s =
            (Stage.around ctx id (Stage.whileHolding 0 ticket (later ()))).resume
              (s.perform .invoke).1 := rfl
      rw [handed, second]
      exact .inl (resume_invoked _ rfl)

/-- A handling that waited goes on. It hands the delivery over only if it was handed a slot. -/
theorem queued_resume (polite : (p ctx).Only fun e => e.isGate = false) (id : String)
    (ticket : Nat) (new : s.handling.invoked = false) (ready : s.ready (.slot 0 ticket) = true) :
    let r := (Stage.queued p ctx id ticket).resume s
    Gate.Advances (some ticket) s.gate r.1.gate ∧ Behind r.1.handling r.2 ∧
      (r.1.handling.invoked = true → ticket ∈ s.gate.granted) := by
  intro r
  have entered := s.perform_enter_gate ticket
  have still : (s.perform (.enter 0 ticket)).1.handling.invoked = false :=
    (s.perform_uninvoked rfl).trans new
  have resumed : r = (Stage.around ctx id (match (s.perform (.enter 0 ticket)).2 with
      | .error f => .done (.failed f.toProcessing)
      | .ok () => Stage.whileHolding 0 ticket (p.service ctx))).resume
        (s.perform (.enter 0 ticket)).1 := by
    simp only [r, Stage.queued, Stage.around, Program.await_bind, Program.resume, if_pos ready]
    rfl
  cases answer : (s.perform (.enter 0 ticket)).2 with
  | error f =>
      rw [answer] at resumed
      have aside : (Stage.around ctx id (.done (.failed f.toProcessing))).Only
          fun e => e.isEnter = false ∧ e.isInvoke = false :=
        Stage.around_only (fun _ => aside_of) ctx id trivial
      rw [resumed]
      refine ⟨?_, behind_of_aside aside _, fun invoked => ?_⟩
      · exact entered.trans ((resume_gate (aside.mono fun _ => And.left)).weaken _)
      · rw [resume_uninvoked (aside.mono fun _ => And.right), still] at invoked
        simp at invoked
  | ok _ =>
      rw [answer] at resumed
      rw [resumed]
      refine ⟨?_, held_behind polite id ticket _, fun _ => ?_⟩
      · exact entered.trans ((resume_gate (held_only polite id ticket)).weaken _)
      · simp only [Site.perform, Site.enter] at answer
        split at answer
        · rename_i g r found
          have granted : (s.gate.resume ticket s.isCancelled).2 = some (.ok ()) := by
            rw [Site.gate, found]
            exact congrArg some answer
          exact Gate.granted_of_ok granted
        · simp at answer

theorem correlate_resume (ctx : Context) (f : String → Service) (s : Site) :
    ∃ id properties, ((Stage.correlate ctx).bind f).resume s =
      (f id).resume (s.withProperties properties) := by
  obtain ⟨rest, correlate, found, missing⟩ :
      ∃ rest : Option String → Program String,
        Stage.correlate ctx = .call (.property Properties.correlationId) rest ∧
        (∀ id, rest (some id) = .done id) ∧
        rest none = .call (.setProperty Properties.correlationId ctx.messageId) fun _ =>
          .done ctx.messageId :=
    ⟨_, rfl, fun _ => rfl, rfl⟩
  have first : ((Stage.correlate ctx).bind f).resume s =
      ((rest (s.handling.properties.get? Properties.correlationId)).bind f).resume s := by
    rw [correlate]
    rfl
  rw [first]
  cases s.handling.properties.get? Properties.correlationId with
  | some id => exact ⟨id, s.handling.properties, by rw [found]; rfl⟩
  | none => exact ⟨ctx.messageId, _, by rw [missing]; rfl⟩

/-- What has come of a handling that asked for admission: it joins the queue of the gate, or it gets
behind admission and hands the delivery over only if it found a free slot. -/
def Asked (p : Processor) (ctx : Context) (s : Site) (r : Site × Service) : Prop :=
  (s.gate.request.2 = .queued s.gate.issued ∧ r.1.gate = s.gate.request.1 ∧
      (∃ id, r.2 = Stage.queued p ctx id s.gate.issued) ∧ r.1.handling.invoked = false) ∨
    (Gate.Advances none s.gate r.1.gate ∧ Behind r.1.handling r.2 ∧
      (r.1.handling.invoked = true → s.gate.free ≠ 0))

theorem asked_of_aside (id : String) {r : Site} (gate : Gate.Advances none s.gate r.gate)
    (new : r.handling.invoked = false)
    (h : x.Only fun e => e.isEnter = false ∧ e.isInvoke = false) :
    Asked p ctx s ((Stage.around ctx id x).resume r) := by
  have only := Stage.around_only (fun _ => aside_of) ctx id h
  refine .inr ⟨gate.trans (resume_gate (only.mono fun _ => And.left)), behind_of_aside only _,
    fun invoked => ?_⟩
  rw [resume_uninvoked (only.mono fun _ => And.right), new] at invoked
  simp at invoked

/-- Asking for admission. -/
theorem throttle_resume (polite : (p ctx).Only fun e => e.isGate = false) (id : String)
    (orderly : s.gate.Orderly) (gates : s.premises.gates ≠ []) (new : s.handling.invoked = false) :
    Asked p ctx s
      ((Stage.around ctx id (Stage.throttle 0 ctx (p.service ctx))).resume s) := by
  obtain ⟨rest, throttle, refused, admitted, queued⟩ := Stage.throttle_eq ctx (p.service ctx)
  have asked : (Stage.around ctx id (Stage.throttle 0 ctx (p.service ctx))).resume s =
      (Stage.around ctx id (if s.isCancelled then .done (.failed .cancelled)
        else .call (.request 0) rest)).resume s := by
    rw [throttle]
    rfl
  rw [asked]
  cases cancelled : s.isCancelled with
  | true => exact asked_of_aside id (.refl _ _) new trivial
  | false =>
      have requested : (Stage.around ctx id (if false then .done (.failed .cancelled)
          else .call (.request 0) rest)).resume s =
            (Stage.around ctx id (rest s.gate.request.2)).resume (s.perform (.request 0)).1 := rfl
      have gate : (s.perform (.request 0)).1.gate = s.gate.request.1 := by
        simp only [Site.perform, Site.gate_withGate]
        exact if_pos ⟨trivial, gates⟩
      have advances : Gate.Advances none s.gate (s.perform (.request 0)).1.gate :=
        gate ▸ Gate.advances_request _
      rw [requested]
      cases entry : s.gate.request.2 with
      | refused =>
          rw [refused]
          exact asked_of_aside id advances new trivial
      | admitted t =>
          rw [admitted]
          exact .inr ⟨advances.trans (resume_gate (held_only polite id t)),
            held_behind polite id t _, fun _ => Gate.free_of_admitted entry⟩
      | queued t =>
          obtain ⟨rfl, opened, joined⟩ := Gate.of_queued entry
          -- a new ticket has no news yet
          have waits : (s.perform (.request 0)).1.ready (.slot 0 s.gate.issued) = false := by
            have undecided : ¬(s.perform (.request 0)).1.gate.decided s.gate.issued = true := by
              rw [gate, joined, Gate.decided_iff]
              rintro (granted | closed)
              · exact Nat.lt_irrefl _ (orderly.known _ (.inr granted))
              · simp [opened] at closed
            exact Bool.or_eq_false_iff.mpr ⟨cancelled, eq_false_of_ne_true undecided⟩
          refine .inl ⟨entry, ?_, ⟨id, ?_⟩, ?_⟩ <;> rw [queued] <;>
            simp only [Stage.queued, Stage.around, Program.await_bind, Program.resume, waits]
          · exact gate
          · rfl
          · exact new

/-- A handling that begins asks for admission, unless the delivery is past its limit. -/
theorem handle_resume (polite : (p ctx).Only fun e => e.isGate = false)
    (orderly : s.gate.Orderly) (gates : s.premises.gates ≠ []) (new : s.handling.invoked = false) :
    Asked p ctx s ((handle 0 [] p ctx).resume s) := by
  obtain ⟨id, properties, begun⟩ := correlate_resume ctx (fun id => Stage.around ctx id
    (Stage.limitDeliveries ctx (Stage.throttle 0 ctx (p.service ctx)))) s
  rw [Stage.handle_eq, begun]
  by_cases enough : ctx.count ≤ ctx.limit
  · rw [Stage.limitDeliveries_of_le enough]
    exact throttle_resume (s := s.withProperties properties) polite id orderly gates new
  · rw [Stage.limitDeliveries_of_gt enough]
    apply asked_of_aside (r := s.withProperties properties) id (.refl _ _) new
    exact ⟨⟨rfl, rfl⟩, fun _ => ⟨⟨rfl, rfl⟩, fun _ =>
      Service.settling_only (aside_of rfl rfl)⟩⟩

end

end Courier
