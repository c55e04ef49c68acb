import Courier.Proofs.Handling.Admission

/-!
# The way through the gate

A handling begins outside of the gate. It asks for a slot and is let in, or it waits with a ticket
until it is let in or turned away, and it leaves. `Place` is where it is, which the events of the
handling tell.

Each event has its place: a slot is asked for outside only, taken after waiting for it only, and
given back inside only. Outside, nothing is done but what the standard stages do, so a receiver's
own stages and the processor run inside. `Program.Keeps` says that a program keeps to this whatever
it is answered, by recursion over the program, and `handle_keeps` that handling does, provided that
the receiver's own stages and the processor leave the gate alone.
-/

namespace Courier

/-- Where a handling is on its way through the gate, and its ticket. -/
inductive Place where
  | outside
  | waiting (ticket : Nat)
  | inside (ticket : Nat)
  deriving DecidableEq

namespace Effect

/-- Whether the standard stages call so outside of the gate, apart from asking for a slot. -/
def isHousekeeping : Effect → Bool
  | .settle _ => true
  | .disposition => true
  | .isCancelled => true
  | .property _ => true
  | .setProperty .. => true
  | .note _ => true
  | .count _ => true
  | .span _ => true
  | _ => false

end Effect

namespace Place

def isInside : Place → Bool
  | .inside _ => true
  | _ => false

/-- The place after an event. -/
def after : Place → Event → Place
  | _, .called (.request 0) (.admitted t) => .inside t
  | _, .called (.request 0) (.queued t) => .waiting t
  | _, .called (.enter 0 t) (.ok ()) => .inside t
  | _, .called (.enter 0 _) (.error _) => .outside
  | _, .called (.leave 0 _) _ => .outside
  | pl, _ => pl

/-- The place after events that began outside. -/
def of (events : List Event) : Place := events.foldl after .outside

/-- What may be called at a place. -/
def Allows (pl : Place) : Effect → Prop
  | .request gate => gate = 0 ∧ pl = .outside
  | .enter gate t => gate = 0 ∧ pl = .waiting t
  | .leave gate t => gate = 0 ∧ pl = .inside t
  | e => pl.isInside = true ∨ e.isHousekeeping = true

/-- What may be waited for at a place. -/
def Bears (pl : Place) (p : Pause) : Prop :=
  pl.isInside = true ∨ ∃ t, pl = .waiting t ∧ p = .slot 0 t

/-- Whether an event is at its place. -/
def Admits (pl : Place) : Event → Prop
  | .settled .. => True
  | .called e _ => pl.Allows e
  | .waited p => pl.Bears p

/-- Events from a place on are at their places. -/
def Passes : Place → List Event → Prop
  | _, [] => True
  | pl, e :: events => pl.Admits e ∧ (pl.after e).Passes events

variable {pl : Place} {events events' : List Event}

@[simp] theorem of_append : Place.of (events ++ events') = events'.foldl after (.of events) :=
  List.foldl_append

theorem Passes.append (h : pl.Passes events) (h' : (events.foldl after pl).Passes events') :
    pl.Passes (events ++ events') := by
  induction events generalizing pl with
  | nil => exact h'
  | cons e rest ih => exact ⟨h.1, ih h.2 h'⟩

theorem allows_of_housekeeping {e : Effect} (h : e.isHousekeeping = true) : pl.Allows e := by
  cases e with
  | request | enter | leave => cases h
  | _ => exact .inr h

theorem after_of_not_gate {e : Effect} (h : e.isGate = false) (answer : e.Answer) :
    pl.after (.called e answer) = pl := by
  cases e with
  | request | enter | leave => cases h
  | _ => rfl

theorem after_of_housekeeping {e : Effect} (h : e.isHousekeeping = true) (answer : e.Answer) :
    pl.after (.called e answer) = pl := by
  cases e with
  | request | enter | leave => cases h
  | _ => rfl

end Place

/-! ## Programs that keep to the places -/

namespace Program

variable {α β : Type}

/-- Everything that a program does from a place on is at its place, and its result comes at a
place for which `post` holds. -/
def Keeps (post : Place → α → Prop) : Program α → Place → Prop
  | .done a, pl => post pl a
  | .call e rest, pl =>
    pl.Allows e ∧ ∀ answer, (rest answer).Keeps post (pl.after (.called e answer))
  | .await p rest, pl => pl.Bears p ∧ rest.Keeps post pl

variable {post post' : Place → α → Prop} {x y : Program α} {pl : Place}

theorem Keeps.mono (h : x.Keeps post pl) (imp : ∀ pl a, post pl a → post' pl a) :
    x.Keeps post' pl := by
  induction x generalizing pl with
  | done a => exact imp pl a h
  | call e rest ih => exact ⟨h.1, fun answer => ih answer (h.2 answer)⟩
  | await p rest ih => exact ⟨h.1, ih h.2⟩

theorem Keeps.bind {f : α → Program β} {goal : Place → β → Prop} (h : x.Keeps post pl)
    (after : ∀ pl a, post pl a → (f a).Keeps goal pl) : (x.bind f).Keeps goal pl := by
  induction x generalizing pl with
  | done a => exact after pl a h
  | call e rest ih => exact ⟨h.1, fun answer => ih answer (h.2 answer)⟩
  | await p rest ih => exact ⟨h.1, ih h.2⟩

/-- A call of the standard stages that does not concern the gate. -/
theorem keeps_call {e : Effect} (h : e.isHousekeeping = true) {rest : e.Answer → Program α}
    (after : ∀ answer, (rest answer).Keeps post pl) : (Program.call e rest).Keeps post pl :=
  ⟨Place.allows_of_housekeeping h, fun answer => by
    rw [Place.after_of_housekeeping h]
    exact after answer⟩

/-- Who leaves the gate alone may do anything inside, and stays there. -/
theorem Only.keeps (h : x.Only fun e => e.isGate = false) {t : Nat}
    (result : ∀ a, post (.inside t) a) : x.Keeps post (.inside t) := by
  induction x with
  | done a => exact result a
  | call e rest ih =>
      refine ⟨?_, fun answer => ?_⟩
      · have alone := h.1
        cases e with
        | request | enter | leave => cases alone
        | _ => exact .inl rfl
      · rw [Place.after_of_not_gate h.1]
        exact ih answer (h.2 answer)
  | await p rest ih => exact ⟨.inl rfl, ih h⟩

/-- What is left of a program that has run keeps to its place, and what happened was at its
place. -/
theorem Keeps.runs (h : x.Keeps post pl) {st st' : Settlement} {events : List Event}
    (runs : Runs x st events st' y) :
    y.Keeps post (events.foldl Place.after pl) ∧ pl.Passes events := by
  induction runs generalizing pl with
  | refl => exact ⟨h, trivial⟩
  | refused _ _ ih => exact ih (h.2 _)
  | settled answer _ _ ih =>
      obtain ⟨keeps, passes⟩ := ih (h.2 _)
      exact ⟨keeps, trivial, passes⟩
  | disposition _ ih => exact ih (h.2 _)
  | called answer _ _ ih =>
      obtain ⟨keeps, passes⟩ := ih (h.2 answer)
      exact ⟨keeps, h.1, passes⟩
  | waited _ ih =>
      obtain ⟨keeps, passes⟩ := ih h.2
      exact ⟨keeps, h.1, passes⟩

/-- A program that was resumed has come to its end, or it waits. -/
theorem resume_rests (x : Program α) (s : Site) :
    (∃ a, (x.resume s).2 = .done a) ∨
      ∃ p rest, (x.resume s).2 = .await p rest ∧ (x.resume s).1.ready p = false := by
  induction x generalizing s with
  | done a => exact .inl ⟨a, rfl⟩
  | call e rest ih => exact ih _ _
  | await p rest ih =>
      simp only [Program.resume]
      split
      · exact ih s
      · rename_i waits
        exact .inr ⟨p, rest, rfl, eq_false_of_ne_true waits⟩

end Program

/-! ## Handling -/

open Program (keeps_call)

/-- A stage that leaves the gate alone, around whatever does. -/
def Stage.Polite (stage : Stage) : Prop :=
  ∀ ctx x, x.Only (fun e => e.isGate = false) → (stage ctx x).Only fun e => e.isGate = false

/-- A processor that leaves the gate alone. -/
def Processor.Polite (p : Processor) : Prop := ∀ ctx, (p ctx).Only fun e => e.isGate = false

/-- Stages that keep to some calls around what keeps to them. -/
theorem compose_only {ok : Effect → Prop} {own : List Stage}
    (stages : ∀ stage ∈ own, ∀ ctx x, Program.Only ok x → (stage ctx x).Only ok) {ctx : Context}
    {x : Service} (h : x.Only ok) : (compose own ctx x).Only ok := by
  induction own generalizing x with
  | nil => exact h
  | cons stage rest ih =>
      rw [compose_cons]
      exact ih (fun s hs => stages s (List.mem_cons_of_mem _ hs))
        (stages stage List.mem_cons_self ctx x h)

namespace Stage

/-- A service that is outside when it has come to a verdict. -/
def Returns (x : Service) (pl : Place) : Prop := x.Keeps (fun pl _ => pl = .outside) pl

variable {ctx : Context} {x : Service}

theorem giveBack_keeps (fault : ProcessingFault) : Returns (giveBack ctx fault) .outside := by
  refine keeps_call rfl fun _ => keeps_call rfl fun answer => ?_
  match answer with
  | .ok () => exact rfl
  | .error (.alreadySettled _ _) => exact keeps_call rfl fun _ => rfl
  | .error (.queue _) => exact keeps_call rfl fun _ => rfl

theorem contain_keeps (verdict : Verdict ProcessingFault) :
    Returns (contain ctx verdict) .outside := by
  cases verdict with
  | failed fault => exact giveBack_keeps fault
  | panicked text => exact giveBack_keeps _
  | passed =>
      refine keeps_call rfl fun disposition => ?_
      cases disposition with
      | some _ => exact rfl
      | none => exact giveBack_keeps _

theorem tell_keeps (id : String) (verdict : Verdict ProcessingFault) :
    Returns (tell ctx id verdict) .outside := by
  cases verdict with
  | panicked text => exact keeps_call rfl fun _ => rfl
  | passed | failed fault =>
      exact keeps_call rfl fun _ => keeps_call rfl fun _ => keeps_call rfl fun _ =>
        keeps_call rfl fun _ => keeps_call rfl fun _ => rfl

theorem correlate_keeps : (correlate ctx).Keeps (fun pl _ => pl = .outside) .outside := by
  refine keeps_call rfl fun answer => ?_
  cases answer with
  | some id => exact rfl
  | none => exact keeps_call rfl fun _ => rfl

theorem instrument_keeps (h : Returns x .outside) : Returns (instrument ctx x) .outside := by
  rw [instrument_eq]
  refine correlate_keeps.bind fun pl id here => ?_
  subst here
  refine h.bind fun pl verdict here => ?_
  subst here
  exact tell_keeps id verdict

theorem containFaults_keeps (h : Returns x .outside) : Returns (containFaults ctx x) .outside := by
  rw [containFaults_eq]
  refine h.bind fun pl verdict here => ?_
  subst here
  exact contain_keeps verdict

theorem settling_keeps (how : Settling) : Returns (Service.settling how) .outside := by
  refine keeps_call rfl fun answer => ?_
  cases answer <;> exact rfl

theorem limitDeliveries_keeps (h : Returns x .outside) :
    Returns (limitDeliveries ctx x) .outside := by
  by_cases enough : ctx.count ≤ ctx.limit
  · rw [limitDeliveries_of_le enough]
    exact h
  · rw [limitDeliveries_of_gt enough]
    exact keeps_call rfl fun _ => keeps_call rfl fun _ => settling_keeps _

theorem whileHolding_keeps (polite : x.Only fun e => e.isGate = false) (t : Nat) :
    Returns (whileHolding 0 t x) (.inside t) := by
  have inside : x.Keeps (fun pl _ => pl = .inside t) (.inside t) := polite.keeps fun _ => rfl
  refine inside.bind fun pl a here => ?_
  subst here
  exact ⟨⟨rfl, rfl⟩, fun _ => rfl⟩

theorem throttle_keeps (polite : x.Only fun e => e.isGate = false) :
    Returns (throttle 0 ctx x) .outside := by
  obtain ⟨rest, throttle, refused, admitted, queued⟩ := throttle_eq ctx x
  rw [throttle]
  refine keeps_call rfl fun cancelled => ?_
  cases cancelled with
  | true => exact rfl
  | false =>
      refine ⟨⟨rfl, rfl⟩, fun entry => ?_⟩
      cases entry with
      | refused =>
          rw [refused]
          exact rfl
      | admitted t =>
          rw [admitted]
          exact whileHolding_keeps polite t
      | queued t =>
          rw [queued]
          refine ⟨.inr ⟨t, rfl, rfl⟩, ⟨rfl, rfl⟩, fun answer => ?_⟩
          cases answer with
          | error f => exact rfl
          | ok _ => exact whileHolding_keeps polite t

end Stage

/-- Handling a delivery, the standard stages stand around the receiver's own. -/
theorem handle_eq_standard (own : List Stage) (p : Processor) (ctx : Context) :
    handle 0 own p ctx = Stage.containFaults ctx (Stage.instrument ctx (Stage.limitDeliveries ctx
      (Stage.throttle 0 ctx (compose own ctx (p.service ctx))))) := by
  rw [handle, compose_append]
  rfl

/-- A handling asks for a slot, enters and leaves in this order, and is outside in the end. -/
theorem handle_keeps {own : List Stage} {p : Processor} (stages : ∀ stage ∈ own, stage.Polite)
    (polite : p.Polite) (ctx : Context) : Stage.Returns (handle 0 own p ctx) .outside := by
  rw [handle_eq_standard]
  apply Stage.containFaults_keeps
  apply Stage.instrument_keeps
  apply Stage.limitDeliveries_keeps
  apply Stage.throttle_keeps
  exact compose_only stages (Processor.service_polite (polite ctx))

end Courier
