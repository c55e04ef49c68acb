import Courier.Handling.Site
import Courier.Handling.Stages

/-!
# What a program does

`Program.Runs` says how far a program can get and which events that takes, whatever its
surroundings answer. Only the record of the delivery's own settlement is fixed: it answers who has
claimed the settlement, and it refuses every claim after the first, so neither of these is an
event. A claim that is the first goes on to the queue, and that is an event with any answer the
queue may give.

`Program.trace` is what happens while a program is resumed at a site. `Program.resume_runs` shows
that the program does run by these events, so what holds of all runs holds wherever programs are
executed.
-/

namespace Courier

/-- Something that happens between a program and its surroundings. -/
inductive Event where
  /-- A settlement reached the queue, which answered. -/
  | settled (how : Settling) (answer : Except QueueFault Unit)
  | called (e : Effect) (answer : e.Answer)
  | waited (p : Pause)

namespace Event

/-- The settlement that reached the queue with an event. -/
def settling? : Event → Option Settling
  | .settled how _ => some how
  | _ => none

end Event

namespace Effect

/-- Whether a call concerns the record of the settlement alone. -/
def isOwn : Effect → Bool
  | .settle _ => true
  | .disposition => true
  | _ => false

end Effect

namespace Program

variable {α β : Type}

@[simp] theorem bind_eq (x : Program α) (f : α → Program β) : x >>= f = x.bind f := rfl

@[simp] theorem pure_eq (a : α) : (pure a : Program α) = .done a := rfl

@[simp] theorem perform_bind (e : Effect) (f : e.Answer → Program β) :
    (perform e).bind f = .call e f := rfl

@[simp] theorem pause_bind (p : Pause) (f : Unit → Program β) :
    (pause p).bind f = .await p (f ()) := rfl

/-- A program gets by some events to what is left of it, which takes the record of its settlement
from one state to another. -/
inductive Runs : Program α → Settlement → List Event → Settlement → Program α → Prop where
  | refl (x : Program α) (st : Settlement) : Runs x st [] st x
  | refused {how : Settling} {f : SettlementFault} {rest st events st' y} :
      st.claim how = .error f → Runs (rest (.error f)) st events st' y →
      Runs (.call (.settle how) rest) st events st' y
  | settled {how : Settling} {st₁ : Settlement} {rest st events st' y}
      (answer : Except QueueFault Unit) :
      st.claim how = .ok st₁ → Runs (rest (answer.mapError .queue)) st₁ events st' y →
      Runs (.call (.settle how) rest) st (.settled how answer :: events) st' y
  | disposition {rest : Option Disposition → Program α} {st events st' y} :
      Runs (rest st.disposition) st events st' y →
      Runs (.call .disposition rest) st events st' y
  | called {e : Effect} {rest : e.Answer → Program α} {st events st' y} (answer : e.Answer) :
      e.isOwn = false → Runs (rest answer) st events st' y →
      Runs (.call e rest) st (.called e answer :: events) st' y
  | waited {p : Pause} {rest st events st' y} :
      Runs rest st events st' y → Runs (.await p rest) st (.waited p :: events) st' y

/-- A program comes by some events to its result. -/
def Ends (x : Program α) (st : Settlement) (events : List Event) (st' : Settlement) (a : α) :
    Prop :=
  Runs x st events st' (.done a)

namespace Runs

variable {x y z : Program α} {st st₁ st₂ : Settlement} {first second events : List Event}

/-- The settlements that reach the queue are those that were claimed: at most one, and none when
the settlement was claimed before. -/
theorem claims (h : Runs x st events st₁ y) :
    st.claimed.toList ++ events.filterMap Event.settling? = st₁.claimed.toList := by
  induction h with
  | refl => simp
  | refused _ _ ih => exact ih
  | @settled how st₁ _ st events _ _ answer claim _ ih =>
      obtain ⟨_ | first⟩ := st
      · rw [Settlement.claim_new, Except.ok.injEq] at claim
        subst claim
        exact ih
      · simp at claim
  | disposition _ ih => exact ih
  | @called e _ _ _ _ _ answer _ _ ih => exact ih
  | waited _ ih => exact ih

theorem trans (h : Runs x st first st₁ y) (h' : Runs y st₁ second st₂ z) :
    Runs x st (first ++ second) st₂ z := by
  induction h with
  | refl => exact h'
  | refused claimed _ ih => exact .refused claimed (ih h')
  | settled answer claimed _ ih => exact .settled answer claimed (ih h')
  | disposition _ ih => exact .disposition (ih h')
  | called answer outside _ ih => exact .called answer outside (ih h')
  | waited _ ih => exact .waited (ih h')

/-- What a program gets to, it gets to also when something follows it. -/
theorem bind (h : Runs x st events st₁ y) (f : α → Program β) :
    Runs (x.bind f) st events st₁ (y.bind f) := by
  induction h with
  | refl => exact .refl _ _
  | refused claimed _ ih => exact .refused claimed ih
  | settled answer claimed _ ih => exact .settled answer claimed ih
  | disposition _ ih => exact .disposition ih
  | called answer outside _ ih => exact .called answer outside ih
  | waited _ ih => exact .waited ih

/-- A run of two programs one after the other is still within the first, or it has ended the first
and is within the second. -/
theorem of_bind {f : α → Program β} {w : Program β} (h : Runs (x.bind f) st events st₂ w) :
    (∃ y, Runs x st events st₂ y ∧ w = y.bind f) ∨
      ∃ first a st₁ second, Ends x st first st₁ a ∧ Runs (f a) st₁ second st₂ w ∧
        events = first ++ second := by
  induction x generalizing st events with
  | done a => exact .inr ⟨[], a, st, events, .refl _ _, h, rfl⟩
  | call e rest ih =>
      rw [call_bind] at h
      cases h with
      | refl => exact .inl ⟨.call e rest, .refl _ _, rfl⟩
      | refused claimed h =>
          obtain ⟨y, within, rfl⟩ | ⟨first, a, st₁, second, ends, after, rfl⟩ := ih _ h
          · exact .inl ⟨y, .refused claimed within, rfl⟩
          · exact .inr ⟨first, a, st₁, second, .refused claimed ends, after, rfl⟩
      | settled answer claimed h =>
          obtain ⟨y, within, rfl⟩ | ⟨first, a, st₁, second, ends, after, rfl⟩ := ih _ h
          · exact .inl ⟨y, .settled answer claimed within, rfl⟩
          · exact .inr ⟨_ :: first, a, st₁, second, .settled answer claimed ends, after, rfl⟩
      | disposition h =>
          obtain ⟨y, within, rfl⟩ | ⟨first, a, st₁, second, ends, after, rfl⟩ := ih _ h
          · exact .inl ⟨y, .disposition within, rfl⟩
          · exact .inr ⟨first, a, st₁, second, .disposition ends, after, rfl⟩
      | called answer outside h =>
          obtain ⟨y, within, rfl⟩ | ⟨first, a, st₁, second, ends, after, rfl⟩ := ih _ h
          · exact .inl ⟨y, .called answer outside within, rfl⟩
          · exact .inr ⟨_ :: first, a, st₁, second, .called answer outside ends, after, rfl⟩
  | await p rest ih =>
      rw [await_bind] at h
      cases h with
      | refl => exact .inl ⟨.await p rest, .refl _ _, rfl⟩
      | waited h =>
          obtain ⟨y, within, rfl⟩ | ⟨first, a, st₁, second, ends, after, rfl⟩ := ih h
          · exact .inl ⟨y, .waited within, rfl⟩
          · exact .inr ⟨_ :: first, a, st₁, second, .waited ends, after, rfl⟩

end Runs

end Program

/-! ## Programs at a site -/

namespace Site

@[simp] theorem perform_settle (s : Site) (how : Settling) :
    s.perform (.settle how) = s.settle how := rfl

@[simp] theorem perform_disposition (s : Site) :
    s.perform .disposition = (s, s.handling.settlement.disposition) := rfl

theorem settle_refused (s : Site) (how : Settling) {f : SettlementFault}
    (h : s.handling.settlement.claim how = .error f) : s.settle how = (s, .error f) := by
  simp only [settle, h]

/-- The site after a first claim, which the queue has answered. -/
def afterSettling (s : Site) (how : Settling) (claimed : Settlement) : Site :=
  { s.withQueue (s.premises.queue.settle s.ambient.now s.handling.context.delivery.token how).1 with
    handling := { s.handling with settlement := claimed } }

/-- The answer of the queue of a site to a settlement. -/
def queueAnswer (s : Site) (how : Settling) : Except QueueFault Unit :=
  (s.premises.queue.settle s.ambient.now s.handling.context.delivery.token how).2

theorem settle_claimed (s : Site) (how : Settling) {st : Settlement}
    (h : s.handling.settlement.claim how = .ok st) :
    s.settle how = (s.afterSettling how st, (s.queueAnswer how).mapError .queue) := by
  simp only [settle, h, afterSettling, queueAnswer]
  cases (s.premises.queue.settle s.ambient.now s.handling.context.delivery.token how).2 <;> rfl

/-- A call that does not concern the record of the settlement leaves the record alone. -/
theorem perform_settlement (s : Site) (e : Effect) (h : e.isOwn = false) :
    (s.perform e).1.handling.settlement = s.handling.settlement := by
  cases e with
  | settle how => simp [Effect.isOwn] at h
  | enter gate ticket =>
      simp only [perform, enter]
      split <;> rfl
  | _ => rfl

/-- What happens when a program calls at a site; nothing if the call ends with the record of the
settlement. -/
def event? (s : Site) : Effect → Option Event
  | .settle how =>
    match s.handling.settlement.claim how with
    | .error _ => none
    | .ok _ => some (.settled how (s.queueAnswer how))
  | .disposition => none
  | e => some (.called e (s.perform e).2)

@[simp] theorem event?_of_outside (s : Site) {e : Effect} (h : e.isOwn = false) :
    s.event? e = some (.called e (s.perform e).2) := by
  cases e with
  | settle how => simp [Effect.isOwn] at h
  | disposition => simp [Effect.isOwn] at h
  | _ => rfl

/-- A site goes through events: each is what a call at the site does and is answered with. -/
inductive Follows : Site → List Event → Site → Prop where
  | refl (s : Site) : Follows s [] s
  | settled {s s' : Site} {how : Settling} {st : Settlement} {events : List Event} :
      s.handling.settlement.claim how = .ok st → Follows (s.afterSettling how st) events s' →
      Follows s (.settled how (s.queueAnswer how) :: events) s'
  | called {s s' : Site} {e : Effect} {events : List Event} :
      e.isOwn = false → Follows (s.perform e).1 events s' →
      Follows s (.called e (s.perform e).2 :: events) s'
  | waited {s s' : Site} {p : Pause} {events : List Event} :
      s.ready p = true → Follows s events s' → Follows s (.waited p :: events) s'

end Site

namespace Program

variable {α : Type}

/-- What happens while a program is resumed at a site. -/
def trace : Program α → Site → List Event
  | .done _, _ => []
  | .call e rest, s => (s.event? e).toList ++ (rest (s.perform e).2).trace (s.perform e).1
  | .await p rest, s => if s.ready p then .waited p :: rest.trace s else []

/-- A program resumed at a site runs, and the site goes through what happens. -/
theorem resume_runs (x : Program α) (s : Site) :
    Runs x s.handling.settlement (x.trace s) (x.resume s).1.handling.settlement (x.resume s).2 ∧
      s.Follows (x.trace s) (x.resume s).1 := by
  induction x generalizing s with
  | done a => exact ⟨.refl _ _, .refl _⟩
  | call e rest ih =>
      by_cases own : e.isOwn = true
      · cases e with
        | settle how =>
            cases claim : s.handling.settlement.claim how with
            | error f =>
                obtain ⟨runs, follows⟩ := ih (.error f) s
                simp only [resume, trace, Site.event?, claim, Site.perform_settle,
                  s.settle_refused how claim]
                exact ⟨.refused claim runs, follows⟩
            | ok st =>
                obtain ⟨runs, follows⟩ :=
                  ih ((s.queueAnswer how).mapError .queue) (s.afterSettling how st)
                simp only [resume, trace, Site.event?, claim, Site.perform_settle,
                  s.settle_claimed how claim]
                exact ⟨.settled _ claim runs, .settled claim follows⟩
        | disposition =>
            obtain ⟨runs, follows⟩ := ih s.handling.settlement.disposition s
            exact ⟨.disposition runs, follows⟩
        | _ => simp [Effect.isOwn] at own
      · rw [Bool.not_eq_true] at own
        obtain ⟨runs, follows⟩ := ih (s.perform e).2 (s.perform e).1
        rw [s.perform_settlement e own] at runs
        simp only [resume, trace, s.event?_of_outside own]
        exact ⟨.called _ own runs, .called own follows⟩
  | await p rest ih =>
      by_cases ready : s.ready p = true
      · obtain ⟨runs, follows⟩ := ih s
        simp only [resume, trace, if_pos ready]
        exact ⟨.waited runs, .waited ready follows⟩
      · simp only [resume, trace, if_neg ready]
        exact ⟨.refl _ _, .refl _⟩

end Program

/-! ## Kinds of calls -/

namespace Program

variable {α β : Type} {ok ok' : Effect → Prop}

/-- A program all of whose calls are of some kind. -/
def Only (ok : Effect → Prop) : Program α → Prop
  | .done _ => True
  | .call e rest => ok e ∧ ∀ answer, (rest answer).Only ok
  | .await _ rest => rest.Only ok

theorem Only.mono (imp : ∀ e, ok e → ok' e) {x : Program α} (h : x.Only ok) : x.Only ok' := by
  induction x with
  | done a => trivial
  | call e rest ih => exact ⟨imp e h.1, fun answer => ih answer (h.2 answer)⟩
  | await p rest ih => exact ih h

theorem Only.bind {x : Program α} (h : x.Only ok) {f : α → Program β} (after : ∀ a, (f a).Only ok) :
    (x.bind f).Only ok := by
  induction x with
  | done a => exact after a
  | call e rest ih => exact ⟨h.1, fun answer => ih answer (h.2 answer)⟩
  | await p rest ih => exact ih h

theorem Only.resume {x : Program α} (h : x.Only ok) (s : Site) : (x.resume s).2.Only ok := by
  induction x generalizing s with
  | done a => trivial
  | call e rest ih => exact ih _ (h.2 _) _
  | await p rest ih =>
      simp only [Program.resume]
      split
      · exact ih h s
      · exact h

/-- What is called is of the kind. -/
theorem Only.called {x y : Program α} (h : x.Only ok) {st st' : Settlement} {events : List Event}
    (runs : Runs x st events st' y) {e : Effect} {answer : e.Answer}
    (mem : .called e answer ∈ events) : ok e := by
  induction runs with
  | refl => simp at mem
  | refused _ _ ih => exact ih (h.2 _) mem
  | settled _ _ _ ih => exact ih (h.2 _) (by simpa using mem)
  | disposition _ ih => exact ih (h.2 _) mem
  | called _ _ _ ih =>
      obtain same | mem := List.mem_cons.mp mem
      · cases same
        exact h.1
      · exact ih (h.2 _) mem
  | waited _ ih => exact ih h (by simpa using mem)

/-- What calls of a kind preserve holds after a program that makes only such calls was resumed. -/
theorem Only.preserve {x : Program α} (h : x.Only ok) {P : Site → Prop}
    (call : ∀ s e, ok e → P s → P (s.perform e).1) {s : Site} (start : P s) :
    P (x.resume s).1 := by
  induction x generalizing s with
  | done a => exact start
  | call e rest ih => exact ih _ (h.2 _) (call s e h.1 start)
  | await p rest ih =>
      simp only [Program.resume]
      split
      · exact ih h start
      · exact start

end Program

end Courier
