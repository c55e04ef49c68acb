import Courier.Proofs.Handling.Events

/-!
# Programs that differ in bookkeeping

Telling what happens, counting it, seeing to a correlation id and giving a slot back are
bookkeeping: they change neither what becomes of a delivery nor who handles it. A program
elaborates another if its runs are the runs of the other with bookkeeping in between, from the same
record of the settlement to the same record and the same result. The relation goes both ways: no
run of either is without its counterpart.

The rules below follow the shape of programs, so that a stage can be compared with a plainer
program once for whatever is inside of it.
-/

namespace Courier

namespace Event

/-- Whether an event is bookkeeping. -/
def isBookkeeping : Event → Bool
  | .called (.leave ..) _ => true
  | .called (.property key) _ => key == Properties.correlationId
  | .called (.setProperty key _) _ => key == Properties.correlationId
  | .called (.note _) _ => true
  | .called (.count _) _ => true
  | .called (.span _) _ => true
  | _ => false

end Event

/-- The first list of events is the second with bookkeeping in between. -/
inductive Bookkept : List Event → List Event → Prop where
  | nil : Bookkept [] []
  | keep {events plain : List Event} (e : Event) :
      Bookkept events plain → Bookkept (e :: events) (e :: plain)
  | extra {events plain : List Event} {e : Event} :
      e.isBookkeeping = true → Bookkept events plain → Bookkept (e :: events) plain

namespace Bookkept

variable {first second third first' second' : List Event}

theorem refl (events : List Event) : Bookkept events events := by
  induction events with
  | nil => exact .nil
  | cons e rest ih => exact .keep e ih

theorem append (h : Bookkept first second) (h' : Bookkept first' second') :
    Bookkept (first ++ first') (second ++ second') := by
  induction h with
  | nil => exact h'
  | keep e _ ih => exact .keep e ih
  | extra book _ ih => exact .extra book ih

theorem trans (h : Bookkept first second) (h' : Bookkept second third) :
    Bookkept first third := by
  induction h generalizing third with
  | nil => exact h'
  | extra book _ ih => exact .extra book (ih h')
  | keep e _ ih =>
      cases h' with
      | keep _ h' => exact .keep e (ih h')
      | extra book h' => exact .extra book (ih h')

end Bookkept

namespace Program

variable {α β : Type}

/-! ## Ends of programs by their first step -/

@[simp] theorem ends_done {a b : α} {st st' : Settlement} {events : List Event} :
    Ends (.done a) st events st' b ↔ events = [] ∧ st' = st ∧ b = a := by
  constructor
  · intro h
    cases h
    exact ⟨rfl, rfl, rfl⟩
  · rintro ⟨rfl, rfl, rfl⟩
    exact .refl _ _

theorem ends_bind {x : Program α} {f : α → Program β} {st st' : Settlement}
    {events : List Event} {b : β} :
    Ends (x.bind f) st events st' b ↔
      ∃ first a st₁ second, Ends x st first st₁ a ∧ Ends (f a) st₁ second st' b ∧
        events = first ++ second := by
  constructor
  · intro h
    obtain ⟨y, within, same⟩ | after := h.of_bind
    · cases y with
      | done a =>
          rw [done_bind] at same
          exact ⟨events, a, st', [], within, same ▸ .refl _ _, by simp⟩
      | call e rest => simp at same
      | await p rest => simp at same
    · exact after
  · rintro ⟨first, a, st₁, second, ends, after, rfl⟩
    exact (Runs.bind ends f).trans after

theorem ends_call {e : Effect} (h : e.isOwn = false) {rest : e.Answer → Program α}
    {st st' : Settlement} {events : List Event} {a : α} :
    Ends (.call e rest) st events st' a ↔
      ∃ answer after, events = .called e answer :: after ∧ Ends (rest answer) st after st' a := by
  constructor
  · intro ends
    cases ends with
    | refused => simp [Effect.isOwn] at h
    | settled => simp [Effect.isOwn] at h
    | disposition => simp [Effect.isOwn] at h
    | called answer _ ends => exact ⟨answer, _, rfl, ends⟩
  · rintro ⟨answer, after, rfl, ends⟩
    exact .called answer h ends

theorem ends_await {p : Pause} {rest : Program α} {st st' : Settlement} {events : List Event}
    {a : α} :
    Ends (.await p rest) st events st' a ↔
      ∃ after, events = .waited p :: after ∧ Ends rest st after st' a := by
  constructor
  · intro ends
    cases ends with
    | waited ends => exact ⟨_, rfl, ends⟩
  · rintro ⟨after, rfl, ends⟩
    exact .waited ends

theorem ends_disposition {rest : Option Disposition → Program α} {st st' : Settlement}
    {events : List Event} {a : α} :
    Ends (.call .disposition rest) st events st' a ↔
      Ends (rest st.disposition) st events st' a := by
  constructor
  · intro ends
    cases ends with
    | disposition ends => exact ends
    | called _ outside _ => simp [Effect.isOwn] at outside
  · exact .disposition

theorem ends_settle_refused {how first : Settling}
    {rest : Except SettlementFault Unit → Program α} {st' : Settlement} {events : List Event}
    {a : α} :
    Ends (.call (.settle how) rest) ⟨some first⟩ events st' a ↔
      Ends (rest (.error (.alreadySettled first.disposition how.disposition))) ⟨some first⟩
        events st' a := by
  constructor
  · intro ends
    cases ends with
    | refused claim ends =>
        rw [Settlement.claim_claimed, Except.error.injEq] at claim
        exact claim ▸ ends
    | settled _ claim _ => simp at claim
    | called _ outside _ => simp [Effect.isOwn] at outside
  · exact .refused (Settlement.claim_claimed first how)

theorem ends_settle_first {how : Settling} {rest : Except SettlementFault Unit → Program α}
    {st' : Settlement} {events : List Event} {a : α} :
    Ends (.call (.settle how) rest) {} events st' a ↔
      ∃ answer after, events = .settled how answer :: after ∧
        Ends (rest (answer.mapError .queue)) ⟨some how⟩ after st' a := by
  constructor
  · intro ends
    cases ends with
    | refused claim _ => simp at claim
    | settled answer claim ends =>
        rw [Settlement.claim_new, Except.ok.injEq] at claim
        exact ⟨answer, _, rfl, claim ▸ ends⟩
    | called _ outside _ => simp [Effect.isOwn] at outside
  · rintro ⟨answer, after, rfl, ends⟩
    exact .settled answer (Settlement.claim_new how) ends

/-! ## Elaboration -/

/-- From a record of the settlement, the first program does what the second does, and some
bookkeeping besides. -/
structure Elaborates (st : Settlement) (x y : Program α) : Prop where
  down : ∀ {events st' a}, Ends x st events st' a →
    ∃ plain, Ends y st plain st' a ∧ Bookkept events plain
  up : ∀ {plain st' a}, Ends y st plain st' a →
    ∃ events, Ends x st events st' a ∧ Bookkept events plain

namespace Elaborates

variable {st : Settlement} {x y z : Program α}

theorem refl (st : Settlement) (x : Program α) : Elaborates st x x where
  down ends := ⟨_, ends, .refl _⟩
  up ends := ⟨_, ends, .refl _⟩

theorem trans (h : Elaborates st x y) (h' : Elaborates st y z) : Elaborates st x z where
  down ends := by
    obtain ⟨between, ends, book⟩ := h.down ends
    obtain ⟨plain, ends, book'⟩ := h'.down ends
    exact ⟨plain, ends, book.trans book'⟩
  up ends := by
    obtain ⟨between, ends, book⟩ := h'.up ends
    obtain ⟨events, ends, book'⟩ := h.up ends
    exact ⟨events, ends, book'.trans book⟩

theorem bind {f g : α → Program β} (h : Elaborates st x y)
    (rest : ∀ st' a, Elaborates st' (f a) (g a)) :
    Elaborates st (x.bind f) (y.bind g) where
  down whole := by
    obtain ⟨first, a, st₁, second, ends, after, rfl⟩ := ends_bind.mp whole
    obtain ⟨plain, ends, book⟩ := h.down ends
    obtain ⟨plain', after, book'⟩ := (rest st₁ a).down after
    exact ⟨plain ++ plain', ends_bind.mpr ⟨_, _, _, _, ends, after, rfl⟩, book.append book'⟩
  up whole := by
    obtain ⟨first, a, st₁, second, ends, after, rfl⟩ := ends_bind.mp whole
    obtain ⟨events, ends, book⟩ := h.up ends
    obtain ⟨events', after, book'⟩ := (rest st₁ a).up after
    exact ⟨events ++ events', ends_bind.mpr ⟨_, _, _, _, ends, after, rfl⟩, book.append book'⟩

/-- What only adds bookkeeping to each result adds bookkeeping to the program. -/
theorem of_results {f : α → Program α} (rest : ∀ st' a, Elaborates st' (f a) (.done a)) :
    Elaborates st (x.bind f) x := by
  have h := (refl st x).bind rest
  rwa [bind_done] at h

/-- The same call on both sides. -/
theorem call {e : Effect} (outside : e.isOwn = false) {f g : e.Answer → Program α}
    (rest : ∀ answer, Elaborates st (f answer) (g answer)) :
    Elaborates st (.call e f) (.call e g) where
  down whole := by
    obtain ⟨answer, after, rfl, ends⟩ := (ends_call outside).mp whole
    obtain ⟨plain, ends, book⟩ := (rest answer).down ends
    exact ⟨_, (ends_call outside).mpr ⟨answer, plain, rfl, ends⟩, .keep _ book⟩
  up whole := by
    obtain ⟨answer, after, rfl, ends⟩ := (ends_call outside).mp whole
    obtain ⟨events, ends, book⟩ := (rest answer).up ends
    exact ⟨_, (ends_call outside).mpr ⟨answer, events, rfl, ends⟩, .keep _ book⟩

/-- The same pause on both sides. -/
theorem await (p : Pause) (rest : Elaborates st x y) :
    Elaborates st (.await p x) (.await p y) where
  down whole := by
    obtain ⟨after, rfl, ends⟩ := ends_await.mp whole
    obtain ⟨plain, ends, book⟩ := rest.down ends
    exact ⟨_, ends_await.mpr ⟨plain, rfl, ends⟩, .keep _ book⟩
  up whole := by
    obtain ⟨after, rfl, ends⟩ := ends_await.mp whole
    obtain ⟨events, ends, book⟩ := rest.up ends
    exact ⟨_, ends_await.mpr ⟨events, rfl, ends⟩, .keep _ book⟩

/-- The same first settlement on both sides, whatever the queue answers. -/
theorem settle {how : Settling} {f g : Except SettlementFault Unit → Program α}
    (rest : ∀ answer : Except QueueFault Unit,
      Elaborates ⟨some how⟩ (f (answer.mapError .queue)) (g (answer.mapError .queue))) :
    Elaborates {} (.call (.settle how) f) (.call (.settle how) g) where
  down whole := by
    obtain ⟨answer, after, rfl, ends⟩ := ends_settle_first.mp whole
    obtain ⟨plain, ends, book⟩ := (rest answer).down ends
    exact ⟨_, ends_settle_first.mpr ⟨answer, plain, rfl, ends⟩, .keep _ book⟩
  up whole := by
    obtain ⟨answer, after, rfl, ends⟩ := ends_settle_first.mp whole
    obtain ⟨events, ends, book⟩ := (rest answer).up ends
    exact ⟨_, ends_settle_first.mpr ⟨answer, events, rfl, ends⟩, .keep _ book⟩

/-- Bookkeeping before what elaborates a program. -/
theorem extra {e : Effect} {f : e.Answer → Program α} [Inhabited e.Answer]
    (outside : e.isOwn = false) (book : ∀ answer, (Event.called e answer).isBookkeeping = true)
    (rest : ∀ answer, Elaborates st (f answer) y) : Elaborates st (.call e f) y where
  down whole := by
    obtain ⟨answer, after, rfl, ends⟩ := (ends_call outside).mp whole
    obtain ⟨plain, ends, kept⟩ := (rest answer).down ends
    exact ⟨plain, ends, .extra (book answer) kept⟩
  up ends := by
    obtain ⟨events, ends, kept⟩ := (rest default).up ends
    exact ⟨_, (ends_call outside).mpr ⟨default, events, rfl, ends⟩, .extra (book default) kept⟩

theorem disposition_left {f : Option Disposition → Program α}
    (h : Elaborates st (f st.disposition) y) : Elaborates st (.call .disposition f) y where
  down ends := h.down (ends_disposition.mp ends)
  up ends := by
    obtain ⟨events, ends, book⟩ := h.up ends
    exact ⟨events, ends_disposition.mpr ends, book⟩

theorem disposition_right {f : Option Disposition → Program α}
    (h : Elaborates st x (f st.disposition)) : Elaborates st x (.call .disposition f) where
  down ends := by
    obtain ⟨plain, ends, book⟩ := h.down ends
    exact ⟨plain, ends_disposition.mpr ends, book⟩
  up ends := h.up (ends_disposition.mp ends)

theorem refused_left {how first : Settling} {f : Except SettlementFault Unit → Program α}
    (h : Elaborates ⟨some first⟩
      (f (.error (.alreadySettled first.disposition how.disposition))) y) :
    Elaborates ⟨some first⟩ (.call (.settle how) f) y where
  down ends := h.down (ends_settle_refused.mp ends)
  up ends := by
    obtain ⟨events, ends, book⟩ := h.up ends
    exact ⟨events, ends_settle_refused.mpr ends, book⟩

theorem refused_right {how first : Settling} {f : Except SettlementFault Unit → Program α}
    (h : Elaborates ⟨some first⟩ x
      (f (.error (.alreadySettled first.disposition how.disposition)))) :
    Elaborates ⟨some first⟩ x (.call (.settle how) f) where
  down ends := by
    obtain ⟨plain, ends, book⟩ := h.down ends
    exact ⟨plain, ends_settle_refused.mpr ends, book⟩
  up ends := h.up (ends_settle_refused.mp ends)

end Elaborates

end Program

end Courier
