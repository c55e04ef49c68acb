import Courier.Proofs.Handling.Plain
import Mathlib.Data.List.Induction

/-!
# Stages one inside the other

Most stages do something before the service inside of them, something after it, or both. Before it
they may see to it that the service is not called at all, because they fail or because they pass
without it; after it they do something only if it has passed, and may then fail still. Such a stage
is a `Layer`.

A way through a list of layers is told leg by leg: what came before the service of which layer, the
service in the middle, and what came after it. The service that `compose` makes of the layers runs
by just those ways that an `Itinerary` allows (`compose_ends_iff`): it goes in from the last layer
to the first, as far as it is let in, and then out again, the first layer first, until something
goes wrong (`Ordered`).
-/

namespace Courier

open Program (Ends ends_bind ends_done)

/-- What is done before and after the service that a stage is put around. -/
structure Layer where
  /-- Ends with a verdict if the service is not to be called. -/
  before : Context → Program (Option (Verdict ProcessingFault))
  after : Context → Service

namespace Layer

/-- What follows what has come of the service inside. -/
def leave (l : Layer) (ctx : Context) : Verdict ProcessingFault → Service
  | .passed => l.after ctx
  | verdict => .done verdict

/-- What follows what was done before the service inside. -/
def enter (l : Layer) (ctx : Context) (inner : Service) :
    Option (Verdict ProcessingFault) → Service
  | some verdict => .done verdict
  | none => inner.bind (l.leave ctx)

def stage (l : Layer) : Stage := fun ctx inner => (l.before ctx).bind (l.enter ctx inner)

/-- A part of a way through layers, which are known by their places. -/
inductive Part where
  | before (place : Nat)
  | terminal
  | after (place : Nat)
  deriving DecidableEq

/-- A part of a way with what happened on it. If nothing has come of it, the way leads on to what is
inside. -/
structure Leg where
  part : Part
  events : List Event
  outcome : Option (Verdict ProcessingFault)

variable {ls : List Layer} {ctx : Context} {t : Service} {st st₁ st' : Settlement}

/-- The part of a way does what its layer, or the terminal, says. -/
inductive Ran (ls : List Layer) (ctx : Context) (t : Service) :
    Settlement → Leg → Settlement → Prop where
  | before {k : Nat} {l : Layer} {st st' : Settlement} {events : List Event}
      {outcome : Option (Verdict ProcessingFault)} :
      ls[k]? = some l → Ends (l.before ctx) st events st' outcome →
      Ran ls ctx t st ⟨.before k, events, outcome⟩ st'
  | terminal {st st' : Settlement} {events : List Event} {v : Verdict ProcessingFault} :
      Ends t st events st' v → Ran ls ctx t st ⟨.terminal, events, some v⟩ st'
  | after {k : Nat} {l : Layer} {st st' : Settlement} {events : List Event}
      {v : Verdict ProcessingFault} :
      ls[k]? = some l → Ends (l.after ctx) st events st' v →
      Ran ls ctx t st ⟨.after k, events, some v⟩ st'

/-- One leg after the other. -/
inductive Travels (ls : List Layer) (ctx : Context) (t : Service) :
    Settlement → List Leg → Settlement → Prop where
  | stay (st : Settlement) : Travels ls ctx t st [] st
  | go {st st₁ st' : Settlement} {leg : Leg} {legs : List Leg} :
      Ran ls ctx t st leg st₁ → Travels ls ctx t st₁ legs st' →
      Travels ls ctx t st (leg :: legs) st'

/-- The ways through `n` layers, with what comes of them. -/
inductive Itinerary : Nat → List Leg → Verdict ProcessingFault → Prop where
  | terminal (events : List Event) (v : Verdict ProcessingFault) :
      Itinerary 0 [⟨.terminal, events, some v⟩] v
  /-- The outermost layer lets nothing in. -/
  | stops (n : Nat) (events : List Event) (v : Verdict ProcessingFault) :
      Itinerary (n + 1) [⟨.before n, events, some v⟩] v
  /-- Something went wrong further inside. -/
  | breaks {n : Nat} {legs : List Leg} {v : Verdict ProcessingFault} (events : List Event) :
      Itinerary n legs v → v ≠ .passed →
      Itinerary (n + 1) (⟨.before n, events, none⟩ :: legs) v
  | passes {n : Nat} {legs : List Leg} (events events' : List Event)
      (v : Verdict ProcessingFault) : Itinerary n legs .passed →
      Itinerary (n + 1) (⟨.before n, events, none⟩ :: (legs ++ [⟨.after n, events', some v⟩])) v

theorem ends_stage {l : Layer} {inner : Service} {events : List Event}
    {v : Verdict ProcessingFault} :
    Ends (l.stage ctx inner) st events st' v ↔
      Ends (l.before ctx) st events st' (some v) ∨
        ∃ first st₁ second st₂ u, Ends (l.before ctx) st first st₁ none ∧
          Ends inner st₁ second st₂ u ∧
            ((u ≠ .passed ∧ v = u ∧ st' = st₂ ∧ events = first ++ second) ∨
              ∃ third, u = .passed ∧ Ends (l.after ctx) st₂ third st' v ∧
                events = first ++ (second ++ third)) := by
  rw [stage, ends_bind]
  constructor
  · rintro ⟨first, outcome, st₁, rest, before, entered, rfl⟩
    cases outcome with
    | some w =>
        obtain ⟨rfl, rfl, rfl⟩ := ends_done.mp entered
        rw [List.append_nil]
        exact .inl before
    | none =>
        obtain ⟨second, u, st₂, third, within, left, rfl⟩ := ends_bind.mp entered
        refine .inr ⟨first, st₁, second, st₂, u, before, within, ?_⟩
        cases u with
        | passed => exact .inr ⟨third, rfl, left, rfl⟩
        | failed | panicked =>
            obtain ⟨rfl, rfl, rfl⟩ := ends_done.mp left
            exact .inl ⟨nofun, rfl, rfl, by rw [List.append_nil]⟩
  · rintro (before | ⟨first, st₁, second, st₂, u, before, within, left⟩)
    · exact ⟨events, some v, st', [], before, ends_done.mpr ⟨rfl, rfl, rfl⟩, by simp⟩
    · obtain ⟨wrong, rfl, rfl, rfl⟩ | ⟨third, rfl, after, rfl⟩ := left
      · refine ⟨first, none, st₁, second, before, ?_, rfl⟩
        refine ends_bind.mpr ⟨second, v, st', [], within, ?_, by simp⟩
        cases v with
        | passed => exact absurd rfl wrong
        | failed | panicked => exact ends_done.mpr ⟨rfl, rfl, rfl⟩
      · refine ⟨first, none, st₁, second ++ third, before, ?_, rfl⟩
        exact ends_bind.mpr ⟨second, .passed, st₂, third, within, after, rfl⟩

/-! ## Ways -/

theorem travels_nil : Travels ls ctx t st [] st' ↔ st' = st := by
  constructor
  · intro travels
    cases travels
    rfl
  · rintro rfl
    exact .stay st'

theorem travels_cons {leg : Leg} {legs : List Leg} : Travels ls ctx t st (leg :: legs) st' ↔
    ∃ st₁, Ran ls ctx t st leg st₁ ∧ Travels ls ctx t st₁ legs st' := by
  constructor
  · intro travels
    cases travels with
    | go ran rest => exact ⟨_, ran, rest⟩
  · rintro ⟨st₁, ran, rest⟩
    exact .go ran rest

theorem travels_append {legs legs' : List Leg} : Travels ls ctx t st (legs ++ legs') st' ↔
    ∃ st₁, Travels ls ctx t st legs st₁ ∧ Travels ls ctx t st₁ legs' st' := by
  induction legs generalizing st with
  | nil => simp [travels_nil]
  | cons leg legs ih =>
      simp only [List.cons_append, travels_cons, ih]
      constructor
      · rintro ⟨st₁, ran, st₂, first, second⟩
        exact ⟨st₂, ⟨st₁, ran, first⟩, second⟩
      · rintro ⟨st₂, ⟨st₁, ran, first⟩, second⟩
        exact ⟨st₁, ran, st₂, first, second⟩

/-- Whether a part is of the first `n` layers, or the terminal. -/
def Part.Within (n : Nat) : Part → Prop
  | before k | after k => k < n
  | terminal => True

/-- A layer that is put around others does not change their parts. -/
theorem ran_concat {l : Layer} {leg : Leg} (within : leg.part.Within ls.length) :
    Ran (ls ++ [l]) ctx t st leg st' ↔ Ran ls ctx t st leg st' := by
  have same {k : Nat} (inside : k < ls.length) : (ls ++ [l])[k]? = ls[k]? :=
    List.getElem?_append_left inside
  constructor
  · intro ran
    cases ran with
    | before at' ends => exact .before (same within ▸ at') ends
    | terminal ends => exact .terminal ends
    | after at' ends => exact .after (same within ▸ at') ends
  · intro ran
    cases ran with
    | before at' ends => exact .before ((same within).trans at') ends
    | terminal ends => exact .terminal ends
    | after at' ends => exact .after ((same within).trans at') ends

theorem travels_concat {l : Layer} {legs : List Leg}
    (within : ∀ leg ∈ legs, leg.part.Within ls.length) :
    Travels (ls ++ [l]) ctx t st legs st' ↔ Travels ls ctx t st legs st' := by
  induction legs generalizing st with
  | nil => simp only [travels_nil]
  | cons leg legs ih =>
      have inside := List.forall_mem_cons.mp within
      simp only [travels_cons, ran_concat inside.1, ih inside.2]

theorem ran_before_last {l : Layer} {events : List Event}
    {outcome : Option (Verdict ProcessingFault)} :
    Ran (ls ++ [l]) ctx t st ⟨.before ls.length, events, outcome⟩ st' ↔
      Ends (l.before ctx) st events st' outcome := by
  constructor
  · intro ran
    cases ran with
    | before at' ends =>
        rw [List.getElem?_concat_length, Option.some.injEq] at at'
        exact at' ▸ ends
  · exact .before List.getElem?_concat_length

theorem ran_after_last {l : Layer} {events : List Event} {v : Verdict ProcessingFault} :
    Ran (ls ++ [l]) ctx t st ⟨.after ls.length, events, some v⟩ st' ↔
      Ends (l.after ctx) st events st' v := by
  constructor
  · intro ran
    cases ran with
    | after at' ends =>
        rw [List.getElem?_concat_length, Option.some.injEq] at at'
        exact at' ▸ ends
  · exact .after List.getElem?_concat_length

theorem Itinerary.within {n : Nat} {legs : List Leg} {v : Verdict ProcessingFault}
    (way : Itinerary n legs v) : ∀ leg ∈ legs, leg.part.Within n := by
  have wider {part : Part} {n : Nat} (inside : part.Within n) : part.Within (n + 1) := by
    cases part with
    | before k | after k => exact Nat.lt_succ_of_lt inside
    | terminal => exact trivial
  induction way with
  | terminal => simp [Part.Within]
  | stops n => simp [Part.Within]
  | breaks _ _ _ ih =>
      exact List.forall_mem_cons.mpr ⟨Nat.lt_succ_self _, fun leg mem => wider (ih leg mem)⟩
  | passes _ _ _ _ ih =>
      refine List.forall_mem_cons.mpr ⟨Nat.lt_succ_self _, fun leg mem => ?_⟩
      obtain mem | mem := List.mem_append.mp mem
      · exact wider (ih leg mem)
      · obtain rfl := List.mem_singleton.mp mem
        exact Nat.lt_succ_self _

/-- The service that is made of layers runs by the ways through them, and by no others. -/
theorem compose_ends_iff {ls : List Layer} {st st' : Settlement} {events : List Event}
    {v : Verdict ProcessingFault} :
    Ends (compose (ls.map stage) ctx t) st events st' v ↔
      ∃ legs, Itinerary ls.length legs v ∧ Travels ls ctx t st legs st' ∧
        events = legs.flatMap (·.events) := by
  induction ls using List.reverseRecOn generalizing st events st' v with
  | nil =>
      constructor
      · intro ends
        exact ⟨_, .terminal events v, .go (.terminal ends) (.stay st'), by simp⟩
      · rintro ⟨legs, way, travels, rfl⟩
        cases way with
        | terminal events =>
            obtain ⟨st₁, ran, stays⟩ := travels_cons.mp travels
            obtain rfl := travels_nil.mp stays
            cases ran with
            | terminal ends => simpa using ends
  | append_singleton ls l ih =>
      rw [List.map_append, compose_append, List.map_singleton, compose_cons, compose_nil,
        ends_stage, List.length_append, List.length_singleton]
      constructor
      · rintro (before | ⟨first, st₁, second, st₂, u, before, within, left⟩)
        · refine ⟨_, .stops ls.length events v, ?_, by simp⟩
          exact .go (ran_before_last.mpr before) (.stay st')
        · obtain ⟨legs, way, travels, rfl⟩ := ih.mp within
          have entered : Ran (ls ++ [l]) ctx t st ⟨.before ls.length, first, none⟩ st₁ :=
            ran_before_last.mpr before
          rw [← travels_concat way.within] at travels
          obtain ⟨wrong, rfl, rfl, rfl⟩ | ⟨third, rfl, after, rfl⟩ := left
          · exact ⟨_, way.breaks first wrong, .go entered travels, rfl⟩
          · have left : Ran (ls ++ [l]) ctx t st₂ ⟨.after ls.length, third, some v⟩ st' :=
              ran_after_last.mpr after
            refine ⟨_, way.passes first third v, .go entered ?_, by simp⟩
            exact travels_append.mpr ⟨st₂, travels, .go left (.stay st')⟩
      · rintro ⟨legs, way, travels, rfl⟩
        cases way with
        | stops n first =>
            obtain ⟨st₁, ran, stays⟩ := travels_cons.mp travels
            obtain rfl := travels_nil.mp stays
            exact .inl (by simpa using ran_before_last.mp ran)
        | breaks first way wrong =>
            obtain ⟨st₁, ran, travels⟩ := travels_cons.mp travels
            rw [travels_concat way.within] at travels
            refine .inr ⟨first, st₁, _, st', v, ran_before_last.mp ran,
              ih.mpr ⟨_, way, travels, rfl⟩, .inl ⟨wrong, rfl, rfl, rfl⟩⟩
        | passes first third v way =>
            obtain ⟨st₁, ran, travels⟩ := travels_cons.mp travels
            obtain ⟨st₂, travels, back⟩ := travels_append.mp travels
            obtain ⟨st₃, left, stays⟩ := travels_cons.mp back
            obtain rfl := travels_nil.mp stays
            rw [travels_concat way.within] at travels
            refine .inr ⟨first, st₁, _, st₂, .passed, ran_before_last.mp ran,
              ih.mpr ⟨_, way, travels, rfl⟩, .inr ⟨third, rfl, ran_after_last.mp left, by simp⟩⟩

/-! ## Their order -/

/-- The parts on the way in, from the last of `n` layers to the one at place `d`. -/
def inward (d n : Nat) : List Part := (List.range' d (n - d)).reverse.map .before

/-- The parts on the way out, from the layer at place `d` up to the `m`-th. -/
def outward (d m : Nat) : List Part := (List.range' d (m - d)).map .after

/-- Where a way turns that has `d` layers left inside. -/
def turn : Nat → Part
  | 0 => .terminal
  | k + 1 => .before k

@[simp] theorem inward_self (n : Nat) : inward n n = [] := by simp [inward]

@[simp] theorem outward_self (n : Nat) : outward n n = [] := by simp [outward]

theorem inward_succ {d n : Nat} (le : d ≤ n) : inward d (n + 1) = .before n :: inward d n := by
  have last : List.range' d (n + 1 - d) = List.range' d (n - d) ++ [n] := by
    rw [Nat.sub_add_comm le, List.range'_concat, Nat.one_mul, Nat.add_sub_of_le le]
  rw [inward, last, List.reverse_append, List.reverse_singleton, List.singleton_append,
    List.map_cons, inward]

theorem outward_succ {d m : Nat} (le : d ≤ m) :
    outward d (m + 1) = outward d m ++ [.after m] := by
  rw [outward, Nat.sub_add_comm le, List.range'_concat, Nat.one_mul, Nat.add_sub_of_le le,
    List.map_append, List.map_singleton, outward]

/-- Whether a way goes on after a leg as if the layer were not there. -/
def Leg.GoesOn (leg : Leg) : Prop :=
  match leg.part with
  | .before _ => leg.outcome = none
  | .terminal | .after _ => leg.outcome = some .passed

/-- Whether a part would come after one has gone inside of the layer at a place. -/
def Part.Inside (k : Nat) : Part → Prop
  | before j => j < k
  | terminal => True
  | after j => j ≤ k

/-- The order in which the parts of `n` layers come. -/
structure Ordered (n : Nat) (legs : List Leg) (v : Verdict ProcessingFault) : Prop where
  /-- In from the last layer, to the terminal or a layer that stops, and out from there in order;
  all the way out if it passes. -/
  parts : ∃ d m, d ≤ m ∧ m ≤ n ∧ legs.map (·.part) = inward d n ++ turn d :: outward d m ∧
    (v = .passed → m = n)
  /-- If no layer stops, the terminal runs and then what comes after it, for every layer. -/
  through : (∀ leg ∈ legs, leg.GoesOn) →
    legs.map (·.part) = inward 0 n ++ .terminal :: outward 0 n ∧ v = .passed
  /-- Each layer is reached, unless one further out stops. -/
  reached : ∀ k < n, (∃ leg ∈ legs, leg.part = .before k) ∨
    ∃ leg ∈ legs, ∃ j w, k < j ∧ leg.part = .before j ∧ leg.outcome = some w
  /-- Nothing runs inside of a layer that stops. -/
  stopped : ∀ leg ∈ legs, ∀ k w, leg.part = .before k → leg.outcome = some w →
    ∀ other ∈ legs, ¬other.part.Inside k
  /-- Nothing runs after something has gone wrong, and that is what comes of it. -/
  failed : ∀ leg ∈ legs, ∀ w, leg.outcome = some w → w ≠ .passed →
    legs.getLast? = some leg ∧ v = w
  verdict : ∃ leg, legs.getLast? = some leg ∧ leg.outcome = some v

namespace Itinerary

variable {n : Nat} {legs : List Leg} {v : Verdict ProcessingFault}

theorem parts (way : Itinerary n legs v) : ∃ d m, d ≤ m ∧ m ≤ n ∧
    legs.map (·.part) = inward d n ++ turn d :: outward d m ∧ (v = .passed → m = n) := by
  induction way with
  | terminal => exact ⟨0, 0, Nat.le_refl 0, Nat.le_refl 0, by simp [turn], fun _ => rfl⟩
  | stops n => exact ⟨n + 1, n + 1, Nat.le_refl _, Nat.le_refl _, by simp [turn], fun _ => rfl⟩
  | breaks events _ wrong ih =>
      obtain ⟨d, m, dm, mn, parts, _⟩ := ih
      refine ⟨d, m, dm, Nat.le_succ_of_le mn, ?_, fun passed => absurd passed wrong⟩
      rw [List.map_cons, parts, inward_succ (Nat.le_trans dm mn), List.cons_append]
  | passes events events' v _ ih =>
      obtain ⟨d, m, dm, mn, parts, out⟩ := ih
      obtain rfl := out rfl
      refine ⟨d, m + 1, Nat.le_succ_of_le dm, Nat.le_refl _, ?_, fun _ => rfl⟩
      rw [List.map_cons, List.map_append, parts, inward_succ dm, outward_succ dm]
      simp

theorem through (way : Itinerary n legs v) (goesOn : ∀ leg ∈ legs, leg.GoesOn) :
    legs.map (·.part) = inward 0 n ++ .terminal :: outward 0 n ∧ v = .passed := by
  induction way with
  | terminal events v =>
      have passed : some v = some .passed := goesOn _ (List.mem_singleton_self _)
      exact ⟨by simp, Option.some.inj passed⟩
  | stops n events v =>
      have no : some v = none := goesOn _ (List.mem_singleton_self _)
      cases no
  | breaks events _ wrong ih =>
      exact absurd (ih fun leg mem => goesOn leg (List.mem_cons_of_mem _ mem)).2 wrong
  | @passes n legs events events' v _ ih =>
      have passed : some v = some .passed := goesOn ⟨.after n, events', some v⟩ (by simp)
      obtain ⟨parts, _⟩ := ih fun leg mem => goesOn leg (by simp [mem])
      refine ⟨?_, Option.some.inj passed⟩
      rw [List.map_cons, List.map_append, parts, inward_succ n.zero_le, outward_succ n.zero_le]
      simp

theorem getLast? (way : Itinerary n legs v) :
    ∃ leg, legs.getLast? = some leg ∧ leg.outcome = some v := by
  induction way with
  | terminal | stops => exact ⟨_, rfl, rfl⟩
  | breaks events _ _ ih =>
      obtain ⟨leg, last, outcome⟩ := ih
      exact ⟨leg, by rw [List.getLast?_cons, last]; rfl, outcome⟩
  | @passes n legs events events' v _ _ =>
      refine ⟨⟨.after n, events', some v⟩, ?_, rfl⟩
      rw [List.getLast?_cons, List.getLast?_concat]
      rfl

theorem reached (way : Itinerary n legs v) {k : Nat} (lt : k < n) :
    (∃ leg ∈ legs, leg.part = .before k) ∨
      ∃ leg ∈ legs, ∃ j w, k < j ∧ leg.part = .before j ∧ leg.outcome = some w := by
  -- the outermost layer is always reached, and what is reached inside of it is reached
  have outer {n : Nat} {first : Leg} {inner rest : List Leg} (subset : inner ⊆ rest)
      (here : first.part = .before n) (ih : k < n → (∃ leg ∈ inner, leg.part = .before k) ∨
        ∃ leg ∈ inner, ∃ j w, k < j ∧ leg.part = .before j ∧ leg.outcome = some w)
      (lt : k < n + 1) : (∃ leg ∈ first :: rest, leg.part = .before k) ∨
        ∃ leg ∈ first :: rest, ∃ j w, k < j ∧ leg.part = .before j ∧ leg.outcome = some w := by
    obtain rfl | lt := Nat.eq_or_lt_of_le (Nat.le_of_lt_succ lt)
    · exact .inl ⟨first, List.mem_cons_self, here⟩
    · obtain ⟨leg, mem, same⟩ | ⟨leg, mem, stopped⟩ := ih lt
      · exact .inl ⟨leg, List.mem_cons_of_mem _ (subset mem), same⟩
      · exact .inr ⟨leg, List.mem_cons_of_mem _ (subset mem), stopped⟩
  induction way with
  | terminal => exact absurd lt (Nat.not_lt_zero k)
  | stops n events v =>
      obtain rfl | lt := Nat.eq_or_lt_of_le (Nat.le_of_lt_succ lt)
      · exact .inl ⟨_, List.mem_singleton_self _, rfl⟩
      · exact .inr ⟨_, List.mem_singleton_self _, n, v, lt, rfl, rfl⟩
  | breaks _ _ _ ih => exact outer (List.Subset.refl _) rfl ih lt
  | passes _ _ _ _ ih => exact outer (List.subset_append_left _ _) rfl ih lt

theorem stopped (way : Itinerary n legs v) {leg other : Leg} {k : Nat}
    {w : Verdict ProcessingFault} (mem : leg ∈ legs) (here : leg.part = .before k)
    (stops : leg.outcome = some w) (mem' : other ∈ legs) : ¬other.part.Inside k := by
  induction way with
  | terminal =>
      obtain rfl := List.mem_singleton.mp mem
      cases here
  | stops n events v =>
      obtain rfl := List.mem_singleton.mp mem
      obtain rfl := List.mem_singleton.mp mem'
      cases here
      exact Nat.lt_irrefl _
  | @breaks n legs v events way _ ih =>
      obtain rfl | mem := List.mem_cons.mp mem
      · cases stops
      · have inside : k < n := by simpa [here, Part.Within] using way.within leg mem
        obtain rfl | mem' := List.mem_cons.mp mem'
        · exact Nat.lt_asymm inside
        · exact ih mem mem'
  | @passes n legs events events' v way ih =>
      obtain rfl | mem := List.mem_cons.mp mem
      · cases stops
      · obtain mem | mem := List.mem_append.mp mem
        · have inside : k < n := by simpa [here, Part.Within] using way.within leg mem
          obtain rfl | mem' := List.mem_cons.mp mem'
          · exact Nat.lt_asymm inside
          · obtain mem' | mem' := List.mem_append.mp mem'
            · exact ih mem mem'
            · obtain rfl := List.mem_singleton.mp mem'
              exact Nat.not_le_of_lt inside
        · obtain rfl := List.mem_singleton.mp mem
          cases here

theorem failed (way : Itinerary n legs v) {leg : Leg} {w : Verdict ProcessingFault}
    (mem : leg ∈ legs) (outcome : leg.outcome = some w) (wrong : w ≠ .passed) :
    legs.getLast? = some leg ∧ v = w := by
  induction way with
  | terminal | stops =>
      obtain rfl := List.mem_singleton.mp mem
      exact ⟨rfl, Option.some.inj outcome⟩
  | breaks events _ _ ih =>
      obtain rfl | mem := List.mem_cons.mp mem
      · cases outcome
      · obtain ⟨last, same⟩ := ih mem
        exact ⟨by rw [List.getLast?_cons, last]; rfl, same⟩
  | passes events events' v _ ih =>
      obtain rfl | mem := List.mem_cons.mp mem
      · cases outcome
      · obtain mem | mem := List.mem_append.mp mem
        · exact absurd (ih mem).2.symm wrong
        · obtain rfl := List.mem_singleton.mp mem
          refine ⟨?_, Option.some.inj outcome⟩
          rw [List.getLast?_cons, List.getLast?_concat]
          rfl

theorem ordered (way : Itinerary n legs v) : Ordered n legs v where
  parts := way.parts
  through := way.through
  reached _ := way.reached
  stopped _ mem _ _ here stops _ := way.stopped mem here stops
  failed _ mem _ := way.failed mem
  verdict := way.getLast?

end Itinerary

/-! ## Stages that are layers -/

theorem bind_leave {l : Layer} (idle : l.after ctx = .done .passed) (inner : Service) :
    inner.bind (l.leave ctx) = inner := by
  have same : l.leave ctx = .done := by
    funext v
    cases v with
    | passed => exact idle
    | failed | panicked => rfl
  rw [same, Program.bind_done]

/-- What a scripted stage does before and after the service, unless it heeds what goes wrong
there. -/
def ofScripted : ScriptedStage → Option Layer
  | .record _ | .swallow => none
  | .skip => some ⟨fun _ => .done (some .passed), fun _ => .done .passed⟩
  | .failBefore fault => some ⟨fun _ => .done (some (.failed fault)), fun _ => .done .passed⟩
  | .failAfter fault => some ⟨fun _ => .done none, fun _ => .done (.failed fault)⟩
  | .panic text => some ⟨fun _ => .done (some (.panicked (some text))), fun _ => .done .passed⟩
  | .settleBefore how goOn => some
    { before _ := (Program.perform (.settle how)).bind fun
        | .error f => .done (some (.failed (.settlement f)))
        | .ok () => .done (if goOn then none else some .passed)
      after _ := .done .passed }
  | .set key value => some
    { before _ := (Program.perform (.setProperty key value)).bind fun _ => .done none
      after _ := .done .passed }
  | .sleep period => some
    { before _ := (Program.sleep period).bind fun _ => .done none
      after _ := .done .passed }

theorem stage_ofScripted {scripted : ScriptedStage} {l : Layer}
    (layered : ofScripted scripted = some l) : scripted.stage = l.stage := by
  funext ctx inner
  cases scripted with
  | record | swallow => cases layered
  | skip | failBefore | panic => cases layered; rfl
  | failAfter fault =>
      cases layered
      refine congrArg inner.bind (funext fun v => ?_)
      cases v <;> rfl
  | settleBefore how goOn =>
      cases layered
      refine congrArg (Program.call (.settle how)) (funext fun answer => ?_)
      cases answer with
      | error f => rfl
      | ok done =>
          cases goOn with
          | false => rfl
          | true => exact (bind_leave rfl inner).symm
  | set key value =>
      cases layered
      refine congrArg (Program.call (.setProperty key value)) (funext fun old => ?_)
      exact (bind_leave rfl inner).symm
  | sleep period =>
      cases layered
      refine congrArg (Program.call .now) (funext fun (now : Nat) => ?_)
      exact congrArg (Program.await _) (bind_leave rfl inner).symm

/-- Giving up messages that were delivered too often is a layer with nothing after the service. -/
def limit : Layer where
  before ctx :=
    if ctx.count ≤ ctx.limit then .done none
    else do
      Program.perform (.note (.overDelivered ctx.receiver ctx.messageId ctx.count ctx.limit))
      Program.perform (.count (.deadLettered ctx.receiver))
      let verdict ← Service.settling (.deadLetter (Stage.limitReason ctx.count ctx.limit))
      return some verdict
  after _ := .done .passed

theorem stage_limit : limit.stage = Stage.limitDeliveries := by
  funext ctx inner
  by_cases few : ctx.count ≤ ctx.limit
  · simp only [stage, limit, Stage.limitDeliveries, if_pos few]
    exact bind_leave rfl inner
  · simp only [stage, limit, Stage.limitDeliveries, if_neg few]
    refine congrArg (Program.call (.note _)) (funext fun _ => ?_)
    refine congrArg (Program.call (.count _)) (funext fun _ => ?_)
    -- the verdict of the settlement is passed on
    let giveUp := Service.settling (.deadLetter (Stage.limitReason ctx.count ctx.limit))
    exact (Program.bind_assoc giveUp _ _).trans (Program.bind_done giveUp)

end Layer

open Layer

/-- Of layers that are registered one after the other, what comes before the service runs from the
last layer inward, and what comes after it runs outward from the first, as far as it gets: a layer
that stops the way in keeps everything inside of it from running, and what goes wrong is what comes
of the whole, with nothing after it. Every way that keeps to this is a run of the service, and
wherever it is run to its end, that is by such a way. -/
theorem layers_run_in_order (ls : List Layer) (ctx : Context) (t : Service) :
    (∀ st events st' v, Ends (compose (ls.map stage) ctx t) st events st' v ↔
      ∃ legs, Itinerary ls.length legs v ∧ Travels ls ctx t st legs st' ∧
        events = legs.flatMap (·.events)) ∧
    (∀ legs v, Itinerary ls.length legs v → Ordered ls.length legs v) ∧
    ∀ cancelAt fuel s s' v,
      Rehearsal.run cancelAt fuel s (compose (ls.map stage) ctx t) = (s', some v) →
      ∃ legs, Itinerary ls.length legs v ∧
        Travels ls ctx t s.handling.settlement legs s'.handling.settlement ∧
        Rehearsal.events cancelAt fuel s (compose (ls.map stage) ctx t) =
          legs.flatMap (·.events) := by
  refine ⟨fun _ _ _ _ => compose_ends_iff, fun _ _ way => way.ordered, ?_⟩
  intro cancelAt fuel s s' v ran
  exact compose_ends_iff.mp (Rehearsal.run_ends ran)

end Courier
