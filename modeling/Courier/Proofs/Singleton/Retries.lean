import Courier.Proofs.Singleton.Moves
import Courier.Proofs.Time.Backoff
import Mathlib.Algebra.Ring.Nat
import Mathlib.Data.List.Chain

/-!
# One renewal with its retries

A renewal is a call to the store that is made again, after a delay that doubles, as long as the
store fails or does not answer and tries are left. It is told here by moments, one for each thing
that the machine asks for or is told, with their times.

`Move` lists what can happen at a point of a renewal, and a `Path` goes from point to point. What
has happened by a point is as good as known from the point (`SoFar`): some tries that failed, each
with its delay, and the beginning of one more, or the end. So the answers of the store and the
cancellation decide how a renewal comes out (`Renews`).
-/

namespace Courier

namespace Singleton

/-- Something that happens in a run: when, whether what the run has waited for has come, and whether
the run is cancelled. -/
structure Moment where
  time : Nat
  event : Happening
  came : Bool
  cancelled : Bool

/-- What comes of a renewal. -/
inductive Upshot where
  | renewed
  | lost
  | cancelled
  deriving DecidableEq

/-- How far a renewal has come: how many tries have failed and were rested after, and since when it
is there. -/
inductive Point where
  | about (failed since : Nat)
  | trying (failed since : Nat)
  /-- One more try has failed. -/
  | shaken (failed since : Nat)
  | resting (failed since : Nat)
  | ended (upshot : Upshot)
  deriving DecidableEq

namespace Point

/-- The number of tries that were rested after is in bounds. -/
def InBounds (c : SingletonConfig) : Point → Prop
  | about n _ | trying n _ => n ≤ c.renewRetries.toNat
  | shaken n _ | resting n _ => n < c.renewRetries.toNat
  | ended _ => True

end Point

/-- The delay that follows a failed try, by the number of those before it. -/
def retryDelay (c : SingletonConfig) (n : Nat) : Duration := c.renewRetryDelay.doubled n

section

variable (c : SingletonConfig) (lease : LeaseHandle) (alarm : Nat → Nat) (prompt : Prop)

/-- The call to the store. -/
def call : Happening := .asked (.renew lease c.renewTimeout)

/-- What can happen at a point of a renewal. A timer set for `t` goes off at `alarm t`, and the run
loses no time if it is `prompt`. -/
inductive Move : Point → Moment → Point → Prop where
  | calls {n since : Nat} {m : Moment} : m.event = call c lease → (prompt → m.time = since) →
      Move (.about n since) m (.trying n m.time)
  | renewed {n since : Nat} {m : Moment} : m.event = .told (.renewed (some true)) →
      m.came = true → Move (.trying n since) m (.ended .renewed)
  | lost {n since : Nat} {m : Moment} : m.event = .told (.renewed (some false)) →
      m.came = true → Move (.trying n since) m (.ended .lost)
  | fails {n since : Nat} {m : Moment} : m.event = .told (.renewed none) →
      (m.came = true ∨ alarm (since + c.renewTimeout.nanoseconds) ≤ m.time) →
      n < c.renewRetries.toNat → Move (.trying n since) m (.shaken n m.time)
  | exhausted {since : Nat} {m : Moment} : m.event = .told (.renewed none) →
      (m.came = true ∨ alarm (since + c.renewTimeout.nanoseconds) ≤ m.time) →
      Move (.trying c.renewRetries.toNat since) m (.ended .lost)
  | rests {n since : Nat} {m : Moment} : m.event = .asked (.rest (retryDelay c n)) →
      (prompt → m.time = since) → Move (.shaken n since) m (.resting n m.time)
  | wakes {n since : Nat} {m : Moment} : m.event = .told .elapsed → m.cancelled = false →
      alarm (since + (retryDelay c n).nanoseconds) ≤ m.time →
      (prompt → m.time = alarm (since + (retryDelay c n).nanoseconds)) →
      Move (.resting n since) m (.about (n + 1) m.time)
  | breaks {n since : Nat} {m : Moment} : m.event = .told .cancelled → m.cancelled = true →
      Move (.resting n since) m (.ended .cancelled)

/-- One moment after the other. -/
inductive Path : Point → List Moment → Point → Prop where
  | stay (a : Point) : Path a [] a
  | go {a b d : Point} {m : Moment} {h : List Moment} :
      Move c lease alarm prompt a m b → Path b h d → Path a (m :: h) d

/-- A failed try and the rest after it. -/
def failure (n : Nat) : List Happening :=
  [call c lease, .told (.renewed none), .asked (.rest (retryDelay c n)), .told .elapsed]

def failures (n : Nat) : List Happening := (List.range n).flatMap (failure c lease)

/-- What has happened by a point. -/
def SoFar (h : List Happening) : Point → Prop
  | .about n _ => h = failures c lease n
  | .trying n _ => h = failures c lease n ++ [call c lease]
  | .shaken n _ => h = failures c lease n ++ [call c lease, .told (.renewed none)]
  | .resting n _ =>
    h = failures c lease n ++
      [call c lease, .told (.renewed none), .asked (.rest (retryDelay c n))]
  | .ended .renewed => ∃ n ≤ c.renewRetries.toNat,
    h = failures c lease n ++ [call c lease, .told (.renewed (some true))]
  | .ended .lost => (∃ n ≤ c.renewRetries.toNat,
      h = failures c lease n ++ [call c lease, .told (.renewed (some false))]) ∨
    h = failures c lease c.renewRetries.toNat ++ [call c lease, .told (.renewed none)]
  | .ended .cancelled => ∃ n < c.renewRetries.toNat,
    h = failures c lease n ++ [call c lease, .told (.renewed none),
      .asked (.rest (retryDelay c n)), .told .cancelled]

end

variable {c : SingletonConfig} {lease : LeaseHandle} {alarm : Nat → Nat} {prompt : Prop}
variable {a b d : Point} {m : Moment} {h h' : List Moment}

theorem failures_succ (n : Nat) :
    failures c lease (n + 1) = failures c lease n ++ failure c lease n := by
  rw [failures, List.range_succ, List.flatMap_append, List.flatMap_singleton, failures]

/-- What every move preserves holds all along a path. -/
theorem Path.preserve {P : List Moment → Point → Prop} (path : Path c lease alarm prompt a h b)
    (step : ∀ {past a m b}, P past a → Move c lease alarm prompt a m b → P (past ++ [m]) b)
    {past : List Moment} (start : P past a) : P (past ++ h) b := by
  induction path generalizing past with
  | stay => simpa using start
  | go move _ ih =>
      rw [List.append_cons]
      exact ih (step start move)

/-- The first call is made at once. -/
theorem Path.first_time {since : Nat} (path : Path c lease alarm prompt (.about 0 since) h b) :
    ∀ first ∈ h.head?, prompt → first.time = since := by
  cases path with
  | stay => exact nofun
  | go move =>
      cases move with
      | calls _ same =>
          intro first mem on
          exact Option.some.inj mem ▸ same on

theorem Move.inBounds (move : Move c lease alarm prompt a m b) (bound : a.InBounds c) :
    b.InBounds c := by
  cases move with
  | calls => exact bound
  | fails _ _ left => exact left
  | rests => exact bound
  | wakes => exact bound
  | renewed | lost | exhausted | breaks => exact trivial

theorem Move.soFar (move : Move c lease alarm prompt a m b) (bound : a.InBounds c)
    {past : List Happening} (before : SoFar c lease past a) :
    SoFar c lease (past ++ [m.event]) b := by
  cases move with
  | calls event => simp only [SoFar] at before ⊢; rw [before, event]
  | renewed event => exact ⟨_, bound, by rw [before, event]; simp⟩
  | lost event => exact .inl ⟨_, bound, by rw [before, event]; simp⟩
  | fails event => simp only [SoFar] at before ⊢; rw [before, event]; simp
  | exhausted event => exact .inr (by rw [before, event]; simp)
  | rests event => simp only [SoFar] at before ⊢; rw [before, event]; simp
  | wakes event => simp only [SoFar] at before ⊢; rw [before, event, failures_succ]; simp [failure]
  | breaks event => exact ⟨_, bound, by rw [before, event]; simp⟩

/-! ## Times -/

/-- Since when a renewal is at a point. -/
def Point.since? : Point → Option Nat
  | .about _ since | .trying _ since | .shaken _ since | .resting _ since => some since
  | .ended _ => none

/-- What the times of two moments have to do with each other, one right after the other. A rest is
over when its timer goes off, a call is answered by the store or given up when its timer goes off,
and nothing else takes any time. -/
def Timed (alarm : Nat → Nat) (prompt : Prop) (a b : Moment) : Prop :=
  match a.event, b.event with
  | .asked (.rest d), .told .elapsed =>
    alarm (a.time + d.nanoseconds) ≤ b.time ∧
      (prompt → b.time = alarm (a.time + d.nanoseconds))
  | .asked (.renew _ within), .told (.renewed answer) =>
    b.came = true ∨ answer = none ∧ alarm (a.time + within.nanoseconds) ≤ b.time
  | .told _, .asked _ => prompt → b.time = a.time
  | _, _ => True

/-- What is known of the moments that led to a point. -/
structure Stretch (c : SingletonConfig) (lease : LeaseHandle) (alarm : Nat → Nat) (prompt : Prop)
    (h : List Moment) (b : Point) : Prop where
  bound : b.InBounds c
  soFar : SoFar c lease (h.map (·.event)) b
  since : ∀ last ∈ h.getLast?, ∀ t ∈ b.since?, last.time = t
  timed : h.IsChain (Timed alarm prompt)
  cancelled : ∀ m ∈ h, (m.event = .told .elapsed → m.cancelled = false) ∧
    (m.event = .told .cancelled → m.cancelled = true)

namespace Stretch

theorem start (since : Nat) : Stretch c lease alarm prompt [] (.about 0 since) where
  bound := Nat.zero_le _
  soFar := rfl
  since := by simp
  timed := .nil
  cancelled := by simp

/-- What happened last, where it is known what has happened. -/
theorem last_event {events : List Happening} {e : Happening}
    (known : h.map (·.event) = events ++ [e]) {last : Moment} (mem : last ∈ h.getLast?) :
    last.event = e := by
  have same := congrArg List.getLast? known
  rw [List.getLast?_map, Option.mem_def.mp mem, List.getLast?_concat] at same
  exact Option.some.inj same

theorem timed_move (stretch : Stretch c lease alarm prompt h a)
    (move : Move c lease alarm prompt a m b) {last : Moment} (mem : last ∈ h.getLast?) :
    Timed alarm prompt last m := by
  have since := stretch.since last mem
  have soFar := stretch.soFar
  -- the point tells what came last and when
  cases move with
  | @calls n _ _ event same =>
      cases n with
      | zero =>
          obtain rfl := List.map_eq_nil_iff.mp soFar
          cases mem
      | succ n =>
          have known : h.map (·.event) = (failures c lease n ++ [call c lease,
              .told (.renewed none), .asked (.rest (retryDelay c n))]) ++ [.told .elapsed] := by
            rw [soFar, failures_succ, List.append_assoc]
            rfl
          simp only [Timed, last_event known mem, event, call]
          exact fun on => (same on).trans (since _ rfl).symm
  | renewed event came | lost event came =>
      simp only [Timed, last_event soFar mem, event, call]
      exact .inl came
  | fails event silent | exhausted event silent =>
      simp only [Timed, last_event soFar mem, event, call]
      rw [since _ rfl]
      exact silent.imp_right fun late => ⟨trivial, late⟩
  | @rests n _ _ event same =>
      have known : h.map (·.event) = (failures c lease n ++ [call c lease]) ++
          [.told (.renewed none)] := by
        rw [soFar, List.append_assoc]
        rfl
      simp only [Timed, last_event known mem, event]
      exact fun on => (same on).trans (since _ rfl).symm
  | @wakes n _ _ event _ due same =>
      have known : h.map (·.event) = (failures c lease n ++ [call c lease,
          .told (.renewed none)]) ++ [.asked (.rest (retryDelay c n))] := by
        rw [soFar, List.append_assoc]
        rfl
      simp only [Timed, last_event known mem, event]
      rw [since _ rfl]
      exact ⟨due, same⟩
  | breaks event =>
      simp only [Timed, event]
      split <;> simp_all

theorem move (stretch : Stretch c lease alarm prompt h a)
    (move : Move c lease alarm prompt a m b) : Stretch c lease alarm prompt (h ++ [m]) b where
  bound := move.inBounds stretch.bound
  soFar := by
    rw [List.map_append, List.map_singleton]
    exact move.soFar stretch.bound stretch.soFar
  since last mem := by
    rw [List.getLast?_concat, Option.mem_some_iff] at mem
    subst mem
    cases move <;> simp [Point.since?]
  timed := by
    refine stretch.timed.append (.singleton m) fun last mem next first => ?_
    rw [List.head?_singleton, Option.mem_some_iff] at first
    subst first
    exact stretch.timed_move move mem
  cancelled m' mem := by
    obtain old | new := List.mem_append.mp mem
    · exact stretch.cancelled m' old
    · obtain rfl := List.mem_singleton.mp new
      cases move with
      | wakes event no => simp [event, no]
      | breaks event yes => simp [event, yes]
      | calls event | renewed event | lost event | fails event | exhausted event | rests event =>
          simp [event, call]

end Stretch

theorem Path.stretch (path : Path c lease alarm prompt a h b)
    (before : Stretch c lease alarm prompt h' a) :
    Stretch c lease alarm prompt (h' ++ h) b :=
  path.preserve (P := Stretch c lease alarm prompt) Stretch.move before

/-! ## What comes of a renewal -/

/-- The answers of the store, none where it failed or did not answer. -/
def answers (h : List Happening) : List (Option Bool) :=
  h.filterMap fun
    | .told (.renewed answer) => some answer
    | _ => none

/-- The delays between the tries. -/
def rests (h : List Happening) : List Duration :=
  h.filterMap fun
    | .asked (.rest period) => some period
    | _ => none

def Happening.isCall : Happening → Bool
  | .asked (.renew _ _) => true
  | _ => false

@[simp] theorem answers_append (h h' : List Happening) :
    answers (h ++ h') = answers h ++ answers h' := List.filterMap_append

@[simp] theorem rests_append (h h' : List Happening) :
    rests (h ++ h') = rests h ++ rests h' := List.filterMap_append

theorem answers_failures (n : Nat) : answers (failures c lease n) = List.replicate n none := by
  induction n with
  | zero => rfl
  | succ n ih =>
      rw [failures_succ, answers_append, ih, List.replicate_succ']
      rfl

theorem rests_failures (n : Nat) :
    rests (failures c lease n) = (List.range n).map (retryDelay c) := by
  induction n with
  | zero => rfl
  | succ n ih =>
      rw [failures_succ, rests_append, ih, List.range_succ, List.map_append]
      rfl

theorem calls_failures (n : Nat) : (failures c lease n).countP (·.isCall) = n := by
  induction n with
  | zero => rfl
  | succ n ih =>
      rw [failures_succ, List.countP_append, ih]
      rfl

/-- What has happened since the last rest was over, by the number of tries that were rested
after. -/
inductive Tail (c : SingletonConfig) (lease : LeaseHandle) :
    Nat → List Happening → Point → Prop where
  | about (n since : Nat) : Tail c lease n [] (.about n since)
  | trying (n since : Nat) : Tail c lease n [call c lease] (.trying n since)
  | shaken {n : Nat} (since : Nat) : n < c.renewRetries.toNat →
      Tail c lease n [call c lease, .told (.renewed none)] (.shaken n since)
  | resting {n : Nat} (since : Nat) : n < c.renewRetries.toNat →
      Tail c lease n [call c lease, .told (.renewed none), .asked (.rest (retryDelay c n))]
        (.resting n since)
  | renewed (n : Nat) :
      Tail c lease n [call c lease, .told (.renewed (some true))] (.ended .renewed)
  | lost (n : Nat) : Tail c lease n [call c lease, .told (.renewed (some false))] (.ended .lost)
  | exhausted : Tail c lease c.renewRetries.toNat [call c lease, .told (.renewed none)]
      (.ended .lost)
  | cancelled {n : Nat} : n < c.renewRetries.toNat →
      Tail c lease n [call c lease, .told (.renewed none), .asked (.rest (retryDelay c n)),
        .told .cancelled] (.ended .cancelled)

namespace SoFar

variable {events : List Happening}

theorem tail (soFar : SoFar c lease events b) (bound : b.InBounds c) :
    ∃ n ≤ c.renewRetries.toNat, ∃ last, events = failures c lease n ++ last ∧
      Tail c lease n last b := by
  cases b with
  | about n since => exact ⟨n, bound, _, soFar.trans (List.append_nil _).symm, .about n since⟩
  | trying n since => exact ⟨n, bound, _, soFar, .trying n since⟩
  | shaken n since => exact ⟨n, Nat.le_of_lt bound, _, soFar, .shaken since bound⟩
  | resting n since => exact ⟨n, Nat.le_of_lt bound, _, soFar, .resting since bound⟩
  | ended upshot =>
      cases upshot with
      | renewed =>
          obtain ⟨n, le, same⟩ := soFar
          exact ⟨n, le, _, same, .renewed n⟩
      | lost =>
          obtain ⟨n, le, same⟩ | same := soFar
          · exact ⟨n, le, _, same, .lost n⟩
          · exact ⟨_, Nat.le_refl _, _, same, .exhausted⟩
      | cancelled =>
          obtain ⟨n, lt, same⟩ := soFar
          exact ⟨n, Nat.le_of_lt lt, _, same, .cancelled lt⟩

/-- What the store has answered by a point. -/
theorem answers_cases (soFar : SoFar c lease events b) (bound : b.InBounds c) :
    (b = .ended .renewed ∧ ∃ n ≤ c.renewRetries.toNat,
      answers events = List.replicate n none ++ [some true]) ∨
    (b = .ended .lost ∧ ((∃ n ≤ c.renewRetries.toNat,
        answers events = List.replicate n none ++ [some false]) ∨
      answers events = List.replicate (c.renewRetries.toNat + 1) none)) ∨
    b ≠ .ended .renewed ∧ b ≠ .ended .lost ∧ ∃ n ≤ c.renewRetries.toNat,
      answers events = List.replicate n none := by
  obtain ⟨n, le, last, rfl, tail⟩ := soFar.tail bound
  rw [answers_append, answers_failures]
  cases tail with
  | renewed => exact .inl ⟨rfl, n, le, rfl⟩
  | lost => exact .inr (.inl ⟨rfl, .inl ⟨n, le, rfl⟩⟩)
  | exhausted => exact .inr (.inl ⟨rfl, .inr List.replicate_succ'.symm⟩)
  | about | trying => exact .inr (.inr ⟨nofun, nofun, n, le, List.append_nil _⟩)
  | shaken _ lt | resting _ lt | cancelled lt =>
      exact .inr (.inr ⟨nofun, nofun, n + 1, lt, List.replicate_succ'.symm⟩)

theorem rests_eq (soFar : SoFar c lease events b) (bound : b.InBounds c) :
    ∃ n, rests events = (List.range n).map (retryDelay c) := by
  obtain ⟨n, _, last, rfl, tail⟩ := soFar.tail bound
  rw [rests_append, rests_failures]
  have rested : (List.range n).map (retryDelay c) ++ [retryDelay c n] =
      (List.range (n + 1)).map (retryDelay c) := by
    rw [List.range_succ, List.map_append, List.map_singleton]
  cases tail with
  | resting | cancelled => exact ⟨n + 1, rested⟩
  | about | trying | shaken | renewed | lost | exhausted => exact ⟨_, List.append_nil _⟩

theorem calls_le (soFar : SoFar c lease events b) (bound : b.InBounds c) :
    events.countP (·.isCall) ≤ c.renewRetries.toNat + 1 := by
  obtain ⟨n, le, last, rfl, tail⟩ := soFar.tail bound
  have one : last.countP (·.isCall) ≤ 1 := by
    cases tail <;> simp [call, Happening.isCall]
  rw [List.countP_append, calls_failures]
  exact Nat.add_le_add le one

theorem broken_iff (soFar : SoFar c lease events b) (bound : b.InBounds c) :
    .told .cancelled ∈ events ↔ b = .ended .cancelled := by
  obtain ⟨n, _, last, rfl, tail⟩ := soFar.tail bound
  have whole : .told .cancelled ∉ failures c lease n := by simp [failures, failure, call]
  rw [List.mem_append, or_iff_right whole]
  cases tail <;> simp [call]

end SoFar

/-- How the answers of the store and the cancellation decide a renewal. -/
structure Renews (c : SingletonConfig) (lease : LeaseHandle) (alarm : Nat → Nat) (prompt : Prop)
    (h : List Moment) (b : Point) : Prop where
  /-- Tries that fail come one after the other, each with its rest. -/
  soFar : SoFar c lease (h.map (·.event)) b
  calls : (h.map (·.event)).countP (·.isCall) ≤ c.renewRetries.toNat + 1
  /-- It is renewed if and only if tries fail until one finds that the lease is good. -/
  renewed_iff : b = .ended .renewed ↔ ∃ n ≤ c.renewRetries.toNat,
    answers (h.map (·.event)) = List.replicate n none ++ [some true]
  /-- It is lost if and only if tries fail until one finds that it is, or until none is left. -/
  lost_iff : b = .ended .lost ↔
    (∃ n ≤ c.renewRetries.toNat,
      answers (h.map (·.event)) = List.replicate n none ++ [some false]) ∨
      answers (h.map (·.event)) = List.replicate (c.renewRetries.toNat + 1) none
  /-- It is broken off if and only if the run is cancelled at the end of a rest. -/
  cancelled_iff : b = .ended .cancelled ↔ ∃ m ∈ h,
    (m.event = .told .elapsed ∨ m.event = .told .cancelled) ∧ m.cancelled = true
  /-- The delay doubles from rest to rest. -/
  rests : (rests (h.map (·.event))).map (·.nanoseconds) =
    (List.range (Singleton.rests (h.map (·.event))).length).map fun j =>
      min (c.renewRetryDelay.nanoseconds * 2 ^ j) Duration.limit
  timed : h.IsChain (Timed alarm prompt)

theorem Stretch.renewed_iff (stretch : Stretch c lease alarm prompt h b) :
    b = .ended .renewed ↔ ∃ n ≤ c.renewRetries.toNat,
      answers (h.map (·.event)) = List.replicate n none ++ [some true] := by
  constructor
  · intro ended
    obtain ⟨_, good⟩ | ⟨no, _⟩ | ⟨no, _⟩ := stretch.soFar.answers_cases stretch.bound
    · exact good
    · rw [ended] at no
      cases no
    · exact absurd ended no
  · rintro ⟨n, _, answered⟩
    have good : some true ∈ answers (h.map (·.event)) := by simp [answered]
    obtain ⟨ended, _⟩ | ⟨_, ⟨_, _, no⟩ | no⟩ | ⟨_, _, _, _, no⟩ :=
      stretch.soFar.answers_cases stretch.bound
    · exact ended
    · simp [no] at good
    · simp [no] at good
    · simp [no] at good

theorem Stretch.lost_iff (stretch : Stretch c lease alarm prompt h b) :
    b = .ended .lost ↔ (∃ n ≤ c.renewRetries.toNat,
      answers (h.map (·.event)) = List.replicate n none ++ [some false]) ∨
      answers (h.map (·.event)) = List.replicate (c.renewRetries.toNat + 1) none := by
  constructor
  · intro ended
    obtain ⟨no, _⟩ | ⟨_, lost⟩ | ⟨_, no, _⟩ := stretch.soFar.answers_cases stretch.bound
    · rw [ended] at no
      cases no
    · exact lost
    · exact absurd ended no
  · intro answered
    obtain ⟨_, _, _, good⟩ | ⟨ended, _⟩ | ⟨_, _, n, le, shaken⟩ :=
      stretch.soFar.answers_cases stretch.bound
    · have good : some true ∈ answers (h.map (·.event)) := by simp [good]
      obtain ⟨n, _, no⟩ | no := answered <;> simp [no] at good
    · exact ended
    · obtain ⟨n', _, bad⟩ | none := answered
      · have bad : some false ∈ answers (h.map (·.event)) := by simp [bad]
        simp [shaken] at bad
      · have more := congrArg List.length (shaken.symm.trans none)
        rw [List.length_replicate, List.length_replicate] at more
        omega

theorem Stretch.cancelled_iff (stretch : Stretch c lease alarm prompt h b) :
    b = .ended .cancelled ↔ ∃ m ∈ h,
      (m.event = .told .elapsed ∨ m.event = .told .cancelled) ∧ m.cancelled = true := by
  rw [← stretch.soFar.broken_iff stretch.bound, List.mem_map]
  constructor
  · rintro ⟨m, mem, broken⟩
    exact ⟨m, mem, .inr broken, (stretch.cancelled m mem).2 broken⟩
  · rintro ⟨m, mem, elapsed | broken, cancelled⟩
    · rw [(stretch.cancelled m mem).1 elapsed] at cancelled
      cases cancelled
    · exact ⟨m, mem, broken⟩

theorem Stretch.renews (stretch : Stretch c lease alarm prompt h b) :
    Renews c lease alarm prompt h b where
  soFar := stretch.soFar
  calls := stretch.soFar.calls_le stretch.bound
  renewed_iff := stretch.renewed_iff
  lost_iff := stretch.lost_iff
  cancelled_iff := stretch.cancelled_iff
  rests := by
    obtain ⟨n, rests⟩ := stretch.soFar.rests_eq stretch.bound
    rw [rests, List.length_map, List.length_range, List.map_map]
    exact List.map_congr_left fun j _ => c.renewRetryDelay.nanoseconds_doubled j
  timed := stretch.timed

end Singleton

end Courier
