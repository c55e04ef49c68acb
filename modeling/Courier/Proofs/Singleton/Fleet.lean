import Courier.Proofs.Singleton.Steps

/-!
# Fleets

A fleet is a plant of members that run their doubles under leases of one store. Its tasks take steps
in any order, members are started and stopped, tokens are cancelled, others act on the store or put
other locks in its place, and the clock moves on. Nothing is said of who steps next.

The clock of a fleet is on time where it moves on only when no task can take a step, and never past
the next alarm. `Change` lists what a deed can do to a fleet, and `history` is what happens in the
runs of one member.
-/

namespace Courier

open Courier.Singleton (Phase Request Reply LockState Happening)

namespace Fleet

/-- What can happen to a fleet. -/
inductive Deed where
  | step (task : Plant.Task)
  | start (member : Nat) (parent : CancelToken)
  | stop (member : Nat)
  | cancel (token : CancelToken)
  | store (act : Shift.StoreAction)
  /-- The locks behave in another way from now on. -/
  | tamper (locks : Locks)
  | pass (time : Nat)

/-- A fleet whose members have not been started. -/
def begin (clock : Clock) (locks : Locks) (members : List Relay.Member) : Plant :=
  let p := (Relay.begin locks members).plant
  p.withAmbient { p.ambient with clock := clock }

def act (p : Plant) : Deed → Plant
  | .step task => (p.step? task).getD p
  | .start m parent => (p.beginStart (.coordinator m) parent).1
  | .stop m => (p.beginStop (.coordinator m)).1
  | .cancel token => p.withAmbient (p.ambient.cancel token)
  | .store act => (Shift.onStore p act).1
  | .tamper locks => { p with locks := locks }
  | .pass time => p.moveTo time

def run (p : Plant) (deeds : List Deed) : Plant := deeds.foldl act p

/-- What happens in the runs of a member by a deed. -/
def happenings (m : Nat) (p : Plant) : Deed → List Happening
  | .step (.run i k) => if i = m then ((p.turn? i k).map (·.1)).toList else []
  | _ => []

/-- What happens in the runs of a member. -/
def history (m : Nat) (p : Plant) : List Deed → List Happening
  | [] => []
  | d :: rest => happenings m p d ++ history m (act p d) rest

/-- Whether no task can take a step. -/
def isQuiet (p : Plant) : Bool := p.tasks.all fun task => (p.step? task).isNone

/-- A deed at its time: the clock waits for whoever can take a step, and for the next alarm. -/
def OnTime (p : Plant) : Deed → Prop
  | .pass time => isQuiet p = true ∧ ∀ next ∈ p.nextAlarm?, time ≤ next
  | _ => True

/-- Deeds each of which is done at its time. -/
def Timely (p : Plant) : List Deed → Prop
  | [] => True
  | d :: rest => OnTime p d ∧ Timely (act p d) rest

instance (p : Plant) : (d : Deed) → Decidable (OnTime p d)
  | .pass time => inferInstanceAs
    (Decidable (isQuiet p = true ∧ ∀ next ∈ p.nextAlarm?, time ≤ next))
  | .step _ | .start _ _ | .stop _ | .cancel _ | .store _ | .tamper _ => isTrue trivial

instance decidableTimely (p : Plant) : (deeds : List Deed) → Decidable (Timely p deeds)
  | [] => isTrue trivial
  | d :: rest => @instDecidableAnd _ _ inferInstance (decidableTimely (act p d) rest)

/-- Some steps of a run, one after the other. -/
def steps (member run n : Nat) : List Deed := List.replicate n (.step (.run member run))

section

variable (p : Plant) (d : Deed) (deeds : List Deed) (m : Nat)

@[simp] theorem run_nil : run p [] = p := rfl

@[simp] theorem run_cons : run p (d :: deeds) = run (act p d) deeds := rfl

@[simp] theorem run_append (more : List Deed) : run p (deeds ++ more) = run (run p deeds) more :=
  List.foldl_append

@[simp] theorem history_append (more : List Deed) :
    history m p (deeds ++ more) = history m p deeds ++ history m (run p deeds) more := by
  induction deeds generalizing p with
  | nil => rfl
  | cons d rest ih => simp [history, ih]

end

/-! ## What a deed can do -/

/-- What a deed makes of a fleet. -/
inductive Change (p : Plant) : Deed → Plant → Prop where
  | turned {i k : Nat} {e : Happening} {p' : Plant} :
      p.turn? i k = some (e, p') → p.Turned i k e p' → Change p (.step (.run i k)) p'
  | idle {d : Deed} {p' : Plant} :
      p.Frame p' → p'.coordinators = p.coordinators → p'.locks = p.locks →
      (∀ m, happenings m p d = []) → Change p d p'
  | begun {m : Nat} {c : Coordinator} {parent token : CancelToken} {p' : Plant} :
      p.coordinators[m]? = some c → c.running = none → p.Frame p' → p'.locks = p.locks →
      p'.coordinators = p.coordinators.set m (c.begun token) → Change p (.start m parent) p'
  | ended {m : Nat} {c : Coordinator} {p' : Plant} :
      p.coordinators[m]? = some c → p.Frame p' → p'.locks = p.locks →
      p'.coordinators = p.coordinators.set m { c with running := none } → Change p (.stop m) p'
  | stored (act : Shift.StoreAction) : Change p (.store act) (Shift.onStore p act).1
  | tampered (locks : Locks) : Change p (.tamper locks) { p with locks := locks }
  | passed (time : Nat) : Change p (.pass time) (p.moveTo time)

variable {p : Plant}

theorem start_change (m : Nat) (parent : CancelToken) :
    Change p (.start m parent) (act p (.start m parent)) := by
  simp only [act, Plant.beginStart]
  cases found : p.coordinators[m]? with
  | none => exact .idle (.refl p) rfl rfl fun _ => rfl
  | some c =>
      simp only [Coordinator.start]
      cases stopped : c.running with
      | some k => exact .idle (.refl p) rfl rfl fun _ => rfl
      | none => exact .begun found stopped { Plant.Frame.refl p with } rfl rfl

theorem stop_change (m : Nat) : Change p (.stop m) (act p (.stop m)) := by
  simp only [act, Plant.beginStop]
  cases found : p.coordinators[m]? with
  | none => exact .idle (.refl p) rfl rfl fun _ => rfl
  | some c =>
      obtain ⟨clock, stopped, _⟩ := c.stop_cases p.ambient
      refine .ended found { Plant.Frame.refl p with clock := clock } rfl ?_
      exact congrArg (p.coordinators.set m) stopped

theorem step_change (manned : p.Manned) (task : Plant.Task) :
    Change p (.step task) (act p (.step task)) := by
  simp only [act]
  cases step : p.step? task with
  | none =>
      refine .idle (.refl p) rfl rfl fun m => ?_
      cases task with
      | run i k =>
          rw [Plant.step?, Plant.stepRun_eq, Option.map_eq_none_iff] at step
          simp [happenings, step]
      | _ => rfl
  | some p' =>
      obtain ⟨i, k, e, rfl, turn⟩ | ⟨other, frame, coordinators, locks⟩ := manned.step_cases step
      · exact .turned turn (manned.turned turn)
      · refine .idle frame coordinators locks fun m => ?_
        cases task with
        | run i k => exact absurd rfl (other i k)
        | _ => rfl

/-- A deed does one of the things listed. -/
theorem act_change (manned : p.Manned) (d : Deed) : Change p d (act p d) := by
  cases d with
  | step task => exact step_change manned task
  | start m parent => exact start_change m parent
  | stop m => exact stop_change m
  | cancel token => exact .idle { Plant.Frame.refl p with } rfl rfl fun _ => rfl
  | store act => exact .stored act
  | tamper locks => exact .tampered locks
  | pass time => exact .passed time

/-! ## What becomes of a coordinator -/

/-- What a deed makes of one coordinator, and what happens in its runs meanwhile. -/
inductive Evolves (p : Plant) (locks : Locks) (m : Nat) (c : Coordinator) :
    Deed → Coordinator → List Happening → Prop where
  | same (d : Deed) : Evolves p locks m c d c []
  | asked {k : Nat} {r : Run} {w : Wait} :
      p.At m k c r → r.wait = none → p.Asked c r.phase w →
      Evolves p locks m c (.step (.run m k)) (c.setRun k { r with wait := some w })
        [.asked (r.phase.request c.config)]
  | told {k : Nat} {r : Run} {w : Wait} {reply : Reply} :
      p.At m k c r → r.wait = some w → p.Told c r.token r.phase w reply locks →
      Evolves p locks m c (.step (.run m k)) (c.told k r reply) [.told reply]
  | broke {k : Nat} {r : Run} {w : Wait} {o : Overflow} :
      p.At m k c r → r.wait = some w → p.Broke c r.phase w o → locks = p.locks →
      Evolves p locks m c (.step (.run m k)) (c.setRun k { r with wait := some (.broken o) })
        [.broke o]
  | begun (parent token : CancelToken) :
      c.running = none → Evolves p locks m c (.start m parent) (c.begun token) []
  | ended : Evolves p locks m c (.stop m) { c with running := none } []

section

variable {p' : Plant} {d : Deed} {m : Nat}

theorem happenings_turned {i k : Nat} {e : Happening} (turn : p.turn? i k = some (e, p')) :
    happenings m p (.step (.run i k)) = if i = m then [e] else [] := by
  simp only [happenings, turn, Option.map_some, Option.toList_some]

theorem at_unique {k : Nat} {c c' : Coordinator} {r r' : Run} (here : p.At m k c r)
    (there : p.At m k c' r') : c = c' ∧ r = r' := by
  obtain rfl := Option.some.inj (here.coordinator.symm.trans there.coordinator)
  exact ⟨rfl, Option.some.inj (here.run.symm.trans there.run)⟩

/-- A deed does to a coordinator one of the things listed. -/
theorem Change.evolves (change : Change p d p') {c : Coordinator}
    (found : p.coordinators[m]? = some c) :
    ∃ c', p'.coordinators[m]? = some c' ∧ Evolves p p'.locks m c d c' (happenings m p d) := by
  have same (coordinators : p'.coordinators = p.coordinators) (silent : happenings m p d = []) :
      ∃ c', p'.coordinators[m]? = some c' ∧ Evolves p p'.locks m c d c' (happenings m p d) :=
    ⟨c, coordinators ▸ found, silent ▸ .same d⟩
  have own {c' : Coordinator} (changed : p'.coordinators = p.coordinators.set m c') :
      p'.coordinators[m]? = some c' := by
    rw [changed]
    exact List.getElem?_set_self (List.getElem?_eq_some_iff.mp found).1
  have aside {i : Nat} {c' : Coordinator} (other : i ≠ m)
      (changed : p'.coordinators = p.coordinators.set i c') (silent : happenings m p d = []) :
      ∃ c', p'.coordinators[m]? = some c' ∧ Evolves p p'.locks m c d c' (happenings m p d) := by
    refine ⟨c, ?_, silent ▸ .same d⟩
    rw [changed, List.getElem?_set_ne other]
    exact found
  cases change with
  | @turned i k e _ turn turned =>
      have news := happenings_turned (m := m) turn
      by_cases here : i = m
      · subst here
        rw [news, if_pos rfl]
        cases turned with
        | asked here waitless asked _ changed =>
            obtain rfl := Option.some.inj (found.symm.trans here.coordinator)
            exact ⟨_, own changed, .asked here waitless asked⟩
        | told here waiting told _ changed =>
            obtain rfl := Option.some.inj (found.symm.trans here.coordinator)
            exact ⟨_, own changed, .told here waiting told⟩
        | broke here waiting broke _ changed locks =>
            obtain rfl := Option.some.inj (found.symm.trans here.coordinator)
            exact ⟨_, own changed, .broke here waiting broke locks⟩
      · rw [if_neg here] at news
        cases turned with
        | asked _ _ _ _ changed | told _ _ _ _ changed | broke _ _ _ _ changed =>
            exact aside here changed news
  | idle _ coordinators _ silent => exact same coordinators (silent m)
  | @begun i c₀ parent token _ found₀ stopped _ _ changed =>
      by_cases here : i = m
      · subst here
        obtain rfl := Option.some.inj (found.symm.trans found₀)
        exact ⟨_, own changed, .begun parent token stopped⟩
      · exact aside here changed rfl
  | @ended i c₀ _ found₀ _ _ changed =>
      by_cases here : i = m
      · subst here
        obtain rfl := Option.some.inj (found.symm.trans found₀)
        exact ⟨_, own changed, .ended⟩
      · exact aside here changed rfl
  | stored act => exact same (by cases act <;> rfl) rfl
  | tampered | passed => exact same rfl rfl

/-- A coordinator keeps its part, its lock and its timing. -/
theorem Evolves.alike {locks : Locks} {c c' : Coordinator} {e : List Happening}
    (evolves : Evolves p locks m c d c' e) : c'.Alike c := by
  cases evolves with
  | same => exact .refl c
  | asked | broke => exact Coordinator.setRun_alike _ _ _
  | told => exact Coordinator.told_alike _ _ _ _
  | begun | ended => exact ⟨rfl, rfl, rfl⟩

/-- No coordinator comes or goes. -/
theorem Change.length (change : Change p d p') :
    p'.coordinators.length = p.coordinators.length := by
  cases change with
  | turned _ turned =>
      cases turned with
      | asked _ _ _ _ changed | told _ _ _ _ changed | broke _ _ _ _ changed =>
          rw [changed, List.length_set]
  | idle _ same => rw [same]
  | begun _ _ _ _ changed => rw [changed, List.length_set]
  | ended _ _ _ changed => rw [changed, List.length_set]
  | stored act => cases act <;> rfl
  | tampered | passed => rfl

end

/-- A run stays as it is when anything is done but a step of it, and anyway if it broke off. -/
theorem Change.keeps_run (change : Change p d p') {k : Nat} {c : Coordinator} {r : Run}
    (others : d = .step (.run m k) → ∃ o, r.wait = some (.broken o)) (here : p.At m k c r) :
    ∃ c', p'.At m k c' r ∧ c'.Alike c := by
  obtain ⟨c', found', evolves⟩ := change.evolves here.coordinator
  refine ⟨c', ⟨found', ?_⟩, evolves.alike⟩
  generalize happenings m p d = news at evolves
  -- a run that takes a turn has not broken off
  have other {l : Nat} {s : Run} (own : d = .step (.run m l)) (there : p.At m l c s)
      (going : ∀ o, s.wait ≠ some (.broken o)) : l ≠ k := by
    rintro rfl
    obtain ⟨o, broken⟩ := others own
    obtain rfl := (at_unique here there).2
    exact going o broken
  cases evolves with
  | same => exact here.run
  | asked there waitless =>
      exact (List.getElem?_set_ne (other rfl there (by simp [waitless]))).trans here.run
  | told there waiting told =>
      rw [Coordinator.told_runs]
      refine (List.getElem?_set_ne (other rfl there fun o broken => ?_)).trans here.run
      exact told.unbroken (Option.some.inj (waiting.symm.trans broken))
  | broke there waiting broke =>
      refine (List.getElem?_set_ne (other rfl there fun o broken => ?_)).trans here.run
      exact broke.unbroken (Option.some.inj (waiting.symm.trans broken))
  | begun =>
      exact (List.getElem?_append_left (List.getElem?_eq_some_iff.mp here.run).1).trans here.run
  | ended => exact here.run

theorem Change.now_eq (change : Change p d p') (still : ∀ time, d ≠ .pass time) :
    p'.now = p.now := by
  have framed (frame : p.Frame p') : p'.now = p.now := congrArg Clock.now frame.clock
  cases change with
  | turned _ turned =>
      cases turned with
      | asked _ _ _ frame | told _ _ _ frame | broke _ _ _ frame => exact framed frame
  | idle frame => exact framed frame
  | begun _ _ frame => exact framed frame
  | ended _ frame => exact framed frame
  | stored act => cases act <;> rfl
  | tampered => rfl
  | passed time => exact absurd rfl (still time)

/-- The clock never goes back. -/
theorem Change.now_le (change : Change p d p') : p.now ≤ p'.now := by
  by_cases passes : ∃ time, d = .pass time
  · obtain ⟨time, rfl⟩ := passes
    cases change with
    | idle frame => exact Nat.le_of_eq (congrArg Clock.now frame.clock).symm
    | passed => exact Nat.le_max_left _ _
  · exact Nat.le_of_eq (change.now_eq fun time same => passes ⟨time, same⟩).symm

/-! ## Fleets stay manned -/

namespace Change

variable {p' : Plant} {d : Deed}

theorem aside (change : Change p d p') : p'.stations = p.stations ∧
    p'.foreground = p.foreground ∧ p'.background = p.background ∧
    p'.ambient.clock.resolution = p.ambient.clock.resolution := by
  have framed (frame : p.Frame p') : p'.stations = p.stations ∧
      p'.foreground = p.foreground ∧ p'.background = p.background ∧
      p'.ambient.clock.resolution = p.ambient.clock.resolution :=
    ⟨frame.stations, frame.foreground, frame.background, by rw [frame.clock]⟩
  cases change with
  | turned _ turned =>
      cases turned with
      | asked _ _ _ frame | told _ _ _ frame | broke _ _ _ frame => exact framed frame
  | idle frame => exact framed frame
  | begun _ _ frame => exact framed frame
  | ended _ frame => exact framed frame
  | stored act =>
      cases act with
      | prepare => exact ⟨rfl, rfl, rfl, rfl⟩
      | _ => exact ⟨rfl, rfl, rfl, rfl⟩
  | tampered | passed => exact ⟨rfl, rfl, rfl, rfl⟩

/-- Doubles stay, though turns of them are used up. -/
theorem doubles (change : Change p d p') {i : Nat} {double : Double}
    (found : p.doubles[i]? = some double) : ∃ double' : Double, p'.doubles[i]? = some double' ∧
      double'.starts ⊆ double.starts ∧ double'.stops ⊆ double.stops := by
  cases change with
  | turned _ turned =>
      cases turned with
      | asked _ _ _ frame | told _ _ _ frame | broke _ _ _ frame => exact frame.doubles found
  | idle frame => exact frame.doubles found
  | begun _ _ frame => exact frame.doubles found
  | ended _ frame => exact frame.doubles found
  | stored act =>
      have same : (Shift.onStore p act).1.doubles = p.doubles := by cases act <;> rfl
      exact ⟨double, same ▸ found, List.Subset.refl _, List.Subset.refl _⟩
  | tampered | passed => exact ⟨double, found, List.Subset.refl _, List.Subset.refl _⟩

/-- Whoever is a coordinator was one before. -/
theorem coordinator (change : Change p d p') {i : Nat} {c' : Coordinator}
    (found' : p'.coordinators[i]? = some c') :
    ∃ c, p.coordinators[i]? = some c ∧ c'.Alike c := by
  have within : i < p.coordinators.length :=
    change.length ▸ (List.getElem?_eq_some_iff.mp found').1
  have found := List.getElem?_eq_getElem within
  obtain ⟨c'', found'', evolves⟩ := change.evolves found
  obtain rfl := Option.some.inj (found'.symm.trans found'')
  exact ⟨_, found, evolves.alike⟩

theorem run_same (same : p'.coordinators = p.coordinators) {i k : Nat} {c' : Coordinator}
    {r : Run} (there : p'.At i k c' r) : ∃ c, p.At i k c r ∧ c'.Alike c :=
  ⟨c', ⟨same ▸ there.coordinator, there.run⟩, .refl c'⟩

theorem run_begun {m : Nat} {c : Coordinator} {token : CancelToken}
    (found : p.coordinators[m]? = some c)
    (changed : p'.coordinators = p.coordinators.set m (c.begun token)) {i k : Nat}
    {c' : Coordinator} {r : Run} (there : p'.At i k c' r) :
    (∃ c, p.At i k c r ∧ c'.Alike c) ∨ r.phase = .acquiring ∧ r.wait = none := by
  obtain ⟨rfl, rfl⟩ | ⟨_, same⟩ := Plant.coordinators_of_set found changed there.coordinator
  · obtain old | ⟨_, rfl⟩ := getElem?_concat_cases there.run
    · exact .inl ⟨c, ⟨found, old⟩, ⟨rfl, rfl, rfl⟩⟩
    · exact .inr ⟨rfl, rfl⟩
  · exact .inl ⟨c', ⟨same, there.run⟩, .refl c'⟩

theorem run_ended {m : Nat} {c : Coordinator} (found : p.coordinators[m]? = some c)
    (changed : p'.coordinators = p.coordinators.set m { c with running := none }) {i k : Nat}
    {c' : Coordinator} {r : Run} (there : p'.At i k c' r) : ∃ c, p.At i k c r ∧ c'.Alike c := by
  obtain ⟨rfl, rfl⟩ | ⟨_, same⟩ := Plant.coordinators_of_set found changed there.coordinator
  · exact ⟨c, ⟨found, there.run⟩, ⟨rfl, rfl, rfl⟩⟩
  · exact ⟨c', ⟨same, there.run⟩, .refl c'⟩

/-- A run is as it was, or it has just been started, or it is the one that took a step. -/
theorem run (change : Change p d p') {i k : Nat} {c' : Coordinator} {r' : Run}
    (there : p'.At i k c' r') :
    (∃ c, p.At i k c r' ∧ c'.Alike c) ∨ (r'.phase = .acquiring ∧ r'.wait = none) ∨
      ∃ c r, p.At i k c r ∧ c'.Alike c ∧ p.Moved c p'.locks r r' := by
  cases change with
  | turned _ turned =>
      obtain ⟨rfl, rfl, moved⟩ | ⟨_, old⟩ := turned.run there
      · exact .inr (.inr moved)
      · exact .inl old
  | idle _ same => exact .inl (run_same same there)
  | begun found _ _ _ changed =>
      obtain old | new := run_begun found changed there
      · exact .inl old
      · exact .inr (.inl new)
  | ended found _ _ changed => exact .inl (run_ended found changed there)
  | stored act =>
      have same : (Shift.onStore p act).1.coordinators = p.coordinators := by cases act <;> rfl
      exact .inl (run_same same there)
  | tampered locks =>
      have same : ({ p with locks := locks } : Plant).coordinators = p.coordinators := rfl
      exact .inl (run_same same there)
  | passed time =>
      have same : (p.moveTo time).coordinators = p.coordinators := rfl
      exact .inl (run_same same there)

end Change

theorem act_manned (manned : p.Manned) (d : Deed) : (act p d).Manned := by
  have change := act_change manned d
  obtain ⟨stations, foreground, background, _⟩ := change.aside
  refine ⟨stations.trans manned.stations, foreground.trans manned.foreground,
    background.trans manned.background, ?_, ?_⟩
  · intro i c' found'
    obtain ⟨c, found, alike⟩ := change.coordinator found'
    obtain ⟨j, double, part, doubled⟩ := manned.parts found
    obtain ⟨double', doubled', _⟩ := change.doubles doubled
    exact ⟨j, double', alike.part.trans part, doubled'⟩
  · intro i k c' r' w there waiting
    obtain ⟨c, here, _⟩ | ⟨_, waitless⟩ | ⟨c, r, here, _, moved⟩ := change.run there
    · exact manned.waits here waiting
    · simp [waitless] at waiting
    · cases moved with
      | asked _ asked => exact Option.some.inj waiting ▸ asked.suits
      | told => simp at waiting
      | broke _ broke => exact Option.some.inj waiting ▸ broke.suits

theorem run_manned (manned : p.Manned) (deeds : List Deed) : (run p deeds).Manned := by
  induction deeds generalizing p with
  | nil => exact manned
  | cons d rest ih => exact ih (act_manned manned d)

/-- Whoever is a member was one from the beginning. -/
theorem run_found (manned : p.Manned) {deeds : List Deed} {m : Nat} {c : Coordinator}
    (found : (run p deeds).coordinators[m]? = some c) :
    ∃ c₀, p.coordinators[m]? = some c₀ ∧ c.Alike c₀ := by
  induction deeds generalizing p with
  | nil => exact ⟨c, found, .refl c⟩
  | cons d rest ih =>
      obtain ⟨c₁, found₁, later⟩ := ih (act_manned manned d) found
      obtain ⟨c₀, found₀, before⟩ := (act_change manned d).coordinator found₁
      exact ⟨c₀, found₀, later.trans before⟩

/-- A member before it is started. -/
theorem begin_coordinator {clock : Clock} {locks : Locks} {members : List Relay.Member} {i : Nat}
    {c : Coordinator} (found : (begin clock locks members).coordinators[i]? = some c) :
    ∃ member, members[i]? = some member ∧
      c = ⟨member.double.name, member.double.lockId, .double i, member.config, .unlocked, 0, none,
        [], 0, []⟩ := by
  have listed : (begin clock locks members).coordinators = members.zipIdx.map fun m =>
    ⟨m.1.double.name, m.1.double.lockId, .double m.2, m.1.config, .unlocked, 0, none, [], 0, []⟩ :=
    rfl
  rw [listed, List.getElem?_map, List.getElem?_zipIdx, Option.map_map,
    Option.map_eq_some_iff] at found
  obtain ⟨member, mem, rfl⟩ := found
  exact ⟨member, mem, by simp⟩

theorem begin_double {clock : Clock} {locks : Locks} {members : List Relay.Member} {i : Nat}
    {member : Relay.Member} (mem : members[i]? = some member) :
    (begin clock locks members).doubles[i]? = some member.double := by
  have listed : (begin clock locks members).doubles = members.map (·.double) := rfl
  rw [listed, List.getElem?_map, mem]
  rfl

theorem begin_no_runs {clock : Clock} {locks : Locks} {members : List Relay.Member} {i k : Nat}
    {c : Coordinator} {r : Run} : ¬(begin clock locks members).At i k c r := by
  intro here
  obtain ⟨member, _, rfl⟩ := begin_coordinator here.coordinator
  simpa using here.run

theorem begin_manned (clock : Clock) (locks : Locks) (members : List Relay.Member) :
    (begin clock locks members).Manned where
  stations := rfl
  foreground := rfl
  background := rfl
  parts found := by
    obtain ⟨member, mem, rfl⟩ := begin_coordinator found
    exact ⟨_, member.double, rfl, begin_double mem⟩
  waits here := absurd here begin_no_runs

/-! ## The clock -/

theorem mem_tasks {i k : Nat} {c : Coordinator} {r : Run} (here : p.At i k c r) :
    .run i k ∈ p.tasks := by
  have member := (List.getElem?_eq_some_iff.mp here.coordinator).1
  have run := (List.getElem?_eq_some_iff.mp here.run).1
  simp only [Plant.tasks, List.mem_append]
  refine .inl (.inl (.inl (.inr (List.mem_flatMap.mpr ⟨i, List.mem_range.mpr member, ?_⟩))))
  simp only [here.coordinator]
  exact List.mem_map_of_mem (List.mem_range.mpr run)

theorem mem_wakes {i k : Nat} {c : Coordinator} {r : Run} {w : Wait} (here : p.At i k c r)
    (waiting : r.wait = some w) (suits : Wait.Suits r.phase w) (going : ∀ o, w ≠ .broken o) :
    w.dueAt ∈ p.wakes := by
  have own : w.dueAt ∈ Plant.waitWakes w := by
    generalize r.phase = phase at suits
    cases suits with
    | brokenAcquire o | brokenRenewal _ _ o => exact absurd rfl (going o)
    | _ => simp [Wait.dueAt, Plant.waitWakes, Plant.callWakes]
  have listed : w.dueAt ∈ p.coordinators.flatMap fun c =>
      c.runs.flatMap fun r => r.wait.toList.flatMap Plant.waitWakes := by
    refine List.mem_flatMap.mpr ⟨c, List.mem_of_getElem? here.coordinator, ?_⟩
    refine List.mem_flatMap.mpr ⟨r, List.mem_of_getElem? here.run, ?_⟩
    exact List.mem_flatMap.mpr ⟨w, by simp [waiting], own⟩
  simp [Plant.wakes, listed]

theorem nextAlarm?_le {t : Nat} (wake : t ∈ p.wakes) (ahead : p.now < p.ambient.clock.alarm t) :
    ∃ next, p.nextAlarm? = some next ∧ next ≤ p.ambient.clock.alarm t := by
  have mem : p.ambient.clock.alarm t ∈
      (p.wakes.map p.ambient.clock.alarm).filter fun t => p.now < t :=
    List.mem_filter.mpr ⟨List.mem_map_of_mem wake, by simpa using ahead⟩
  cases least : p.nextAlarm? with
  | none => simp [List.min?_eq_none_iff.mp least] at mem
  | some next => exact ⟨next, rfl, (List.min?_eq_some_iff.mp least).2 _ mem⟩

/-- When the clock moves on, a run that is not over waits for something that is not due, and the
clock does not move past that. -/
theorem OnTime.wait {time : Nat} (onTime : OnTime p (.pass time)) (manned : p.Manned) {i k : Nat}
    {c : Coordinator} {r : Run} (here : p.At i k c r) (going : r.isOver = false) :
    ∃ w, r.wait = some w ∧ p.due w.dueAt = false ∧ time ≤ p.ambient.clock.alarm w.dueAt := by
  obtain ⟨quiet, before⟩ := onTime
  have stuck : p.step? (.run i k) = none :=
    Option.isNone_iff_eq_none.mp (List.all_eq_true.mp quiet _ (mem_tasks here))
  obtain ⟨unfinished, unbroken⟩ := Run.isOver_eq_false_iff.mp going
  simp only [Plant.step?, Plant.stepRun, here.coordinator, here.run] at stuck
  cases waiting : r.wait with
  | none =>
      simp only [waiting, Option.map_eq_none_iff] at stuck
      have asks := Plant.ask_isSome (p := p) (c := c) unfinished
      simp [stuck] at asks
  | some w =>
      simp only [waiting, Option.map_eq_none_iff] at stuck
      have suits := manned.waits here waiting
      have going (o : Overflow) : w ≠ .broken o := fun same => unbroken o (same ▸ waiting)
      have early : p.due w.dueAt = false := by
        refine Bool.eq_false_iff.mpr fun due => ?_
        have answers := Plant.reply?_isSome (p := p) (c := c) suits going due
        simp [stuck] at answers
      have ahead : p.now < p.ambient.clock.alarm w.dueAt := by
        simpa [Plant.due, Clock.due, Plant.now, Ambient.now] using early
      obtain ⟨next, least, le⟩ := nextAlarm?_le (mem_wakes here waiting suits going) ahead
      exact ⟨w, rfl, early, Nat.le_trans (before next least) le⟩

end Fleet

end Courier
