import Courier.Proofs.Singleton.Fleet
import Courier.Proofs.Singleton.Retries

/-!
# Renewals in a fleet

A renewal begins when a run of a member turns from holding its lease to renewing it. `Fleet.trail`
tells what happens in that one run, with the times, while others do what they like, locks behave as
they like and tokens are cancelled at any time. Where a run stands (`Fleet.Stands`) is a point of
the renewal, and a step of the run is a move from it; all other deeds leave it where it is. A call
to the store may also break off, and then the run goes no further.
-/

namespace Courier

open Courier.Singleton (Phase Request Reply Happening Moment Point Upshot Move Path Stretch Renews
  retryDelay call)

namespace Singleton

/-- The delays that are left after some failed tries. -/
def delaysLeft (c : SingletonConfig) (n : Nat) : Backoff :=
  ⟨retryDelay c n, c.renewRetries.toNat - n⟩

theorem next?_delaysLeft {c : SingletonConfig} {n : Nat} (lt : n < c.renewRetries.toNat) :
    (delaysLeft c n).next? = some (retryDelay c n, delaysLeft c (n + 1)) := by
  obtain ⟨left, more⟩ := Nat.exists_eq_add_of_lt lt
  have here : c.renewRetries.toNat - n = left + 1 := by omega
  have there : c.renewRetries.toNat - (n + 1) = left := by omega
  rw [delaysLeft, delaysLeft, here, there, Backoff.next?_succ]
  rfl

theorem next?_delaysLeft_last (c : SingletonConfig) :
    (delaysLeft c c.renewRetries.toNat).next? = none := by
  rw [delaysLeft, Nat.sub_self, Backoff.next?_zero]

/-- The phase to which a renewal leads. -/
def Upshot.phase (lease : LeaseHandle) : Upshot → Phase
  | .renewed => .holding lease
  | .lost => .stopping lease .lost
  | .cancelled => .stopping lease .cancelled

namespace Point

variable (c : SingletonConfig) (lease : LeaseHandle) (alarm : Nat → Nat) (now : Nat)

def phase : Point → Phase
  | .about n _ | .trying n _ => .renewing lease (delaysLeft c n)
  | .shaken n _ | .resting n _ => .pausing lease (retryDelay c n) (delaysLeft c (n + 1))
  | .ended upshot => upshot.phase lease

/-- What a run at a point waits for. -/
def Waits : Point → Option Wait → Prop
  | .trying _ since, w =>
    ∃ turn t, w = some (.locks turn t (some (since + c.renewTimeout.nanoseconds)))
  | .resting n since, w => w = some (.rest (since + (retryDelay c n).nanoseconds))
  | _, w => w = none

/-- What a run at a point waits for no longer than. -/
def timer? : Point → Option Nat
  | .trying _ since => some (since + c.renewTimeout.nanoseconds)
  | .resting n since => some (since + (retryDelay c n).nanoseconds)
  | _ => none

/-- No time was lost. -/
def IsPrompt : Point → Prop
  | .about _ since | .shaken _ since => now = since
  | .resting n since => now ≤ alarm (since + (retryDelay c n).nanoseconds)
  | _ => True

end Point

end Singleton

namespace Fleet

/-- What happens in a run of a member when it takes a step. -/
def moment? (m k : Nat) (p : Plant) : Option Moment := do
  let c ← p.coordinators[m]?
  let r ← c.runs[k]?
  let (e, _) ← p.turn? m k
  return ⟨p.now, e, r.wait.all fun w => p.due w.dueAt, p.ambient.isCancelled r.token⟩

def moments (m k : Nat) (p : Plant) : Deed → List Moment
  | .step (.run i j) => if i = m ∧ j = k then (moment? m k p).toList else []
  | _ => []

/-- What happens in a run of a member. -/
def trail (m k : Nat) (p : Plant) : List Deed → List Moment
  | [] => []
  | d :: rest => moments m k p d ++ trail m k (act p d) rest

/-- A run of a member stands at a point of a renewal. -/
structure Stands (m k : Nat) (config : SingletonConfig) (lease : LeaseHandle) (alarm : Nat → Nat)
    (prompt : Prop) (p : Plant) (b : Point) : Prop where
  clock : p.ambient.clock.alarm = alarm
  place : ∃ c r, p.At m k c r ∧ c.config = config ∧ r.phase = b.phase config lease ∧
    b.Waits config r.wait
  bound : b.InBounds config
  /-- No timer goes off too early. -/
  ahead : prompt → ∀ t, t ≤ alarm t
  onTime : prompt → b.IsPrompt config alarm p.now

variable {p p' : Plant} {d : Deed} {m k : Nat} {c : Coordinator} {r : Run}
variable {config : SingletonConfig} {lease : LeaseHandle} {alarm : Nat → Nat} {prompt : Prop}
variable {b : Point}

/-! ## What others do -/

theorem Change.alarm_eq (change : Change p d p') :
    p'.ambient.clock.alarm = p.ambient.clock.alarm := by
  funext t
  rw [Clock.alarm, Clock.alarm, change.aside.2.2.2]

theorem moment?_eq (here : p.At m k c r) : moment? m k p = (p.turn? m k).map fun turn =>
    ⟨p.now, turn.1, r.wait.all fun w => p.due w.dueAt, p.ambient.isCancelled r.token⟩ := by
  simp only [moment?, here.coordinator, here.run, Option.bind_eq_bind, Option.bind_some]
  cases p.turn? m k <;> rfl

theorem moments_other (others : d ≠ .step (.run m k)) : moments m k p d = [] := by
  unfold moments
  split
  · split
    · rename_i i j same
      exact absurd (by rw [same.1, same.2]) others
    · rfl
  · rfl

theorem moments_own : moments m k p (.step (.run m k)) = (moment? m k p).toList := by
  simp [moments]

namespace Stands

/-- The clock does not lose time for a run that stands at a point. -/
theorem prompt_pass (stands : Stands m k config lease alarm prompt p b) (manned : p.Manned)
    {time : Nat} (onTime : OnTime p (.pass time)) (before : b.IsPrompt config alarm p.now) :
    b.IsPrompt config alarm (act p (.pass time)).now := by
  obtain ⟨c, r, here, same, phase, waits⟩ := stands.place
  have later : (act p (.pass time)).now = max p.now time := rfl
  cases b with
  | about n since | shaken n since =>
      have waitless : r.wait = none := waits
      have going : r.isOver = false :=
        Run.isOver_eq_false_iff.mpr ⟨by simp [phase, Point.phase], by simp [waitless]⟩
      obtain ⟨w, waiting, _⟩ := onTime.wait manned here going
      cases waitless.symm.trans waiting
  | resting n since =>
      have resting : r.wait = some (.rest (since + (retryDelay config n).nanoseconds)) := waits
      have going : r.isOver = false :=
        Run.isOver_eq_false_iff.mpr ⟨by simp [phase, Point.phase], by simp [resting]⟩
      obtain ⟨w, waiting, _, early⟩ := onTime.wait manned here going
      obtain rfl := Option.some.inj (waiting.symm.trans waits)
      rw [stands.clock] at early
      rw [later]
      exact Nat.max_le.mpr ⟨before, early⟩
  | trying | ended => exact trivial

/-- A run that stands at a point stays there when anything is done but a step of it. -/
theorem keep (stands : Stands m k config lease alarm prompt p b) (manned : p.Manned)
    (others : d ≠ .step (.run m k)) (onTime : prompt → OnTime p d) :
    Stands m k config lease alarm prompt (act p d) b := by
  have change := act_change manned d
  obtain ⟨c, r, here, same, phase, waits⟩ := stands.place
  obtain ⟨c', there, alike⟩ := change.keeps_run (fun own => absurd own others) here
  refine ⟨change.alarm_eq.trans stands.clock, ⟨c', r, there, alike.config.trans same, phase, waits⟩,
    stands.bound, stands.ahead, fun on => ?_⟩
  by_cases passes : ∃ time, d = .pass time
  · obtain ⟨time, rfl⟩ := passes
    exact stands.prompt_pass manned (onTime on) (stands.onTime on)
  · rw [change.now_eq fun time same => passes ⟨time, same⟩]
    exact stands.onTime on

end Stands

/-! ## What a run does itself -/

/-- After it has asked, a run waits. -/
theorem at_setRun {w : Wait} (here : p.At m k c r)
    (changed : p'.coordinators = p.coordinators.set m (c.setRun k { r with wait := some w })) :
    p'.At m k (c.setRun k { r with wait := some w }) { r with wait := some w } where
  coordinator := by
    rw [changed]
    exact List.getElem?_set_self (List.getElem?_eq_some_iff.mp here.coordinator).1
  run := List.getElem?_set_self (List.getElem?_eq_some_iff.mp here.run).1

/-- After it was told, a run is in the next phase. -/
theorem at_told {reply : Reply} (here : p.At m k c r)
    (changed : p'.coordinators = p.coordinators.set m (c.told k r reply)) :
    p'.At m k (c.told k r reply) { r with phase := r.phase.next c.config reply, wait := none } where
  coordinator := by
    rw [changed]
    exact List.getElem?_set_self (List.getElem?_eq_some_iff.mp here.coordinator).1
  run := by
    rw [Coordinator.told_runs]
    exact List.getElem?_set_self (List.getElem?_eq_some_iff.mp here.run).1

/-- A rest that is broken off is not said to be over. -/
theorem uncancelled_of_elapsed (here : p.At m k c r) {t : Nat} (waiting : r.wait = some (.rest t))
    (turn : p.turn? m k = some (.told .elapsed, p')) : p.ambient.isCancelled r.token = false := by
  simp only [Plant.turn?, here.coordinator, here.run, waiting, Plant.reply?] at turn
  split at turn
  · simp at turn
  · rename_i not
    simpa using not

/-- A step that is not taken changes nothing. -/
theorem act_untaken (stuck : p.turn? m k = none) : act p (.step (.run m k)) = p := by
  rw [act, Plant.step?, Plant.stepRun_eq, stuck]
  rfl

theorem act_taken {e : Happening} (turn : p.turn? m k = some (e, p')) :
    act p (.step (.run m k)) = p' := by
  rw [act, Plant.step?, Plant.stepRun_eq, turn]
  rfl

namespace Stands

variable {w : Wait} {reply : Reply} {n since : Nat} {came cancelled : Bool}

theorem own (stands : Stands m k config lease alarm prompt p b) (here : p.At m k c r) :
    c.config = config ∧ r.phase = b.phase config lease ∧ b.Waits config r.wait := by
  obtain ⟨c', r', here', same⟩ := stands.place
  obtain ⟨rfl, rfl⟩ := at_unique here here'
  exact same

/-- Where a run stands after a step of it. -/
theorem reach {b' : Point} {c' : Coordinator} {r' : Run}
    (stands : Stands m k config lease alarm prompt p b) (frame : p.Frame p')
    (there : p'.At m k c' r') (same : c'.config = config)
    (phase : r'.phase = b'.phase config lease) (waits : b'.Waits config r'.wait)
    (bound : b'.InBounds config) (onTime : prompt → b'.IsPrompt config alarm p.now) :
    Stands m k config lease alarm prompt p' b' where
  clock := by
    rw [frame.clock]
    exact stands.clock
  place := ⟨c', r', there, same, phase, waits⟩
  bound := bound
  ahead := stands.ahead
  onTime := by
    rw [show p'.now = p.now from congrArg Clock.now frame.clock]
    exact onTime

theorem reach_ended {u : Upshot} {c' : Coordinator} {r' : Run}
    (stands : Stands m k config lease alarm prompt p b) (frame : p.Frame p')
    (there : p'.At m k c' r') (same : c'.config = config) (phase : r'.phase = u.phase lease)
    (waitless : r'.wait = none) : Stands m k config lease alarm prompt p' (.ended u) :=
  stands.reach frame there same phase waitless trivial fun _ => trivial

/-- What a run asks for in a renewal. -/
theorem asked (stands : Stands m k config lease alarm prompt p b) (going : ∀ u, b ≠ .ended u)
    (here : p.At m k c r) (waitless : r.wait = none) (asked : p.Asked c r.phase w)
    (frame : p.Frame p')
    (changed : p'.coordinators = p.coordinators.set m (c.setRun k { r with wait := some w })) :
    ∃ b', Move config lease alarm prompt b
        ⟨p.now, .asked (r.phase.request c.config), came, cancelled⟩ b' ∧
      Stands m k config lease alarm prompt p' b' := by
  obtain ⟨rfl, phase, waits⟩ := stands.own here
  have there := at_setRun here changed
  have onTime := stands.onTime
  cases b with
  | about n since =>
      rw [Point.phase] at phase
      rw [phase] at asked ⊢
      refine ⟨.trying n p.now, .calls rfl onTime, ?_⟩
      cases asked with
      | rest resting => cases resting
      | renew =>
          exact stands.reach frame there rfl phase ⟨_, _, rfl⟩ stands.bound fun _ => trivial
  | shaken n since =>
      rw [Point.phase] at phase
      rw [phase] at asked ⊢
      refine ⟨.resting n p.now, .rests rfl onTime, ?_⟩
      cases asked with
      | rest resting =>
          cases resting
          refine stands.reach frame there rfl phase rfl stands.bound fun on => ?_
          exact Nat.le_trans (Nat.le_add_right _ _) (stands.ahead on _)
  | trying n since =>
      obtain ⟨_, _, waiting⟩ := waits
      cases waitless.symm.trans waiting
  | resting n since => cases waitless.symm.trans waits
  | ended u => exact absurd rfl (going u)

/-- The store finds that the lease is good, or that it is lost. -/
theorem answered {good : Bool}
    (stands : Stands m k config lease alarm prompt p (.trying n since)) (here : p.At m k c r)
    (frame : p.Frame p')
    (changed : p'.coordinators = p.coordinators.set m (c.told k r (.renewed (some good)))) :
    ∃ b', Move config lease alarm prompt (.trying n since)
        ⟨p.now, .told (.renewed (some good)), true, cancelled⟩ b' ∧
      Stands m k config lease alarm prompt p' b' := by
  obtain ⟨rfl, phase, _⟩ := stands.own here
  have there := at_told here changed
  have same := Coordinator.told_config c k r (.renewed (some good))
  rw [phase] at there
  cases good with
  | true => exact ⟨_, .renewed rfl rfl, stands.reach_ended frame there same rfl rfl⟩
  | false => exact ⟨_, .lost rfl rfl, stands.reach_ended frame there same rfl rfl⟩

/-- The store fails, or it does not answer in time. -/
theorem unanswered (stands : Stands m k config lease alarm prompt p (.trying n since))
    (here : p.At m k c r) (frame : p.Frame p')
    (changed : p'.coordinators = p.coordinators.set m (c.told k r (.renewed none)))
    (silent : came = true ∨ alarm (since + config.renewTimeout.nanoseconds) ≤ p.now) :
    ∃ b', Move config lease alarm prompt (.trying n since)
        ⟨p.now, .told (.renewed none), came, cancelled⟩ b' ∧
      Stands m k config lease alarm prompt p' b' := by
  obtain ⟨rfl, phase, _⟩ := stands.own here
  have there := at_told here changed
  have same := Coordinator.told_config c k r (.renewed none)
  rw [phase] at there
  have bound : n ≤ c.config.renewRetries.toNat := stands.bound
  obtain left | rfl := Nat.lt_or_eq_of_le bound
  · refine ⟨_, .fails rfl silent left, stands.reach frame there same ?_ rfl left fun _ => rfl⟩
    simp only [Point.phase, Phase.next, Singleton.next?_delaysLeft left]
  · refine ⟨_, .exhausted rfl silent, stands.reach_ended frame there same ?_ rfl⟩
    simp only [Upshot.phase, Point.phase, Phase.next, Singleton.next?_delaysLeft_last]

theorem told_trying {locks : Locks}
    (stands : Stands m k config lease alarm prompt p (.trying n since))
    (here : p.At m k c r) (waiting : r.wait = some w)
    (told : p.Told c r.token r.phase w reply locks) (frame : p.Frame p')
    (changed : p'.coordinators = p.coordinators.set m (c.told k r reply)) :
    ∃ b', Move config lease alarm prompt (.trying n since)
        ⟨p.now, .told reply, p.due w.dueAt, cancelled⟩ b' ∧
      Stands m k config lease alarm prompt p' b' := by
  obtain ⟨_, phase, turn, t, waits⟩ := stands.own here
  obtain rfl := Option.some.inj (waiting.symm.trans waits)
  rw [Point.phase] at phase
  rw [phase] at told
  cases told with
  | @renewed _ _ _ _ _ _ good due =>
      rw [show p.due (Wait.locks turn t _).dueAt = true from due]
      cases good with
      | none => exact stands.unanswered here frame changed (.inl rfl)
      | some good => exact stands.answered here frame changed
  | late early ended =>
      refine stands.unanswered here frame changed (.inr ?_)
      rw [← stands.clock]
      exact of_decide_eq_true ended

/-- A rest is over, or it is broken off. -/
theorem told_resting {locks : Locks}
    (stands : Stands m k config lease alarm prompt p (.resting n since))
    (here : p.At m k c r) (waiting : r.wait = some w)
    (told : p.Told c r.token r.phase w reply locks) (frame : p.Frame p')
    (changed : p'.coordinators = p.coordinators.set m (c.told k r reply))
    (turn : p.turn? m k = some (.told reply, p')) :
    ∃ b', Move config lease alarm prompt (.resting n since)
        ⟨p.now, .told reply, came, p.ambient.isCancelled r.token⟩ b' ∧
      Stands m k config lease alarm prompt p' b' := by
  obtain ⟨rfl, phase, waits⟩ := stands.own here
  obtain rfl := Option.some.inj (waiting.symm.trans waits)
  have there := at_told here changed
  have same := Coordinator.told_config c k r reply
  rw [phase, Point.phase] at told
  rw [phase] at there
  cases told with
  | elapsed _ due =>
      have elapsed : alarm (since + (retryDelay c.config n).nanoseconds) ≤ p.now := by
        rw [← stands.clock]
        exact of_decide_eq_true due
      have uncancelled := uncancelled_of_elapsed here waiting turn
      refine ⟨.about (n + 1) p.now, .wakes rfl uncancelled elapsed fun on => ?_, ?_⟩
      · exact Nat.le_antisymm (stands.onTime on) elapsed
      · exact stands.reach frame there same rfl rfl stands.bound fun _ => rfl
  | cancelled _ cancelled =>
      exact ⟨_, .breaks rfl cancelled, stands.reach_ended frame there same rfl rfl⟩

/-- A step of a run in a renewal is a move, unless its call breaks off. -/
theorem turn (stands : Stands m k config lease alarm prompt p b) (going : ∀ u, b ≠ .ended u)
    (manned : p.Manned) (here : p.At m k c r) {e : Happening}
    (turn : p.turn? m k = some (e, p')) :
    (∃ b', Move config lease alarm prompt b ⟨p.now, e, r.wait.all fun w => p.due w.dueAt,
        p.ambient.isCancelled r.token⟩ b' ∧ Stands m k config lease alarm prompt p' b') ∨
      (∃ n since, b = .trying n since) ∧ ∃ o c' r', e = .broke o ∧ p'.At m k c' r' ∧
        r'.wait = some (.broken o) := by
  cases manned.turned turn with
  | asked here' waitless asked frame changed =>
      obtain ⟨rfl, rfl⟩ := at_unique here' here
      exact .inl (stands.asked going here waitless asked frame changed)
  | @broke _ _ w o _ here' waiting broke frame changed =>
      obtain ⟨rfl, rfl⟩ := at_unique here' here
      obtain ⟨-, phase, waits⟩ := stands.own here
      refine .inr ⟨?_, o, _, _, rfl, at_setRun here changed, rfl⟩
      cases b with
      | trying n since => exact ⟨n, since, rfl⟩
      | resting n since =>
          obtain rfl := Option.some.inj (waiting.symm.trans waits)
          rw [phase] at broke
          cases broke
      | about n since | shaken n since => cases waiting.symm.trans waits
      | ended u => exact absurd rfl (going u)
  | told here' waiting told frame changed =>
      obtain ⟨rfl, rfl⟩ := at_unique here' here
      rw [waiting]
      refine .inl ?_
      cases b with
      | trying n since => exact stands.told_trying here waiting told frame changed
      | resting n since => exact stands.told_resting here waiting told frame changed turn
      | about n since | shaken n since => cases waiting.symm.trans (stands.own here).2.2
      | ended u => exact absurd rfl (going u)

end Stands

/-! ## A whole renewal -/

/-- Either nothing happens in a run, or it takes a step. -/
theorem Stands.idle_or_turn (stands : Stands m k config lease alarm prompt p b)
    (manned : p.Manned) (onTime : prompt → OnTime p d) :
    (moments m k p d = [] ∧ Stands m k config lease alarm prompt (act p d) b) ∨
    ∃ c r e, p.At m k c r ∧ p.turn? m k = some (e, act p d) ∧
      moments m k p d = [⟨p.now, e, r.wait.all fun w => p.due w.dueAt,
        p.ambient.isCancelled r.token⟩] := by
  by_cases own : d = .step (.run m k)
  · subst own
    -- a step that the run cannot take is no step
    obtain ⟨c, r, here, _⟩ := stands.place
    rw [moments_own, moment?_eq here]
    cases turn : p.turn? m k with
    | none => exact .inl ⟨rfl, (act_untaken turn).symm ▸ stands⟩
    | some taken => exact .inr ⟨c, r, taken.1, here, (act_taken turn).symm ▸ rfl, rfl⟩
  · exact .inl ⟨moments_other own, stands.keep manned own onTime⟩

/-- What follows when a renewal has come to a point. -/
inductive Sequel (m k : Nat) (config : SingletonConfig) (lease : LeaseHandle) (alarm : Nat → Nat)
    (prompt : Prop) (p : Plant) : Point → List Moment → Prop where
  /-- Nothing yet. -/
  | here {b : Point} : Stands m k config lease alarm prompt p b →
      Sequel m k config lease alarm prompt p b []
  /-- The run does what is next in the phase to which the renewal has led. -/
  | beyond {u : Upshot} {first : Moment} {more : List Moment} :
      first.event = .asked ((u.phase lease).request config) →
      Sequel m k config lease alarm prompt p (.ended u) (first :: more)
  /-- The call broke off, and nothing follows. -/
  | broken {n since : Nat} {o : Overflow} {last : Moment} : last.event = .broke o →
      Sequel m k config lease alarm prompt p (.trying n since) [last]

theorem Stands.sequel_ended {u : Upshot}
    (stands : Stands m k config lease alarm prompt p (.ended u)) (manned : p.Manned)
    {deeds : List Deed} (onTime : prompt → Timely p deeds) :
    Sequel m k config lease alarm prompt (run p deeds) (.ended u) (trail m k p deeds) := by
  induction deeds generalizing p with
  | nil => exact .here stands
  | cons d rest ih =>
      rw [trail, run_cons]
      obtain ⟨silent, stands'⟩ | ⟨c, r, e, here, turn, news⟩ :=
        stands.idle_or_turn manned fun on => (onTime on).1
      · rw [silent, List.nil_append]
        exact ih stands' (act_manned manned d) fun on => (onTime on).2
      · rw [news, List.singleton_append]
        refine .beyond ?_
        obtain ⟨rfl, phase, waits⟩ := stands.own here
        rw [Point.phase] at phase
        cases manned.turned turn with
        | asked here' =>
            obtain ⟨rfl, rfl⟩ := at_unique here' here
            rw [phase]
        | told here' waiting | broke here' waiting =>
            obtain ⟨rfl, rfl⟩ := at_unique here' here
            cases waiting.symm.trans waits

/-- Nothing happens in a run any more that broke off. -/
theorem trail_of_broken {o : Overflow} (manned : p.Manned) (here : p.At m k c r)
    (broken : r.wait = some (.broken o)) (deeds : List Deed) : trail m k p deeds = [] := by
  induction deeds generalizing p c with
  | nil => rfl
  | cons d rest ih =>
      have silent : moments m k p d = [] := by
        by_cases own : d = .step (.run m k)
        · subst own
          have stuck : p.turn? m k = none := by
            simp [Plant.turn?, here.coordinator, here.run, broken, Plant.reply?]
          rw [moments_own, moment?_eq here, stuck]
          rfl
        · exact moments_other own
      obtain ⟨c', there, _⟩ := (act_change manned d).keeps_run (fun _ => ⟨o, broken⟩) here
      rw [trail, silent, List.nil_append]
      exact ih (act_manned manned d) there

/-- What happens in a run goes from point to point until the renewal is over. -/
theorem Stands.path (stands : Stands m k config lease alarm prompt p b) (manned : p.Manned)
    {deeds : List Deed} (onTime : prompt → Timely p deeds) :
    ∃ h later b', trail m k p deeds = h ++ later ∧ Path config lease alarm prompt b h b' ∧
      Sequel m k config lease alarm prompt (run p deeds) b' later := by
  -- where the renewal is over the way ends, whatever deeds are left
  induction deeds generalizing p b with
  | nil => exact ⟨[], [], b, rfl, .stay b, .here stands⟩
  | cons d rest ih =>
      by_cases going : ∀ u, b ≠ .ended u
      · have manned' := act_manned manned d
        have later (on : prompt) := (onTime on).2
        rw [trail, run_cons]
        obtain ⟨silent, stands'⟩ | ⟨c, r, e, here, turn, news⟩ :=
          stands.idle_or_turn manned fun on => (onTime on).1
        · rw [silent, List.nil_append]
          exact ih stands' manned' later
        · obtain ⟨b₁, move, stands₁⟩ | ⟨⟨n, since, rfl⟩, o, c', r', rfl, there, broken⟩ :=
            stands.turn going manned here turn
          · obtain ⟨h, after, b', trailed, path, sequel⟩ := ih stands₁ manned' later
            refine ⟨_ :: h, after, b', ?_, .go move path, sequel⟩
            rw [news, trailed]
            rfl
          · refine ⟨[], _, _, rfl, .stay _, ?_⟩
            rw [news, trail_of_broken manned' there broken]
            exact .broken rfl
      · obtain ⟨u, rfl⟩ : ∃ u, b = .ended u := by simpa using going
        exact ⟨[], _, _, rfl, .stay _, stands.sequel_ended manned onTime⟩

/-- A run in a renewal gets stuck only until its timer goes off. -/
theorem Stands.timer_ahead (stands : Stands m k config lease alarm prompt p b)
    (stuck : p.turn? m k = none) : ∃ t ∈ b.timer? config, p.now < alarm t := by
  obtain ⟨c, r, here, rfl, phase, waits⟩ := stands.place
  rw [← stands.clock]
  simp only [Plant.turn?, here.coordinator, here.run] at stuck
  have asking (waitless : r.wait = none) (going : r.phase ≠ .finished) : False := by
    rw [waitless] at stuck
    have asks := Plant.ask_isSome (p := p) (c := c) going
    simp only [Option.map_eq_none_iff.mp stuck, Option.isSome_none, Bool.false_eq_true] at asks
  cases b with
  | about n since | shaken n since => exact (asking waits (by simp [phase, Point.phase])).elim
  | ended u => exact (asking waits (by cases u <;> simp [phase, Point.phase, Upshot.phase])).elim
  | trying n since =>
      obtain ⟨turn, t, waiting⟩ := waits
      refine ⟨_, rfl, Nat.lt_of_not_le fun due => ?_⟩
      rw [waiting] at stuck
      have late : p.due (since + c.config.renewTimeout.nanoseconds) = true := decide_eq_true due
      simp only [Plant.reply?, late, Option.map_eq_none_iff] at stuck
      split at stuck <;> simp at stuck
  | resting n since =>
      refine ⟨_, rfl, Nat.lt_of_not_le fun due => ?_⟩
      rw [show r.wait = _ from waits] at stuck
      have ended : p.due (since + (retryDelay c.config n).nanoseconds) = true := decide_eq_true due
      simp only [Plant.reply?, ended, Option.map_eq_none_iff] at stuck
      split at stuck <;> simp at stuck

/-- Whatever others do and however the store answers, a renewal goes as the answers and the
cancellation of the run decide, and after it the run does what is next. -/
theorem renewal_follows_answers (clock : Clock) (locks : Locks) (members : List Relay.Member)
    (before after : List Deed) (m k : Nat) (c : Coordinator) (r : Run) (lease : LeaseHandle)
    (here : (run (begin clock locks members) before).At m k c r)
    (renewing : r.phase = .renewing lease (Phase.delays c.config)) (waitless : r.wait = none) :
    let p := run (begin clock locks members) before
    let alarm := p.ambient.clock.alarm
    let prompt := Timely p after ∧ 0 < p.ambient.clock.resolution
    ∃ h later b, trail m k p after = h ++ later ∧ Renews c.config lease alarm prompt h b ∧
      (∀ first ∈ h.head?, prompt → first.time = p.now) ∧
      Sequel m k c.config lease alarm prompt (run p after) b later ∧
      (later = [] → (run p after).turn? m k = none →
        ∃ t ∈ b.timer? c.config, (run p after).now < alarm t) := by
  intro p alarm prompt
  have manned : p.Manned := run_manned (begin_manned clock locks members) before
  have stands : Stands m k c.config lease alarm prompt p (.about 0 p.now) :=
    { clock := rfl
      place := ⟨c, r, here, rfl, renewing, waitless⟩
      bound := Nat.zero_le _
      ahead := fun on t => p.ambient.clock.le_alarm t on.2
      onTime := fun _ => rfl }
  obtain ⟨h, later, b, trailed, path, sequel⟩ := stands.path manned (·.1)
  have stretch := path.stretch (Stretch.start p.now)
  rw [List.nil_append] at stretch
  refine ⟨h, later, b, trailed, stretch.renews, path.first_time, sequel, ?_⟩
  rintro rfl stuck
  cases sequel with
  | here stands' => exact stands'.timer_ahead stuck

/-- A member that gives the store little time, and tries again twice. -/
def retrier : Relay.Member where
  double := { name := "digest", lockId := "digest" }
  config :=
    { leasePeriod := .ofNanoseconds 200
      renewInterval := .ofNanoseconds 60
      renewRetries := 2
      renewRetryDelay := .ofNanoseconds 10
      renewTimeout := .ofNanoseconds 15 }

/-- A fleet of it at its first renewal; the store is about to fail, and then to be slow. -/
def shaken : Plant :=
  let fault : Turn := { fault := some (.ofText "not now") }
  let slow : Turn := { delay := .ofNanoseconds 50 }
  run (begin { resolution := 1 } { renewals := [fault, slow] } [retrier])
    (.start 0 ⟨[1]⟩ :: steps 0 0 5 ++ .pass 60 :: steps 0 0 1)

def recovers : List Deed :=
  steps 0 0 3 ++ .pass 70 :: steps 0 0 2 ++ .pass 85 :: steps 0 0 2 ++ .pass 105 :: steps 0 0 4

theorem renewal_follows_answers_recovering :
    let alarm := shaken.ambient.clock.alarm
    let prompt := Timely shaken recovers ∧ 0 < shaken.ambient.clock.resolution
    prompt ∧ (trail 0 0 shaken recovers).map (·.time) =
        [60, 60, 60, 70, 70, 85, 85, 105, 105, 105, 105] ∧
      ∃ h later b, trail 0 0 shaken recovers = h ++ later ∧
        Renews retrier.config ⟨"digest", 1⟩ alarm prompt h b ∧
        Sequel 0 0 retrier.config ⟨"digest", 1⟩ alarm prompt (run shaken recovers) b later := by
  obtain ⟨c, found, config, run⟩ : ∃ c, shaken.coordinators[0]? = some c ∧
      c.config = retrier.config ∧ c.runs[0]?.map (fun r => (r.phase, r.wait.isNone)) =
        some (.renewing ⟨"digest", 1⟩ (Phase.delays retrier.config), true) :=
    ⟨_, (Option.some_get (by decide +kernel)).symm, by decide +kernel, by decide +kernel⟩
  obtain ⟨r, run, state⟩ := Option.map_eq_some_iff.mp run
  obtain ⟨renewing, waitless⟩ := Prod.mk.inj state
  rw [← config] at renewing ⊢
  refine ⟨by decide +kernel, by decide +kernel, ?_⟩
  obtain ⟨h, later, b, trailed, renews, _, sequel, _⟩ := renewal_follows_answers _ _ _ _ recovers
    0 0 c r ⟨"digest", 1⟩ ⟨found, run⟩ renewing (Option.isNone_iff_eq_none.mp waitless)
  exact ⟨h, later, b, trailed, renews, sequel⟩

end Fleet

end Courier
