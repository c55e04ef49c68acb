import Courier.Bench.Shift
import Courier.Proofs.Plant.Rosters
import Courier.Proofs.Singleton.Steps

/-!
# Plants at work

A plant is at work while its tasks take steps, in any order, parts and the host are started and
stopped from outside, tokens are cancelled, others use queues and the store, guards come and go, and
time passes. Nothing is said of who steps next.

Whatever is done, a roster changes once at most (`act_changes`), and what is no errand of the host
leaves the host alone (`step_goes`, `act_keeps`).
-/

namespace Courier

namespace Plant

variable {p p' : Plant} {i k : Nat} {c : Coordinator} {r : Run} {w : Wait}

/-! ## Runs -/

/-- Runs stay where they are when a part is asked to start. -/
theorem At.beginStart (here : p.At i k c r) (part : Part) (token : CancelToken) :
    ∃ c', (p.beginStart part token).1.At i k c' r := by
  cases part with
  | double j =>
      simp only [Plant.beginStart]
      cases p.doubles[j]? with
      | none => exact ⟨c, here⟩
      | some d => exact ⟨c, here.coordinator, here.run⟩
  | station j =>
      simp only [Plant.beginStart]
      split
      · exact ⟨c, here⟩
      · split
        · exact ⟨c, here.coordinator, here.run⟩
        · exact ⟨c, here⟩
  | coordinator j =>
      simp only [Plant.beginStart]
      cases found : p.coordinators[j]? with
      | none => exact ⟨c, here⟩
      | some d =>
          simp only [Coordinator.start]
          cases running : d.running with
          | some l => exact ⟨c, here⟩
          | none =>
              by_cases same : j = i
              · subst same
                obtain rfl := Option.some.inj (found.symm.trans here.coordinator)
                have within := (List.getElem?_eq_some_iff.mp found).1
                exact ⟨_, List.getElem?_set_self within, getElem?_append_of_some here.run _⟩
              · exact ⟨c, (List.getElem?_set_ne same).trans here.coordinator, here.run⟩

theorem At.beginStop (here : p.At i k c r) (part : Part) :
    ∃ c', (p.beginStop part).1.At i k c' r := by
  cases part with
  | double j =>
      simp only [Plant.beginStop]
      cases p.doubles[j]? with
      | none => exact ⟨c, here⟩
      | some d => exact ⟨c, here.coordinator, here.run⟩
  | station j =>
      simp only [Plant.beginStop]
      cases p.stations[j]? with
      | none => exact ⟨c, here⟩
      | some s => exact ⟨c, here.coordinator, here.run⟩
  | coordinator j =>
      simp only [Plant.beginStop]
      cases found : p.coordinators[j]? with
      | none => exact ⟨c, here⟩
      | some d =>
          obtain ⟨_, stopped, _⟩ := d.stop_cases p.ambient
          by_cases same : j = i
          · subst same
            obtain rfl := Option.some.inj (found.symm.trans here.coordinator)
            have within := (List.getElem?_eq_some_iff.mp found).1
            refine ⟨_, List.getElem?_set_self within, ?_⟩
            rw [stopped]
            exact here.run
          · exact ⟨c, (List.getElem?_set_ne same).trans here.coordinator, here.run⟩

/-- A run that asks may have a part start or stop, and stays where it is. -/
theorem ask_goes (here : p.At i k c r) (asked : p.ask c r = some (p', w)) :
    Goes p p' ∧ ∃ c', p'.At i k c' r := by
  have stay {p' : Plant} (still : Still p p') : Goes p p' ∧ ∃ c', p'.At i k c' r :=
    ⟨still.goes, c, still.members ▸ here.coordinator, here.run⟩
  have locks (l : Locks) : Still p { p with locks := l } := { Still.refl p with }
  unfold Plant.ask at asked
  cases request : r.phase.request c.config with
  | nothing => simp [request] at asked
  | acquire | renew lease within | release lease =>
      simp only [request] at asked
      cases asked
      exact stay (locks _)
  | rest period =>
      simp only [request] at asked
      cases asked
      exact stay (.refl p)
  | start =>
      simp only [request] at asked
      cases asked
      have child := still_ambient (.child p.ambient r.token)
      have here' : (p.withAmbient (p.ambient.child r.token).1).At i k c r :=
        ⟨here.coordinator, here.run⟩
      exact ⟨child.then (beginStart_goes _ _ _), here'.beginStart _ _⟩
  | stop =>
      simp only [request] at asked
      cases asked
      exact ⟨beginStop_goes p _, here.beginStop _⟩

/-- A run asks for something that is still to come. -/
theorem ask_unbroken (asked : p.ask c r = some (p', w)) (o : Overflow) : w ≠ .broken o := by
  rintro rfl
  unfold Plant.ask at asked
  cases request : r.phase.request c.config <;> simp [request] at asked

theorem callStore_still {phase : Singleton.Phase} {turn : Turn} {reply : Singleton.Reply}
    (called : p.callStore c phase turn = .ok (p', reply)) : Still p p' := by
  have relocked {α : Type} {answer : Except Overflow (Locks × α)} {f : α → Singleton.Reply}
      (same : (answer.map fun (l, x) => ({ p with locks := l }, f x)) = .ok (p', reply)) :
      Still p p' := by
    cases answer with
    | error o => cases same
    | ok answer =>
        cases same
        exact { Still.refl p with }
  cases phase with
  | releasing lease ending =>
      cases called
      exact { Still.refl p with }
  | _ => exact relocked called

theorem reply?_still {reply : Singleton.Reply}
    (answered : p.reply? c r w = some (.ok (p', reply))) : Still p p' := by
  cases w with
  | locks turn t deadline =>
      simp only [Plant.reply?] at answered
      split at answered
      · exact callStore_still (Option.some.inj answered)
      · split at answered
        · split at answered
          · cases answered
            exact .refl p
          · simp at answered
        · simp at answered
  | part call =>
      obtain ⟨⟨p₁, answer⟩, polled, same⟩ := Option.map_eq_some_iff.mp answered
      cases same
      exact poll_still polled
  | rest t =>
      simp only [Plant.reply?] at answered
      split at answered
      · cases answered
        exact .refl p
      · split at answered
        · cases answered
          exact .refl p
        · simp at answered
  | broken o => simp [Plant.reply?] at answered

/-- Only a run that has not broken off is replied to. -/
theorem reply?_going {answer : Except Overflow (Plant × Singleton.Reply)}
    (waiting : r.wait = some w) (answered : p.reply? c r w = some answer) : r.overflow? = none := by
  cases w with
  | broken o => simp [Plant.reply?] at answered
  | _ => simp [Run.overflow?, waiting]

/-- A run that has come to its end does not begin again. -/
theorem over_next (config : SingletonConfig) (reply : Singleton.Reply)
    (going : r.overflow? = none) (ended : r.isOver = true) :
    ({ r with phase := r.phase.next config reply, wait := none } : Run).isOver = true := by
  have finished : r.phase = .finished := by simpa [Run.isOver, going] using ended
  simp only [finished]
  cases reply <;> rfl

theorem told_change (run : c.runs[k]? = some r) (going : r.overflow? = none)
    (reply : Singleton.Reply) (cs : Cancellations) :
    Roster.Change cs c.roster (c.told k r reply).roster := by
  have there : (c.runs.map (·.stint))[k]? = some r.stint := by
    rw [List.getElem?_map, run, Option.map_some]
  rw [Coordinator.roster, Coordinator.roster, Coordinator.told_running, Coordinator.told_runs,
    List.map_set]
  exact Roster.change_set there rfl (over_next c.config reply going)

theorem told_badge (c : Coordinator) (k : Nat) (r : Run) (reply : Singleton.Reply) :
    (c.told k r reply).badge = c.badge := by
  simp only [Coordinator.told]
  split
  · simp only [Coordinator.publish]
    split <;> rfl
  · rfl

theorem enter_goes (here : p.At i k c r) (going : r.overflow? = none) (reply : Singleton.Reply) :
    Goes p (p.enter i k r reply) := by
  have badge := told_badge c k r reply
  have told (a : Ambient) := told_change here.run going reply a.cancellations
  simp only [enter, here.coordinator]
  split
  · exact goes_setCoordinator here.coordinator (.of_eq rfl rfl rfl) badge (told _)
  · exact goes_setCoordinator here.coordinator (.refl _) badge (told _)

theorem keepWait_keeps (here : p.At i k c r) (w : Wait)
    (same : ({ r with wait := some w } : Run).isOver = r.isOver) :
    Keeps p (p.keepWait i k r w) ∧ (p.keepWait i k r w).roster = p.roster := by
  let c' : Coordinator := { c with runs := c.runs.set k { r with wait := some w } }
  have roster : c'.roster = c.roster :=
    congrArg (Roster.mk c.running) (map_set_same here.run (congrArg (Stint.mk r.token) same))
  have change : c.roster.Change p.ambient.cancellations c'.roster := by
    rw [roster]
    exact .same
  have goes := @goes_setCoordinator p i p.ambient c c' here.coordinator (.refl _) rfl change
  simp only [keepWait, here.coordinator]
  refine ⟨goes.toKeeps, ?_⟩
  funext part
  refine (roster_setCoordinator here.coordinator p.ambient c' part).trans ?_
  split
  · rename_i own
    rw [own, roster_coordinator here.coordinator, roster]
  · rfl

/-- A run that breaks off is over. -/
theorem broke_goes (here : p.At i k c r) (o : Overflow) :
    Goes p (p.keepWait i k r (.broken o)) := by
  let c' : Coordinator := { c with runs := c.runs.set k { r with wait := some (.broken o) } }
  have there : (c.runs.map (·.stint))[k]? = some r.stint := by
    rw [List.getElem?_map, here.run, Option.map_some]
  have change : c.roster.Change p.ambient.cancellations c'.roster := by
    rw [Coordinator.roster, Coordinator.roster, List.map_set]
    exact Roster.change_set there rfl fun _ => Bool.or_true _
  simp only [keepWait, here.coordinator]
  exact @goes_setCoordinator p i p.ambient c c' here.coordinator (.refl _) rfl change

theorem stepRun_goes (step : p.stepRun i k = some p') : Goes p p' := by
  unfold stepRun at step
  cases found : p.coordinators[i]? with
  | none => simp [found] at step
  | some c =>
      simp only [found] at step
      cases run : c.runs[k]? with
      | none => simp [run] at step
      | some r =>
          have here : p.At i k c r := ⟨found, run⟩
          simp only [run] at step
          cases waiting : r.wait with
          | none =>
              simp only [waiting] at step
              obtain ⟨⟨p₁, w⟩, asked, rfl⟩ := Option.map_eq_some_iff.mp step
              obtain ⟨goes, c', there⟩ := ask_goes here asked
              have going : ({ r with wait := some w } : Run).isOver = r.isOver := by
                cases w with
                | broken o => exact absurd rfl (ask_unbroken asked o)
                | _ => simp [Run.isOver, Run.overflow?, waiting]
              obtain ⟨keeps, same⟩ := keepWait_keeps there w going
              exact goes.and keeps same
          | some w =>
              simp only [waiting] at step
              obtain ⟨answer, answered, rfl⟩ := Option.map_eq_some_iff.mp step
              cases answer with
              | error o => exact broke_goes here o
              | ok answer =>
                  obtain ⟨p₁, reply⟩ := answer
                  have still := reply?_still answered
                  have there : p₁.At i k c r := ⟨still.members ▸ found, run⟩
                  exact still.then (enter_goes there (reply?_going waiting answered) reply)

/-! ## Tasks -/

theorem stepLoop_goes {l : Nat} (step : p.stepLoop i l = some p') : Goes p p' := by
  unfold stepLoop at step
  cases found : p.stations[i]? with
  | none => simp [found] at step
  | some s =>
      simp only [found] at step
      obtain ⟨⟨a, s'⟩, stepped, rfl⟩ := Option.map_eq_some_iff.mp step
      obtain ⟨l, l', made, a₁, s₁, loop, after⟩ := Station.stepLoop_step stepped
      refine goes_setStation found (Station.stepLoop_keeps stepped) ?_ ?_
      · rw [after.aborts.receiver, loop.frame]
      · rw [after.aborts.roster]
        exact loop.change

theorem stepAttempt_goes (step : p.stepAttempt i k = some p') : Goes p p' := by
  unfold stepAttempt at step
  cases found : p.stations[i]? with
  | none => simp [found] at step
  | some s =>
      simp only [found] at step
      obtain ⟨⟨a, s'⟩, stepped, rfl⟩ := Option.map_eq_some_iff.mp step
      have keeps := Station.stepAttempt_keeps stepped
      cases there : s.attempts[k]? with
      | none => simp [Station.stepAttempt, there] at stepped
      | some t =>
          obtain ⟨_, _, _, _, rfl⟩ := Station.stepAttempt_shape there stepped
          exact goes_setStation found keeps rfl .same

theorem stepWatcher_still {w : Nat} (step : p.stepWatcher w = some p') : Still p p' := by
  unfold stepWatcher at step
  split at step
  · simp at step
  · split at step
    · cases step
      exact { Still.refl p with }
    · simp at step

theorem leaves_keep (c : Controller) (gone : List Nat) :
    (gone.foldl (fun c _ => c.leave) c).health = c.health ∧
      (gone.foldl (fun c _ => c.leave) c).token = c.token := by
  induction gone generalizing c with
  | nil => exact ⟨rfl, rfl⟩
  | cons t rest ih => exact ih c.leave

theorem stepDepartures_still (step : p.stepDepartures = some p') : Still p p' := by
  unfold stepDepartures at step
  simp only at step
  split at step
  · simp at step
  · cases step
    obtain ⟨health, token⟩ := leaves_keep p.ambient.controller (p.departures.partition p.due).1
    exact { Still.refl p with
      ambient := { Ambient.Keeps.refl p.ambient with health := health, token := token } }

/-! ## Errands -/

/-- A change in which each roster changes once at most, and nothing that is cancelled is taken
back. -/
structure Changes (p p' : Plant) : Prop where
  fired : p.ambient.cancellations.fired ⊆ p'.ambient.cancellations.fired
  roster : ∀ part, (p.roster part).Change p'.ambient.cancellations (p'.roster part)

theorem Goes.changes (goes : Goes p p') : Changes p p' := ⟨goes.ambient.fired, goes.roster⟩

/-- Nothing happens to any roster. -/
theorem Changes.still (fired : p.ambient.cancellations.fired ⊆ p'.ambient.cancellations.fired)
    (roster : p'.roster = p.roster) : Changes p p' :=
  ⟨fired, fun _ => roster ▸ .same⟩

theorem wrap_roster (p : Plant) (part : Part) : (p.wrap part).1.roster = p.roster := by
  unfold wrap
  split
  · funext other
    cases other with
    | double | station => rfl
    | coordinator i =>
        simp only [roster]
        cases found : p.coordinators[i]? with
        | some c => rw [getElem?_append_of_some found]
        | none =>
            by_cases new : i = p.coordinators.length
            · subst new
              simp [Coordinator.roster]
            · have outside : p.coordinators.length + 1 ≤ i := by
                have past := List.getElem?_eq_none_iff.mp found
                omega
              rw [List.getElem?_eq_none (by simpa using outside)]
  · rfl

theorem wrap_ambient (p : Plant) (part : Part) : (p.wrap part).1.ambient = p.ambient := by
  unfold wrap
  split <;> rfl

theorem stepOpening_changes {o : Host.Opening Part} {stay : Option Duration} {e : Errand}
    (step : p.stepOpening o stay = some (p', e)) : Changes p p' := by
  unfold stepOpening at step
  cases move : o.move with
  | wait => simp [move] at step
  | start part rest started =>
      simp only [move] at step
      cases step
      have wrapped := wrap_ambient p part
      have begun := beginStart_goes ((p.wrap part).1.withAmbient
          ((p.wrap part).1.ambient.child (p.wrap part).1.ambient.controller.token).1)
        (p.wrap part).2 ((p.wrap part).1.ambient.child (p.wrap part).1.ambient.controller.token).2
      have fired : p.ambient.cancellations.fired ⊆
          (p.wrap part).1.ambient.cancellations.fired := by
        rw [wrapped]
        exact List.Subset.refl _
      refine ⟨List.Subset.trans fired begun.ambient.fired, fun other => ?_⟩
      rw [← wrap_roster p part]
      exact begun.roster other
  | stop part rest fault =>
      simp only [move] at step
      cases step
      exact (beginStop_goes p part).changes
  | failed fault =>
      simp only [move] at step
      cases step
      exact .still (List.Subset.refl _) rfl
  | opened started =>
      simp only [move] at step
      cases stay <;> cases step <;> exact .still (List.Subset.refl _) rfl

theorem stepClosing_changes {c : Host.Closing Part} {deadline : Nat} {stayed : Bool} {e : Errand}
    (step : p.stepClosing c deadline stayed = some (p', e)) : Changes p p' := by
  unfold stepClosing at step
  cases move : c.move with
  | wait => simp [move] at step
  | stop part rest inTime =>
      simp only [move] at step
      cases step
      exact (beginStop_goes p part).changes
  | drain inTime =>
      simp only [move] at step
      cases step
      exact .still (List.Subset.refl _) rfl

theorem beginClosing_changes (p : Plant) (stayed : Bool) : Changes p (p.beginClosing stayed).1 := by
  have fired := p.ambient.cancellations.fired_cancel p.ambient.controller.token
  simp only [beginClosing]
  split <;> exact .still fired rfl

/-- A step of an errand changes each roster once at most. -/
theorem stepErrand_changes {e e' : Errand} (step : p.stepErrand e = some (p', e')) :
    Changes p p' := by
  cases e with
  | calling call =>
      obtain ⟨⟨p₁, answer⟩, polled, same⟩ := Option.map_eq_some_iff.mp step
      cases same
      exact (poll_still polled).goes.changes
  | opening o call stay =>
      cases call with
      | none => exact stepOpening_changes step
      | some call =>
          obtain ⟨⟨p₁, answer⟩, polled, same⟩ := Option.map_eq_some_iff.mp step
          cases same
          exact (poll_still polled).goes.changes
  | staying t =>
      simp only [stepErrand] at step
      split at step
      · obtain rfl := congrArg Prod.fst (Option.some.inj step)
        exact beginClosing_changes p true
      · simp at step
  | closing c call deadline stayed =>
      cases call with
      | none => exact stepClosing_changes step
      | some call =>
          simp only [stepErrand] at step
          split at step
          · rename_i polled
            cases step
            exact (poll_still polled).goes.changes
          · split at step
            · cases step
              exact .still (List.Subset.refl _) rfl
            · simp at step
  | draining deadline inTime wake stayed =>
      simp only [stepErrand] at step
      split at step
      · split at step <;> cases step <;> exact .still (List.Subset.refl _) rfl
      · simp at step
  | called | opened | closed | broken => simp [stepErrand] at step

/-- A step of a task changes each roster once at most. -/
theorem step_changes {task : Task} (step : p.step? task = some p') : Changes p p' := by
  cases task with
  | foreground =>
      simp only [step?] at step
      split at step
      · simp at step
      · obtain ⟨⟨p₁, e⟩, stepped, rfl⟩ := Option.map_eq_some_iff.mp step
        obtain ⟨fired, roster⟩ := stepErrand_changes stepped
        exact ⟨fired, roster⟩
  | background b =>
      simp only [step?] at step
      split at step
      · simp at step
      · obtain ⟨⟨p₁, e⟩, stepped, rfl⟩ := Option.map_eq_some_iff.mp step
        obtain ⟨fired, roster⟩ := stepErrand_changes stepped
        exact ⟨fired, roster⟩
  | loop i l => exact (stepLoop_goes step).changes
  | attempt i k => exact (stepAttempt_goes step).changes
  | run i k => exact (stepRun_goes step).changes
  | watcher w => exact (stepWatcher_still step).goes.changes
  | departures => exact (stepDepartures_still step).goes.changes

/-- A step that is none of the host leaves the host alone. -/
theorem step_keeps (calls : ∀ e ∈ p.background, e.isCall = true) {task : Task}
    (aside : task ≠ .foreground) (step : p.step? task = some p') : Keeps p p' := by
  cases task with
  | foreground => exact absurd rfl aside
  | background b =>
      simp only [step?] at step
      cases here : p.background[b]? with
      | none => simp [here] at step
      | some e =>
          simp only [here] at step
          obtain ⟨⟨p₁, e'⟩, stepped, rfl⟩ := Option.map_eq_some_iff.mp step
          cases e with
          | calling call =>
              obtain ⟨⟨p₂, answer⟩, polled, same⟩ := Option.map_eq_some_iff.mp stepped
              cases same
              refine { (poll_still polled).toKeeps with background := fun e mem => ?_ }
              obtain old | rfl := List.mem_or_eq_of_mem_set mem
              · exact (poll_still polled).background e old
              · exact .inr rfl
          | called => simp [stepErrand] at stepped
          | _ => exact absurd (calls _ (List.mem_of_getElem? here)) (by simp [Errand.isCall])
  | loop i l => exact (stepLoop_goes step).toKeeps
  | attempt i k => exact (stepAttempt_goes step).toKeeps
  | run i k => exact (stepRun_goes step).toKeeps
  | watcher w => exact (stepWatcher_still step).toKeeps
  | departures => exact (stepDepartures_still step).toKeeps

end Plant

/-! ## Deeds -/

namespace Works

open Plant (Keeps Changes)

/-- What can happen to a plant. -/
inductive Deed where
  | step (task : Plant.Task)
  /-- Someone outside starts a part, and does not wait for the answer. -/
  | start (part : Part) (parent : CancelToken)
  | stop (part : Part)
  | cancel (token : CancelToken)
  /-- The host is started, to run for a while if one is given. -/
  | launch (stay : Option Duration)
  | shutDown
  /-- The shutdown of the host is announced, and nobody waits for it. -/
  | trigger
  | queue (station : Nat) (act : Shift.QueueAction)
  | store (act : Shift.StoreAction)
  /-- A guard is taken, or dropped at once or at an instant. -/
  | guard
  | drop
  | depart (time : Nat)
  | pass (time : Nat)

/-- What the plant is after a deed. -/
def act (p : Plant) : Deed → Plant
  | .step task => (p.step? task).getD p
  | .start part parent =>
    let (p, call) := p.beginStart part parent
    { p with background := p.background ++ [.calling call] }
  | .stop part =>
    let (p, call) := p.beginStop part
    { p with background := p.background ++ [.calling call] }
  | .cancel token => p.withAmbient (p.ambient.cancel token)
  | .launch stay => { p with foreground := some (p.beginOpening stay) }
  | .shutDown =>
    let (p, e) := p.beginClosing false
    { p with foreground := some e }
  | .trigger =>
    let (controller, cs) := p.ambient.controller.trigger p.ambient.cancellations
    p.withAmbient { p.ambient with controller := controller, cancellations := cs }
  | .queue station act => (Shift.onQueue p station act).1
  | .store act => (Shift.onStore p act).1
  | .guard => p.withAmbient { p.ambient with controller := p.ambient.controller.enter }
  | .drop => p.withAmbient { p.ambient with controller := p.ambient.controller.leave }
  | .depart time => { p with departures := p.departures ++ [time] }
  | .pass time => p.moveTo time

def run (p : Plant) (deeds : List Deed) : Plant := deeds.foldl act p

@[simp] theorem run_nil (p : Plant) : run p [] = p := rfl

@[simp] theorem run_cons (p : Plant) (d : Deed) (deeds : List Deed) :
    run p (d :: deeds) = run (act p d) deeds := rfl

@[simp] theorem run_append (p : Plant) (deeds more : List Deed) :
    run p (deeds ++ more) = run (run p deeds) more :=
  List.foldl_append

/-- Whether a deed is one of the host itself. -/
def Deed.isHosts : Deed → Bool
  | .step .foreground => true
  | .launch _ => true
  | .shutDown => true
  | .trigger => true
  | _ => false

variable {p : Plant}

theorem onStore_still (p : Plant) (act : Shift.StoreAction) :
    Plant.Still p (Shift.onStore p act).1 := by
  cases act <;> exact { Plant.Still.refl p with }

theorem onQueue_goes (p : Plant) (station : Nat) (act : Shift.QueueAction) :
    Plant.Goes p (Shift.onQueue p station act).1 := by
  unfold Shift.onQueue
  split
  · exact (Plant.Still.refl p).goes
  · rename_i found
    exact Plant.goes_setStation found (.refl _) rfl .same

/-- A deed changes each roster once at most. -/
theorem act_changes (p : Plant) (d : Deed) : Changes p (act p d) := by
  cases d with
  | step task =>
      simp only [act]
      cases step : p.step? task with
      | none => exact (Plant.Still.refl p).goes.changes
      | some p' => exact Plant.step_changes step
  | start part parent =>
      obtain ⟨fired, roster⟩ := (Plant.beginStart_goes p part parent).changes
      exact ⟨fired, roster⟩
  | stop part =>
      obtain ⟨fired, roster⟩ := (Plant.beginStop_goes p part).changes
      exact ⟨fired, roster⟩
  | cancel token => exact .still (p.ambient.cancellations.fired_cancel token) rfl
  | shutDown =>
      obtain ⟨fired, roster⟩ := Plant.beginClosing_changes p false
      exact ⟨fired, roster⟩
  | trigger => exact .still (p.ambient.cancellations.fired_cancel p.ambient.controller.token) rfl
  | queue station act => exact (onQueue_goes p station act).changes
  | store act => exact (onStore_still p act).goes.changes
  | launch | guard | drop | depart | pass => exact .still (List.Subset.refl _) rfl

/-- A deed that is none of the host leaves the host alone. -/
theorem act_keeps (calls : ∀ e ∈ p.background, e.isCall = true) {d : Deed}
    (aside : d.isHosts = false) : Keeps p (act p d) := by
  have called {p' : Plant} {call : Call} (keeps : Keeps p p') :
      Keeps p { p' with background := p'.background ++ [.calling call] } := by
    refine { keeps with background := fun e mem => ?_ }
    obtain old | new := List.mem_append.mp mem
    · exact keeps.background e old
    · exact .inr (List.mem_singleton.mp new ▸ rfl)
  cases d with
  | step task =>
      simp only [act]
      cases step : p.step? task with
      | none => exact .refl p
      | some p' => exact Plant.step_keeps calls (by rintro rfl; cases aside) step
  | start part parent => exact called (Plant.beginStart_goes p part parent).toKeeps
  | stop part => exact called (Plant.beginStop_goes p part).toKeeps
  | cancel token => exact (Plant.still_ambient (.cancel p.ambient token)).toKeeps
  | queue station act => exact (onQueue_goes p station act).toKeeps
  | store act => exact (onStore_still p act).toKeeps
  | guard => exact (Plant.still_ambient (.enter p.ambient)).toKeeps
  | drop => exact (Plant.still_ambient (.leave p.ambient)).toKeeps
  | depart time => exact { Keeps.refl p with }
  | pass time => exact { Keeps.refl p with ambient := .advance p.ambient time }
  | launch | shutDown | trigger => cases aside

end Works

end Courier
