import Courier.Proofs.Plant.Works

/-!
# Keepers

A host makes a coordinator for a part of which only one may run, and starts it once. The one run of
such a coordinator tells what the coordinator makes known: a lease as long as the part runs under
it, and that there is none when the run has come to its end (`Coordinator.Kept`). Once the run is
over, at its end or broken off, nothing changes any more (`Coordinator.Settled`).

The coordinators of a host are known to nobody else. While they are neither started nor stopped from
outside, whatever is done beside the steps of the host moves each of them by a step of its run at
most (`Works.act_drift`).
-/

namespace Courier

open Courier.Singleton (Phase Reply LockState)

namespace Singleton.Phase

variable {config : SingletonConfig} {phase : Phase} {reply : Reply} {lease : LeaseHandle}

/-- The lease under which the component runs. -/
def guards : Phase → Option LeaseHandle
  | .holding lease => some lease
  | .renewing lease _ => some lease
  | .pausing lease _ _ => some lease
  | _ => none

/-- A lease is made known when the component begins to run under it, and nothing else until it stops
to. -/
theorem next_guards (guarded : (phase.next config reply).guards = some lease) :
    phase.announcement (phase.next config reply) = some (.locked lease.serial) ∨
      phase.announcement (phase.next config reply) = none ∧ phase.guards = some lease := by
  fun_cases next config phase reply <;> simp_all [next, guards, announcement]

/-- When a run ends, it is made known that there is no lease. -/
theorem next_finished (ended : phase.next config reply = .finished) :
    phase.announcement (phase.next config reply) = some .unlocked ∨
      phase.announcement (phase.next config reply) = none ∧ phase = .finished := by
  fun_cases next config phase reply <;> simp_all [next, announcement]

end Singleton.Phase

/-! ## One run -/

namespace Coordinator

/-- All runs are over. -/
def Settled (c : Coordinator) : Prop := ∀ r ∈ c.runs, r.isOver = true

/-- A coordinator of a part that is none itself, with one run at most; what it makes known is where
that run stands. -/
structure Kept (c : Coordinator) : Prop where
  part : ∀ i, c.part ≠ .coordinator i
  single : c.runs.length ≤ 1
  running : ∀ k, c.running = some k → k < c.runs.length
  finished : (∀ r ∈ c.runs, r.phase = .finished) → c.state = .unlocked
  guarded : ∀ r ∈ c.runs, ∀ lease, r.phase.guards = some lease → c.state = .locked lease.serial

/-- What becomes of a coordinator in a step that is taken beside it, or by one of its runs. -/
inductive Drifts (c : Coordinator) : Coordinator → Prop where
  | same : Drifts c c
  /-- A run asks, or breaks off. -/
  | waits {k : Nat} {r : Run} {w : Wait} : c.runs[k]? = some r → r.overflow? = none →
      Drifts c (c.setRun k { r with wait := some w })
  | told {k : Nat} {r : Run} {reply : Reply} : c.runs[k]? = some r → r.overflow? = none →
      Drifts c (c.told k r reply)

variable {c c' : Coordinator} {k : Nat} {r : Run}

/-- There is no other run. -/
theorem Kept.runs (kept : c.Kept) (run : c.runs[k]? = some r) : k = 0 ∧ c.runs = [r] := by
  have single := kept.single
  obtain ⟨within, rfl⟩ := List.getElem?_eq_some_iff.mp run
  obtain rfl : k = 0 := by omega
  exact ⟨rfl, List.ext_getElem (by simp; omega) fun j here _ => by simp; congr; omega⟩

theorem Drifts.running (drifts : c.Drifts c') : c'.running = c.running := by
  cases drifts with
  | same | waits => rfl
  | told => exact told_running _ _ _ _

theorem Drifts.length (drifts : c.Drifts c') : c'.runs.length = c.runs.length := by
  cases drifts with
  | same => rfl
  | waits => exact List.length_set
  | told => rw [told_runs, List.length_set]

/-- A run that is over without having broken off has come to its end. -/
theorem Settled.finished (settled : c.Settled) (run : c.runs[k]? = some r)
    (going : r.overflow? = none) : r.phase = .finished := by
  simpa [Run.isOver, going] using settled r (List.mem_of_getElem? run)

/-- Where no run has broken off and all are over, there is no lease. -/
theorem Kept.unlocked (kept : c.Kept) (settled : c.Settled)
    (going : ∀ r ∈ c.runs, r.overflow? = none) : c.state = .unlocked :=
  kept.finished fun r mem => by simpa [Run.isOver, going r mem] using settled r mem

/-- What is over does not begin again, and makes nothing known. -/
theorem Settled.drifts (settled : c.Settled) (drifts : c.Drifts c') :
    c'.Settled ∧ c'.state = c.state := by
  cases drifts with
  | same => exact ⟨settled, rfl⟩
  | @waits k r w run going =>
      refine ⟨fun s mem => ?_, rfl⟩
      obtain old | rfl := List.mem_or_eq_of_mem_set mem
      · exact settled s old
      · simp [Run.isOver, settled.finished run going]
  | @told k r reply run going =>
      have finished := settled.finished run going
      refine ⟨fun s mem => ?_, ?_⟩
      · rw [told_runs] at mem
        obtain old | rfl := List.mem_or_eq_of_mem_set mem
        · exact settled s old
        · exact Plant.over_next c.config reply going (settled r (List.mem_of_getElem? run))
      · rw [told_state, finished]
        cases reply <;> rfl

/-- A run that asks or breaks off makes nothing known. -/
theorem Kept.waits (kept : c.Kept) (run : c.runs[k]? = some r) (w : Wait) :
    (c.setRun k { r with wait := some w }).Kept := by
  obtain ⟨rfl, only⟩ := kept.runs run
  have runs : (c.setRun 0 { r with wait := some w }).runs = [{ r with wait := some w }] := by
    simp [setRun, only]
  refine ⟨kept.part, by simp [runs], fun k running => ?_, fun finished => ?_,
    fun s mem lease guarded => ?_⟩
  · simpa [runs, only] using kept.running k running
  · rw [runs] at finished
    exact kept.finished (by simpa [only] using finished)
  · rw [runs] at mem
    obtain rfl := List.mem_singleton.mp mem
    exact kept.guarded r (List.mem_of_getElem? run) lease guarded

/-- What a run makes known when it takes a reply is where it stands then. -/
theorem Kept.told (kept : c.Kept) (run : c.runs[k]? = some r) (reply : Reply) :
    (c.told k r reply).Kept := by
  obtain ⟨rfl, only⟩ := kept.runs run
  have runs : (c.told 0 r reply).runs =
      [{ r with phase := r.phase.next c.config reply, wait := none }] := by
    simp [only]
  refine ⟨by simpa using kept.part, by simpa using kept.single, fun k running => ?_,
    fun finished => ?_, fun s mem lease guarded => ?_⟩
  · rw [told_running] at running
    simpa using kept.running k running
  · rw [runs] at finished
    have ended : r.phase.next c.config reply = .finished := finished _ (.head _)
    rw [told_state]
    obtain shown | ⟨silent, before⟩ := Phase.next_finished ended
    · rw [shown, Option.getD_some]
    · rw [silent, Option.getD_none]
      exact kept.finished (by simp [only, before])
  · rw [runs] at mem
    obtain rfl := List.mem_singleton.mp mem
    rw [told_state]
    obtain shown | ⟨silent, before⟩ := Phase.next_guards guarded
    · rw [shown, Option.getD_some]
    · rw [silent, Option.getD_none]
      exact kept.guarded r (List.mem_of_getElem? run) lease before

/-- What is made known stays right. -/
theorem Kept.drifts (kept : c.Kept) (drifts : c.Drifts c') : c'.Kept := by
  cases drifts with
  | same => exact kept
  | waits run => exact kept.waits run _
  | told run => exact kept.told run _

theorem Drifts.badge (drifts : c.Drifts c') : c'.badge = c.badge := by
  cases drifts with
  | same | waits => rfl
  | told => exact Plant.told_badge _ _ _ _

/-- The same, where the coordinator may have been stopped instead, which takes its run away. -/
inductive Eases (c : Coordinator) : Coordinator → Prop where
  | drifts {c' : Coordinator} : c.Drifts c' → Eases c c'
  | dismissed : Eases c { c with running := none }

theorem Settled.eases (settled : c.Settled) (eases : c.Eases c') :
    c'.Settled ∧ c'.state = c.state := by
  cases eases with
  | drifts drifts => exact settled.drifts drifts
  | dismissed => exact ⟨settled, rfl⟩

theorem Kept.eases (kept : c.Kept) (eases : c.Eases c') : c'.Kept := by
  cases eases with
  | drifts drifts => exact kept.drifts drifts
  | dismissed => exact { kept with running := nofun }

theorem Eases.badge (eases : c.Eases c') : c'.badge = c.badge := by
  cases eases with
  | drifts drifts => exact drifts.badge
  | dismissed => rfl

end Coordinator

/-! ## All coordinators of a plant -/

namespace Plant

/-- To each coordinator something has happened that is `R`. -/
structure Each (R : Coordinator → Coordinator → Prop) (p p' : Plant) : Prop where
  length : p'.coordinators.length = p.coordinators.length
  moved : ∀ (i : Nat) c', p'.coordinators[i]? = some c' → ∃ c, p.coordinators[i]? = some c ∧ R c c'

variable {R : Coordinator → Coordinator → Prop} {p p' : Plant} {i k : Nat} {c c' : Coordinator}

theorem Each.of_eq (same : ∀ c, R c c) (members : p'.coordinators = p.coordinators) :
    Each R p p' :=
  ⟨congrArg List.length members, fun _ c found => ⟨c, members ▸ found, same c⟩⟩

theorem Each.of_set (same : ∀ c, R c c) (found : p.coordinators[i]? = some c) (new : R c c')
    (changed : p'.coordinators = p.coordinators.set i c') : Each R p p' where
  length := by rw [changed, List.length_set]
  moved j d' there := by
    obtain ⟨rfl, rfl⟩ | ⟨_, old⟩ := coordinators_of_set found changed there
    · exact ⟨c, found, new⟩
    · exact ⟨d', old, same d'⟩

/-- What is kept of one coordinator is kept of all. -/
theorem Each.all {P : Coordinator → Prop} (each : Each R p p')
    (keeps : ∀ {c c' : Coordinator}, P c → R c c' → P c') (all : ∀ c ∈ p.coordinators, P c) :
    ∀ c ∈ p'.coordinators, P c := by
  intro c' mem
  obtain ⟨i, found⟩ := List.mem_iff_getElem?.mp mem
  obtain ⟨c, was, moved⟩ := each.moved i c' found
  exact keeps (all c (List.mem_of_getElem? was)) moved

/-- Each coordinator has taken a step at most. -/
abbrev Drift : Plant → Plant → Prop := Each Coordinator.Drifts

/-- Each coordinator has taken a step at most, or has been stopped. -/
abbrev Ease : Plant → Plant → Prop := Each Coordinator.Eases

theorem Drift.of_eq (same : p'.coordinators = p.coordinators) : Drift p p' :=
  Each.of_eq (fun _ => .same) same

theorem Drift.ease (drift : Drift p p') : Ease p p' where
  length := drift.length
  moved i c' found := by
    obtain ⟨c, was, drifts⟩ := drift.moved i c' found
    exact ⟨c, was, .drifts drifts⟩

theorem Ease.of_eq (same : p'.coordinators = p.coordinators) : Ease p p' :=
  (Drift.of_eq same).ease

/-- Whoever starts a part that is no coordinator leaves the coordinators alone. -/
theorem beginStart_members {part : Part} (own : ∀ i, part ≠ .coordinator i) (token : CancelToken) :
    (p.beginStart part token).1.coordinators = p.coordinators := by
  cases part with
  | double i =>
      simp only [beginStart]
      split <;> rfl
  | station i =>
      simp only [beginStart]
      split
      · rfl
      · split <;> rfl
  | coordinator i => exact absurd rfl (own i)

/-- A coordinator that is stopped gives its run up, and the others do nothing. -/
theorem beginStop_members (p : Plant) (part : Part) :
    ((p.beginStop part).1.coordinators = p.coordinators ∧
        ∀ i, part = .coordinator i → p.coordinators[i]? = none) ∨
      ∃ i c, part = .coordinator i ∧ p.coordinators[i]? = some c ∧
        (p.beginStop part).1.coordinators = p.coordinators.set i { c with running := none } := by
  cases part with
  | double i =>
      simp only [beginStop]
      split <;> exact .inl ⟨rfl, fun i own => by cases own⟩
  | station i =>
      simp only [beginStop]
      split <;> exact .inl ⟨rfl, fun i own => by cases own⟩
  | coordinator i =>
      simp only [beginStop]
      cases found : p.coordinators[i]? with
      | none =>
          refine .inl ⟨rfl, fun j same => ?_⟩
          cases same
          exact found
      | some c =>
          obtain ⟨_, _, stopped, _⟩ := c.stop_told p.ambient
          exact .inr ⟨i, c, rfl, found, by simp [stopped, setCoordinator, withAmbient]⟩

theorem beginStop_ease (p : Plant) (part : Part) : Ease p (p.beginStop part).1 := by
  obtain ⟨same, _⟩ | ⟨i, c, _, found, changed⟩ := p.beginStop_members part
  · exact Ease.of_eq same
  · exact .of_set (fun _ => .drifts .same) found .dismissed changed

/-- A shutdown that begins has not stopped anything yet. -/
theorem beginClosing_members (p : Plant) (stayed : Bool) :
    (p.beginClosing stayed).1.coordinators = p.coordinators := by
  simp only [beginClosing]
  split <;> rfl

theorem ask_members {r : Run} {w : Wait} (own : ∀ i, c.part ≠ .coordinator i)
    (asked : p.ask c r = some (p', w)) : p'.coordinators = p.coordinators := by
  unfold ask at asked
  cases request : r.phase.request c.config with
  | nothing => simp [request] at asked
  | acquire | renew | release | rest =>
      simp only [request] at asked
      cases asked
      rfl
  | start =>
      simp only [request] at asked
      cases asked
      exact beginStart_members own _
  | stop =>
      simp only [request] at asked
      cases asked
      obtain ⟨same, _⟩ | ⟨i, _, part, _⟩ := beginStop_members p c.part
      · exact same
      · exact absurd part (own i)

theorem stepRun_drift (kept : ∀ c ∈ p.coordinators, c.Kept) (step : p.stepRun i k = some p') :
    Drift p p' := by
  unfold stepRun at step
  cases found : p.coordinators[i]? with
  | none => simp [found] at step
  | some c =>
      have own := (kept c (List.mem_of_getElem? found)).part
      simp only [found] at step
      cases run : c.runs[k]? with
      | none => simp [run] at step
      | some r =>
          simp only [run] at step
          cases waiting : r.wait with
          | none =>
              simp only [waiting] at step
              obtain ⟨⟨p₁, w⟩, asked, rfl⟩ := Option.map_eq_some_iff.mp step
              have same := ask_members own asked
              have going : r.overflow? = none := by simp [Run.overflow?, waiting]
              refine .of_set (fun _ => .same) found (.waits (w := w) run going) ?_
              simp [keepWait, same, found, setCoordinator, Coordinator.setRun]
          | some w =>
              simp only [waiting] at step
              obtain ⟨answer, answered, rfl⟩ := Option.map_eq_some_iff.mp step
              have going := reply?_going waiting answered
              cases answer with
              | error o =>
                  refine .of_set (fun _ => .same) found (.waits (w := .broken o) run going) ?_
                  simp [keepWait, found, setCoordinator, Coordinator.setRun]
              | ok answer =>
                  obtain ⟨p₁, reply⟩ := answer
                  have same := (reply?_still answered).members
                  have here : p₁.coordinators[i]? = some c := same ▸ found
                  have entered := (enter_cases here k r reply).2.2
                  exact .of_set (fun _ => .same) found (.told run going)
                    (entered.trans (by rw [same]))

end Plant

/-! ## Deeds -/

namespace Works

open Plant (Drift)

/-- Whether a deed neither starts nor stops a coordinator from outside. -/
def Deed.sparesKeepers : Deed → Bool
  | .start (.coordinator _) _ => false
  | .stop (.coordinator _) => false
  | _ => true

variable {p : Plant}

/-- What is taken up in the background only waits for answers. -/
theorem stepCall_members {p' : Plant} {e e' : Errand} (call : e.isCall = true)
    (step : p.stepErrand e = some (p', e')) : p'.coordinators = p.coordinators := by
  cases e with
  | calling call =>
      obtain ⟨_, polled, same⟩ := Option.map_eq_some_iff.mp step
      cases same
      exact (Plant.poll_still polled).members
  | called => cases step
  | _ => cases call

theorem step_drift (calls : ∀ b ∈ p.background, b.isCall = true)
    (kept : ∀ c ∈ p.coordinators, c.Kept) {task : Plant.Task} (others : task ≠ .foreground)
    {p' : Plant} (step : p.step? task = some p') : Drift p p' := by
  cases task with
  | foreground => exact absurd rfl others
  | run i k => exact Plant.stepRun_drift kept step
  | watcher w => exact Drift.of_eq (Plant.stepWatcher_still step).members
  | departures => exact Drift.of_eq (Plant.stepDepartures_still step).members
  | loop i l =>
      simp only [Plant.step?, Plant.stepLoop] at step
      split at step
      · cases step
      · obtain ⟨_, _, rfl⟩ := Option.map_eq_some_iff.mp step
        exact Drift.of_eq rfl
  | attempt i k =>
      simp only [Plant.step?, Plant.stepAttempt] at step
      split at step
      · cases step
      · obtain ⟨_, _, rfl⟩ := Option.map_eq_some_iff.mp step
        exact Drift.of_eq rfl
  | background b =>
      simp only [Plant.step?] at step
      split at step
      · cases step
      · rename_i e found
        obtain ⟨⟨p₁, e'⟩, stepped, rfl⟩ := Option.map_eq_some_iff.mp step
        have same := stepCall_members (calls e (List.mem_of_getElem? found)) stepped
        exact Drift.of_eq same

/-- Beside the steps of the host coordinators only drift, if they are left to it. -/
theorem act_drift (calls : ∀ b ∈ p.background, b.isCall = true)
    (kept : ∀ c ∈ p.coordinators, c.Kept) {d : Deed} (others : d ≠ .step .foreground)
    (spares : d.sparesKeepers = true) : Drift p (act p d) := by
  cases d with
  | step task =>
      simp only [act]
      cases step : p.step? task with
      | none => exact Drift.of_eq rfl
      | some p' => exact step_drift calls kept (fun own => others (own ▸ rfl)) step
  | start part parent =>
      refine Drift.of_eq (Plant.beginStart_members ?_ parent)
      rintro i rfl
      cases spares
  | stop part =>
      refine Drift.of_eq ?_
      obtain ⟨same, _⟩ | ⟨i, _, rfl, _⟩ := p.beginStop_members part
      · exact same
      · cases spares
  | queue station act =>
      refine Drift.of_eq ?_
      simp only [Works.act, Shift.onQueue]
      split <;> rfl
  | store act => exact Drift.of_eq (onStore_still p act).members
  | shutDown => exact Drift.of_eq (p.beginClosing_members false)
  | _ => exact Drift.of_eq rfl

end Works

end Courier
