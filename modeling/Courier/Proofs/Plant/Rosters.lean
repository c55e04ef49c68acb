import Courier.Plant.Run
import Courier.Proofs.Places
import Courier.Proofs.Plant.Upkeep

/-!
# Rosters

A part that is no double works in loops: a receiver in receive loops, a coordinator in runs. Its
roster says of each loop which token ends it and whether it is over, and which loop was started and
not stopped. What can happen to a roster at once is a `Roster.Change`: a loop ends, one is begun, or
the one that was started is to stop.

Whatever takes a step in a plant, apart from an errand of the host, leaves the host, its health and
the names of all parts as they are (`Plant.Keeps`). It changes each roster once at most
(`Plant.Goes`), and most of what a step is made of changes none (`Plant.Still`).
-/

namespace Courier

/-! ## Rosters -/

/-- A loop of a part: the token that ends it, and whether it is over. -/
structure Stint where
  token : CancelToken
  ended : Bool := false
  deriving DecidableEq

/-- The loops of a part, and which of them was started and not stopped. -/
structure Roster where
  running : Option Nat := none
  stints : List Stint := []
  deriving DecidableEq

namespace Roster

/-- What can happen to a roster at once; `cs` are the cancellations afterwards. -/
inductive Change (cs : Cancellations) (r : Roster) : Roster → Prop where
  | same : Change cs r r
  | ended {k : Nat} {s : Stint} : r.stints[k]? = some s →
      Change cs r { r with stints := r.stints.set k { s with ended := true } }
  | begun {token : CancelToken} : r.running = none → token.lineage ≠ [] →
      Change cs r ⟨some r.stints.length, r.stints ++ [{ token := token }]⟩
  | stopped :
      (∀ k s, r.running = some k → r.stints[k]? = some s → s.token.lineage ≠ [] →
        cs.isCancelled s.token = true) →
      Change cs r { r with running := none }

theorem Change.mono {cs cs' : Cancellations} {r r' : Roster} (change : Change cs r r')
    (more : cs.fired ⊆ cs'.fired) : Change cs' r r' := by
  cases change with
  | same => exact .same
  | ended there => exact .ended there
  | begun idle real => exact .begun idle real
  | stopped fired =>
      exact .stopped fun k s running there real =>
        Cancellations.isCancelled_mono more (fired k s running there real)

end Roster

def ReceiveLoop.stint (l : ReceiveLoop) : Stint := ⟨l.token, l.isOver⟩

def Run.stint (r : Run) : Stint := ⟨r.token, r.isOver⟩

def Station.roster (s : Station) : Roster := ⟨s.running, s.loops.map (·.stint)⟩

def Coordinator.roster (c : Coordinator) : Roster := ⟨c.running, c.runs.map (·.stint)⟩

namespace Plant

/-- The loops of a part of the plant. Doubles have none. -/
def roster (p : Plant) : Part → Roster
  | .double _ => {}
  | .station i => ((p.stations[i]?).map (·.roster)).getD {}
  | .coordinator i => ((p.coordinators[i]?).map (·.roster)).getD {}

end Plant

/-! ## Badges -/

/-- What stays with a double: its name, its lock and whether only one may run. -/
def Double.badge (d : Double) : String × String × Bool := (d.name, d.lockId, d.singleton)

/-- What stays with a coordinator: its name, its lock, its part and its timing. -/
def Coordinator.badge (c : Coordinator) : String × String × Part × SingletonConfig :=
  (c.name, c.lockId, c.part, c.config)

/-! ## Starting and stopping -/

/-- A receiver that is asked to start begins a loop, unless one was started and not stopped. -/
theorem Station.start_cases (s : Station) (a : Ambient) (parent : CancelToken) :
    (s.roster.running ≠ none ∧ ∃ cause, s.start a parent = .error cause) ∨
      s.roster.running = none ∧ ∃ a' s' token, s.start a parent = .ok (a', s') ∧ a.Keeps a' ∧
        s'.receiver = s.receiver ∧ token.lineage ≠ [] ∧
        s'.roster = ⟨some s.roster.stints.length, s.roster.stints ++ [{ token := token }]⟩ := by
  unfold start
  cases running : s.running with
  | some k => exact .inl ⟨by simp [roster, running], _, rfl⟩
  | none =>
      refine .inr ⟨running, _, _, (a.child parent).2, rfl, .child a parent, rfl, ?_, ?_⟩
      · exact List.cons_ne_nil _ _
      · simp only [roster, List.map_append, List.length_map]
        rfl

theorem Coordinator.start_cases (c : Coordinator) (a : Ambient) (parent : CancelToken) :
    (c.roster.running ≠ none ∧ ∃ cause, c.start a parent = .error cause) ∨
      c.roster.running = none ∧ ∃ a' c' token, c.start a parent = .ok (a', c') ∧ a.Keeps a' ∧
        c'.badge = c.badge ∧ token.lineage ≠ [] ∧
        c'.roster = ⟨some c.roster.stints.length, c.roster.stints ++ [{ token := token }]⟩ := by
  unfold start
  cases running : c.running with
  | some k => exact .inl ⟨by simp [roster, running], _, rfl⟩
  | none =>
      refine .inr ⟨running, _, _, (a.child parent).2, rfl, .child a parent, rfl, ?_, ?_⟩
      · exact List.cons_ne_nil _ _
      · simp only [roster, List.map_append, List.length_map]
        rfl

/-- A receiver that is asked to stop cancels the loop that was started, and gives it up. -/
theorem Station.stop_told (s : Station) (a : Ambient) : ∃ a' loop,
    s.stop a = (a', { s with running := none }, loop) ∧ a.Keeps a' ∧
      ∀ k t, s.roster.running = some k → s.roster.stints[k]? = some t →
        loop = some k ∧ (t.token.lineage ≠ [] → a'.cancellations.isCancelled t.token = true) := by
  unfold stop
  cases running : s.running with
  | none =>
      refine ⟨a, none, by simp [← running], .refl a, fun k t same => ?_⟩
      cases running.symm.trans same
  | some i =>
      cases there : s.loops[i]? with
      | none =>
          refine ⟨a, none, by simp only [there], .refl a, fun k t same here => ?_⟩
          obtain rfl := Option.some.inj (running.symm.trans same)
          simp [roster, there] at here
      | some l =>
          refine ⟨_, some i, by simp only [there], .cancel a l.token, fun k t same here => ?_⟩
          obtain rfl := Option.some.inj (running.symm.trans same)
          obtain rfl : l.stint = t := by simpa [roster, there] using here
          exact ⟨rfl, Cancellations.isCancelled_cancel _⟩

theorem Coordinator.stop_told (c : Coordinator) (a : Ambient) : ∃ a' run,
    c.stop a = (a', { c with running := none }, run) ∧ a.Keeps a' ∧
      ∀ k t, c.roster.running = some k → c.roster.stints[k]? = some t →
        run = some k ∧ (t.token.lineage ≠ [] → a'.cancellations.isCancelled t.token = true) := by
  unfold stop
  cases running : c.running with
  | none =>
      refine ⟨a, none, by simp [← running], .refl a, fun k t same => ?_⟩
      cases running.symm.trans same
  | some i =>
      cases there : c.runs[i]? with
      | none =>
          refine ⟨a, none, by simp only [there], .refl a, fun k t same here => ?_⟩
          obtain rfl := Option.some.inj (running.symm.trans same)
          simp [roster, there] at here
      | some r =>
          refine ⟨_, some i, by simp only [there], .cancel a r.token, fun k t same here => ?_⟩
          obtain rfl := Option.some.inj (running.symm.trans same)
          obtain rfl : r.stint = t := by simpa [roster, there] using here
          exact ⟨rfl, Cancellations.isCancelled_cancel _⟩

/-! ## Changes of loops -/

variable {cs : Cancellations}

theorem Roster.change_set {running : Option Nat} {stints : List Stint} {k : Nat} {s s' : Stint}
    (there : stints[k]? = some s) (token : s'.token = s.token)
    (ended : s.ended = true → s'.ended = true) :
    Roster.Change cs ⟨running, stints⟩ ⟨running, stints.set k s'⟩ := by
  obtain ⟨t, o⟩ := s
  obtain ⟨t', o'⟩ := s'
  obtain rfl : t' = t := token
  cases o' with
  | true => exact @Change.ended cs ⟨running, stints⟩ k ⟨t', o⟩ there
  | false =>
      obtain rfl : o = false := Bool.eq_false_iff.mpr fun new => Bool.false_ne_true (ended new)
      obtain ⟨within, here⟩ := List.getElem?_eq_some_iff.mp there
      rw [← here, List.set_getElem_self within]
      exact .same

/-- A loop that takes a step may end. -/
theorem Station.LoopStep.change {a a' : Ambient} {s s' : Station} {i : Nat} {l l' : ReceiveLoop}
    {made : List Attempt} (step : s.LoopStep a a' s' i l l' made) :
    Roster.Change cs s.roster s'.roster := by
  have loops : s'.loops.map (·.stint) = (s.loops.map (·.stint)).set i l'.stint := by
    rw [step.loops, List.map_set]
  have running : s'.running = s.running := by rw [step.frame]
  have there : (s.loops.map (·.stint))[i]? = some l.stint := by
    rw [List.getElem?_map, step.was, Option.map_some]
  rw [roster, roster, loops, running]
  refine Roster.change_set there step.token fun ended => ?_
  simp [ReceiveLoop.stint, step.going] at ended

/-- No loop ends by attempts that are aborted; theirs is over already. -/
theorem Station.Aborts.roster {a a' : Ambient} {s s' : Station} (aborts : Aborts a s a' s') :
    s'.roster = s.roster := by
  rw [Station.roster, Station.roster, aborts.running, aborts.loops]

/-! ## What all steps leave alone -/

/-- Whether an errand is a call to a part. -/
def Errand.isCall : Errand → Bool
  | .calling _ => true
  | .called .. => true
  | _ => false

namespace Plant

/-- What no step changes, those of the host apart. Only calls are taken up in the background. -/
structure Keeps (p p' : Plant) : Prop where
  ambient : p.ambient.Keeps p'.ambient
  host : p'.host = p.host
  doubles : p'.doubles.map (·.badge) = p.doubles.map (·.badge)
  receivers : p'.stations.map (·.receiver) = p.stations.map (·.receiver)
  coordinators : p'.coordinators.map (·.badge) = p.coordinators.map (·.badge)
  foreground : p'.foreground = p.foreground
  background : ∀ e ∈ p'.background, e ∈ p.background ∨ e.isCall = true

/-- A change of a plant that touches no receiver and no coordinator. -/
structure Still (p p' : Plant) : Prop extends Keeps p p' where
  stations : p'.stations = p.stations
  members : p'.coordinators = p.coordinators

/-- A change of a plant that may change rosters, each of them once. -/
structure Goes (p p' : Plant) : Prop extends Keeps p p' where
  roster : ∀ part, (p.roster part).Change p'.ambient.cancellations (p'.roster part)

variable {p p' p'' : Plant}

@[refl] theorem Keeps.refl (p : Plant) : Keeps p p :=
  ⟨.refl _, rfl, rfl, rfl, rfl, rfl, fun _ => .inl⟩

@[trans] theorem Keeps.trans (first : Keeps p p') (second : Keeps p' p'') : Keeps p p'' where
  ambient := first.ambient.trans second.ambient
  host := second.host.trans first.host
  doubles := second.doubles.trans first.doubles
  receivers := second.receivers.trans first.receivers
  coordinators := second.coordinators.trans first.coordinators
  foreground := second.foreground.trans first.foreground
  background e mem := (second.background e mem).elim (first.background e) .inr

@[refl] theorem Still.refl (p : Plant) : Still p p :=
  { Keeps.refl p with stations := rfl, members := rfl }

theorem roster_congr (stations : p'.stations = p.stations)
    (members : p'.coordinators = p.coordinators) : p'.roster = p.roster := by
  funext part
  cases part with
  | double => rfl
  | station => simp only [roster, stations]
  | coordinator => simp only [roster, members]

theorem Still.roster (still : Still p p') : p'.roster = p.roster :=
  roster_congr still.stations still.members

theorem Still.goes (still : Still p p') : Goes p p' :=
  { still.toKeeps with roster := fun _ => still.roster ▸ .same }

theorem Still.then (first : Still p p') (second : Goes p' p'') : Goes p p'' :=
  { first.toKeeps.trans second.toKeeps with
    roster := fun part => first.roster ▸ second.roster part }

/-- A change after which no roster changes any more. -/
theorem Goes.and (first : Goes p p') (second : Keeps p' p'') (same : p''.roster = p'.roster) :
    Goes p p'' :=
  { first.toKeeps.trans second with
    roster := fun part => by
      rw [same]
      exact (first.roster part).mono second.ambient.fired }

/-! ### What parts go by -/

/-- What a part goes by, if it is there: its name, its lock and whether only one may run. A
coordinator itself may always run. -/
def badge? (p : Plant) : Part → Option (String × String × Bool)
  | .double i => (p.doubles[i]?).map (·.badge)
  | .station i =>
    (p.stations[i]?).map fun s => (s.receiver.name, s.receiver.processor, s.receiver.singleton)
  | .coordinator i => (p.coordinators[i]?).map fun c => (c.name, c.lockId, false)

theorem partName_eq (p : Plant) (part : Part) :
    p.partName part = ((p.badge? part).map (·.1)).getD "" := by
  cases part <;> simp [partName, badge?, Double.badge, Function.comp_def]

theorem partLockId_eq (p : Plant) (part : Part) :
    p.partLockId part = ((p.badge? part).map (·.2.1)).getD "" := by
  cases part <;> simp [partLockId, badge?, Double.badge, Function.comp_def]

theorem partIsSingleton_eq (p : Plant) (part : Part) :
    p.partIsSingleton part = ((p.badge? part).map (·.2.2)).getD false := by
  cases part with
  | double | station => simp [partIsSingleton, badge?, Double.badge, Function.comp_def]
  | coordinator i => cases found : p.coordinators[i]? <;> simp [partIsSingleton, badge?, found]

theorem Keeps.badge? (keeps : Keeps p p') : p'.badge? = p.badge? := by
  funext part
  cases part with
  | double i => simpa [Plant.badge?] using congrArg (·[i]?) keeps.doubles
  | station i =>
      have same := congrArg
        (fun rs => (rs[i]?).map fun r : Receiver => (r.name, r.processor, r.singleton))
        keeps.receivers
      simpa [Plant.badge?, Function.comp_def] using same
  | coordinator i =>
      have same := congrArg
        (fun bs => (bs[i]?).map fun b : String × String × Part × SingletonConfig =>
          (b.1, b.2.1, false))
        keeps.coordinators
      simpa [Plant.badge?, Coordinator.badge, Function.comp_def] using same

/-! ## What steps are made of -/

variable {i k : Nat} {a : Ambient}

theorem roster_setStation {s : Station} (found : p.stations[i]? = some s) (a : Ambient)
    (s' : Station) (part : Part) : ((p.withAmbient a).setStation i s').roster part =
      if part = .station i then s'.roster else p.roster part := by
  cases part with
  | double | coordinator => simp [roster, setStation, withAmbient]
  | station j =>
      by_cases here : j = i
      · subst here
        have there : (p.stations.set j s')[j]? = some s' :=
          List.getElem?_set_self (List.getElem?_eq_some_iff.mp found).1
        simp [roster, setStation, withAmbient, there]
      · have there : (p.stations.set i s')[j]? = p.stations[j]? :=
          List.getElem?_set_ne (Ne.symm here)
        simp [roster, setStation, withAmbient, there, here]

theorem roster_setCoordinator {c : Coordinator} (found : p.coordinators[i]? = some c)
    (a : Ambient) (c' : Coordinator) (part : Part) :
    ((p.withAmbient a).setCoordinator i c').roster part =
      if part = .coordinator i then c'.roster else p.roster part := by
  cases part with
  | double | station => simp [roster, setCoordinator, withAmbient]
  | coordinator j =>
      by_cases here : j = i
      · subst here
        have there : (p.coordinators.set j c')[j]? = some c' :=
          List.getElem?_set_self (List.getElem?_eq_some_iff.mp found).1
        simp [roster, setCoordinator, withAmbient, there]
      · have there : (p.coordinators.set i c')[j]? = p.coordinators[j]? :=
          List.getElem?_set_ne (Ne.symm here)
        simp [roster, setCoordinator, withAmbient, there, here]

theorem roster_station {s : Station} (found : p.stations[i]? = some s) :
    p.roster (.station i) = s.roster := by
  simp [roster, found]

theorem roster_coordinator {c : Coordinator} (found : p.coordinators[i]? = some c) :
    p.roster (.coordinator i) = c.roster := by
  simp [roster, found]

theorem goes_setStation {s s' : Station} (found : p.stations[i]? = some s)
    (ambient : p.ambient.Keeps a) (receiver : s'.receiver = s.receiver)
    (change : s.roster.Change a.cancellations s'.roster) :
    Goes p ((p.withAmbient a).setStation i s') where
  ambient := ambient
  host := rfl
  doubles := rfl
  receivers := map_set_same found receiver
  coordinators := rfl
  foreground := rfl
  background _ := .inl
  roster part := by
    rw [roster_setStation found]
    split
    · rename_i here
      rw [here, roster_station found]
      exact change
    · exact .same

theorem goes_setCoordinator {c c' : Coordinator} (found : p.coordinators[i]? = some c)
    (ambient : p.ambient.Keeps a) (badge : c'.badge = c.badge)
    (change : c.roster.Change a.cancellations c'.roster) :
    Goes p ((p.withAmbient a).setCoordinator i c') where
  ambient := ambient
  host := rfl
  doubles := rfl
  receivers := rfl
  coordinators := map_set_same found badge
  foreground := rfl
  background _ := .inl
  roster part := by
    rw [roster_setCoordinator found]
    split
    · rename_i here
      rw [here, roster_coordinator found]
      exact change
    · exact .same

theorem still_ambient (keeps : p.ambient.Keeps a) : Still p (p.withAmbient a) :=
  { Keeps.refl p with ambient := keeps, stations := rfl, members := rfl }

theorem still_spend {d : Double} (d' : Double) (found : p.doubles[i]? = some d)
    (badge : d'.badge = d.badge) (act : String) :
    Still p (({ p with doubles := p.doubles.set i d' } : Plant).play i act) :=
  { Keeps.refl p with
    doubles := map_set_same found badge
    stations := rfl
    members := rfl }

/-! ### Calls -/

/-- A part that is asked to start begins a loop, or nothing. -/
theorem beginStart_goes (p : Plant) (part : Part) (token : CancelToken) :
    Goes p (p.beginStart part token).1 := by
  cases part with
  | double i =>
      simp only [beginStart]
      cases found : p.doubles[i]? with
      | none => exact (Still.refl p).goes
      | some d =>
          exact (still_spend { d with starts := (Turn.next d.starts).2 } found rfl "start").goes
  | station i =>
      simp only [beginStart]
      cases found : p.stations[i]? with
      | none => exact (Still.refl p).goes
      | some s =>
          obtain ⟨_, _, refused⟩ | ⟨idle, _, _, _, started, keeps, receiver, real, roster⟩ :=
            s.start_cases p.ambient token
          · simp only [refused]
            exact (Still.refl p).goes
          · simp only [started]
            exact goes_setStation found keeps receiver (by rw [roster]; exact .begun idle real)
  | coordinator i =>
      simp only [beginStart]
      cases found : p.coordinators[i]? with
      | none => exact (Still.refl p).goes
      | some c =>
          obtain ⟨_, _, refused⟩ | ⟨idle, _, _, _, started, keeps, badge, real, roster⟩ :=
            c.start_cases p.ambient token
          · simp only [refused]
            exact (Still.refl p).goes
          · simp only [started]
            exact goes_setCoordinator found keeps badge (by rw [roster]; exact .begun idle real)

/-- Whoever is asked to stop cancels the loop that was started. -/
theorem beginStop_goes (p : Plant) (part : Part) : Goes p (p.beginStop part).1 := by
  cases part with
  | double i =>
      simp only [beginStop]
      cases found : p.doubles[i]? with
      | none => exact (Still.refl p).goes
      | some d =>
          exact (still_spend { d with stops := (Turn.next d.stops).2 } found rfl "stop").goes
  | station i =>
      simp only [beginStop]
      cases found : p.stations[i]? with
      | none => exact (Still.refl p).goes
      | some s =>
          obtain ⟨_, _, stopped, keeps, told⟩ := s.stop_told p.ambient
          simp only [stopped]
          exact goes_setStation found keeps rfl
            (.stopped fun k t running here => (told k t running here).2)
  | coordinator i =>
      simp only [beginStop]
      cases found : p.coordinators[i]? with
      | none => exact (Still.refl p).goes
      | some c =>
          obtain ⟨_, _, stopped, keeps, told⟩ := c.stop_told p.ambient
          simp only [stopped]
          exact goes_setCoordinator found keeps rfl
            (.stopped fun k t running here => (told k t running here).2)

theorem poll_still {call : Call} {answer : Except Cause Unit}
    (answered : p.poll call = some (p', answer)) : Still p p' := by
  cases call with
  | answered answer =>
      cases answered
      exact .refl p
  | starting i token t turn =>
      simp only [poll] at answered
      split at answered
      · split at answered <;> cases answered <;>
          exact { Keeps.refl p with stations := rfl, members := rfl }
      · simp at answered
  | stopping t turn =>
      simp only [poll] at answered
      split at answered
      · cases answered
        exact .refl p
      · simp at answered
  | loop i l =>
      simp only [poll] at answered
      split at answered
      · cases answered
        exact .refl p
      · obtain ⟨_, _, same⟩ := Option.map_eq_some_iff.mp answered
        cases same
        exact .refl p
  | run i r =>
      simp only [poll] at answered
      split at answered
      · cases answered
        exact .refl p
      · split at answered
        · cases answered
          exact .refl p
        · split at answered
          · cases answered
            exact .refl p
          · split at answered
            · cases answered
              exact .refl p
            · simp at answered

end Plant

end Courier
