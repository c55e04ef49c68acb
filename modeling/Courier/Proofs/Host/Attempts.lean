import Courier.Proofs.Host.Closing
import Courier.Proofs.Host.Health
import Courier.Proofs.Plant.Keepers
import Mathlib.Data.List.Nodup

/-!
# Attempts to start

A start that fails stops what it has started, but the coordinators that it has made stay in their
list, and the next start makes new ones behind them. They have come to rest: while the host starts,
each coordinator is at rest, or the host has it in hand, or waits for the end of its run
(`Tended`), so a start that has failed leaves only coordinators at rest (`Tends.settled`). Whatever
is done later, those of earlier attempts stay at rest and say what they said then (`Elders`).

The state of a lease is asked for by name, and the coordinator that was made first for that name
answers. So after a start that has succeeded it is right for exactly those parts that no earlier
attempt has taken up. Of all others it says for good what it said before that start: that there is
no lease, unless the run of an earlier coordinator broke off (`Works.Aged.answers`).
-/

namespace Courier

open Plant (Stride Drift Ease)
open Works (Deed act run history act_drift)

variable {p s s' : Plant} {e e' : Errand} {touched : List Listing} {deal : Option Dealing}
  {h : List Dealing} {old : List Coordinator}

/-! ## Coordinators while the host starts -/

/-- The coordinators of `old` come first. They are at rest, and make known what they did. -/
def Elders (old : List Coordinator) (s : Plant) : Prop :=
  ∀ (i : Nat) d, old[i]? = some d →
    ∃ c, s.coordinators[i]? = some c ∧ c.Settled ∧ c.state = d.state ∧ c.badge = d.badge

theorem Elders.ease (elders : Elders old s) (ease : Ease s s') : Elders old s' := by
  intro i d first
  obtain ⟨c, was, settled, state, badge⟩ := elders i d first
  have within : i < s'.coordinators.length :=
    ease.length ▸ (List.getElem?_eq_some_iff.mp was).1
  have found := List.getElem?_eq_getElem within
  obtain ⟨c', was', eases⟩ := ease.moved i _ found
  obtain rfl := Option.some.inj (was.symm.trans was')
  obtain ⟨settled', same⟩ := settled.eases eases
  exact ⟨_, found, settled', same.trans state, eases.badge.trans badge⟩

theorem Elders.concat {c : Coordinator} (elders : Elders old s)
    (grown : s'.coordinators = s.coordinators ++ [c]) : Elders old s' := by
  intro i d first
  obtain ⟨c', was, rest⟩ := elders i d first
  have within := (List.getElem?_eq_some_iff.mp was).1
  exact ⟨c', by rw [grown, List.getElem?_append_left within, was], rest⟩

/-- The leads that a start has started and not stopped. -/
def Errand.inHand : Errand → List Part
  | .opening (.toStart _ started) _ _ => started
  | .opening (.starting current _ started) _ _ => current :: started
  | .opening (.toStop started _) _ _ => started
  | .opening (.stopping rest _) _ _ => rest
  | _ => []

/-- What the errand of a start has to do with a coordinator: nothing, as that is at rest, or it is
to stop it if the start fails, or it has stopped it and waits for its run. -/
inductive Tended (e : Errand) (i : Nat) (c : Coordinator) : Prop where
  | settled : c.Settled → Tended e i c
  | held {k : Nat} : .coordinator i ∈ e.inHand → c.running = some k → Tended e i c
  | ending {k : Nat} : e.awaits = some (.run i k) → k < c.runs.length → Tended e i c

/-- A plant in which a start of the host is at `e`; the coordinators of `old` were there before. -/
structure Tends (old : List Coordinator) (s : Plant) (e : Errand) : Prop where
  kept : ∀ c ∈ s.coordinators, c.Kept
  elders : Elders old s
  tended : e.isOpen = false → ∀ i c, s.coordinators[i]? = some c → Tended e i c
  late : e.isOpen = true → s.ambient.controller.health ≠ .starting

/-- A start that has failed leaves only coordinators at rest. -/
theorem Tends.settled {fault : HostFault} (tends : Tends old s (.opened (.error fault))) :
    ∀ c ∈ s.coordinators, c.Settled := by
  intro c mem
  obtain ⟨i, found⟩ := List.mem_iff_getElem?.mp mem
  cases tends.tended rfl i c found with
  | settled ended => exact ended
  | held mem => cases mem
  | ending waits => cases waits

theorem Tended.drifts {i : Nat} {c c' : Coordinator} (tended : Tended e i c)
    (drifts : c.Drifts c') : Tended e i c' := by
  cases tended with
  | settled ended => exact .settled (ended.drifts drifts).1
  | held mem running => exact .held mem (drifts.running.trans running)
  | ending waits within => exact .ending waits (drifts.length ▸ within)

namespace Plant

/-- Whoever hears of the end of a run finds the coordinator at rest. -/
theorem settled_of_poll {i k : Nat} {c : Coordinator} {answer : Except Cause Unit}
    (found : s.coordinators[i]? = some c) (kept : c.Kept) (within : k < c.runs.length)
    (polled : s.poll (.run i k) = some (s', answer)) : c.Settled := by
  have run := List.getElem?_eq_getElem within
  obtain ⟨_, only⟩ := kept.runs run
  have ended : (c.runs[k]).isOver = true := by
    simp only [poll, found, run] at polled
    split at polled
    · rename_i o broke
      simp [Run.isOver, broke]
    · split at polled
      · assumption
      · cases polled
  rw [Coordinator.Settled, only]
  simpa using ended

/-- A coordinator that was just made has one run, which has begun. -/
theorem keeperFor_kept {part : Part} (own : ∀ i, part ≠ .coordinator i) (token : CancelToken) :
    ((p.keeperFor part).begun token).Kept := by
  refine ⟨own, Nat.le_refl 1, fun k running => ?_, fun finished => ?_,
    fun r mem lease guarded => ?_⟩
  · cases running
    exact Nat.one_pos
  · cases finished _ (.head _)
  · obtain rfl := List.mem_singleton.mp mem
    cases guarded

/-- A part of which only one may run is started by a new coordinator behind the others. -/
theorem beginStart_keeper {part lead : Part} {q : Plant} (one : s.leases part = true)
    (wrapped : s.wrap part = (q, lead)) (a : Ambient) (token : CancelToken) :
    lead = .coordinator s.coordinators.length ∧ ∃ token',
      ((q.withAmbient a).beginStart lead token).1.coordinators =
        s.coordinators ++ [(s.keeperFor part).begun token'] := by
  rw [wrap_of_leases one] at wrapped
  obtain ⟨rfl, rfl⟩ := Prod.mk.inj wrapped
  refine ⟨rfl, (a.child token).2, ?_⟩
  simp [beginStart, withAmbient, setCoordinator, Coordinator.start, Coordinator.begun, keeperFor]

/-- A coordinator that is stopped is waited for, if it has a run. -/
theorem beginStop_keeper {i k : Nat} {c : Coordinator} (found : s.coordinators[i]? = some c)
    (running : c.running = some k) (within : k < c.runs.length) :
    (s.beginStop (.coordinator i)).2 = .run i k := by
  have run := List.getElem?_eq_getElem within
  simp [beginStop, found, Coordinator.stop, running, run]

end Plant

theorem Tends.drift (tends : Tends old s e) (drift : Drift s s')
    (late : s.ambient.controller.health ≠ .starting → s'.ambient.controller.health ≠ .starting) :
    Tends old s' e where
  kept := drift.all Coordinator.Kept.drifts tends.kept
  elders := tends.elders.ease drift.ease
  tended below i c' found := by
    obtain ⟨c, was, drifts⟩ := drift.moved i c' found
    exact (tends.tended below i c was).drifts drifts
  late ready := late (tends.late ready)

/-- The errand of a start goes on. -/
theorem Tends.goes_on (tends : Tends old s e) (ease : Ease s s') (below : e'.isOpen = false)
    (tended : ∀ i c, s'.coordinators[i]? = some c → Tended e' i c) : Tends old s' e' where
  kept := ease.all Coordinator.Kept.eases tends.kept
  elders := tends.elders.ease ease
  tended _ := tended
  late ready := by rw [below] at ready; cases ready

/-- Whoever hears an answer has the coordinators in hand that it had, or they are at rest. -/
theorem Tends.heard {o : Host.Opening Part} {call : Call} {answer : Except Cause Unit}
    {o' : Host.Opening Part} (tends : Tends old s (.opening o (some call) none))
    (polled : s.poll call = some (s', answer))
    (hand : ∀ i, .coordinator i ∈ (Errand.opening o (some call) none).inHand →
      .coordinator i ∈ (Errand.opening o' none none).inHand) :
    Tends old s' (.opening o' none none) := by
  have same := (Plant.poll_still polled).members
  refine tends.goes_on (Ease.of_eq same) rfl fun i c found => ?_
  rw [same] at found
  cases tends.tended rfl i c found with
  | settled ended => exact .settled ended
  | held mem running => exact .held (hand i mem) running
  | ending waits within =>
      obtain rfl := Option.some.inj waits
      have kept := tends.kept c (List.mem_of_getElem? found)
      exact .settled (Plant.settled_of_poll found kept within polled)

/-- The next part is started. -/
theorem Tends.start {part lead : Part} {rest : List Part} {started : List Part} {q : Plant}
    (tends : Tends old s (.opening (.toStart (part :: rest) started) none none))
    (own : ∀ i, part ≠ .coordinator i) (wrapped : s.wrap part = (q, lead)) (a : Ambient)
    (token : CancelToken) :
    Tends old ((q.withAmbient a).beginStart lead token).1
      (.opening (.starting lead rest started)
        (some ((q.withAmbient a).beginStart lead token).2) none) := by
  have held (call : Call) (i : Nat) (c : Coordinator)
      (tended : Tended (.opening (.toStart (part :: rest) started) none none) i c) :
      Tended (.opening (.starting lead rest started) (some call) none) i c := by
    cases tended with
    | settled ended => exact .settled ended
    | held mem running => exact .held (.tail _ mem) running
    | ending waits => cases waits
  cases one : s.leases part with
  | false =>
      obtain ⟨rfl, rfl⟩ := Prod.mk.inj ((Plant.wrap_of_not_leases one).symm.trans wrapped)
      have same : ((s.withAmbient a).beginStart part token).1.coordinators = s.coordinators :=
        Plant.beginStart_members own token
      refine tends.goes_on (Ease.of_eq same) rfl fun i c found => held _ i c ?_
      exact tends.tended rfl i c (same ▸ found)
  | true =>
      obtain ⟨rfl, token', grown⟩ := Plant.beginStart_keeper one wrapped a token
      refine ⟨fun c mem => ?_, tends.elders.concat grown, fun _ i c found => ?_, nofun⟩
      · rw [grown] at mem
        obtain old | new := List.mem_append.mp mem
        · exact tends.kept c old
        · obtain rfl := List.mem_singleton.mp new
          exact Plant.keeperFor_kept own token'
      · rw [grown] at found
        obtain old | ⟨rfl, rfl⟩ := getElem?_concat_cases found
        · exact held _ i c (tends.tended rfl i c old)
        · exact .held (.head _) rfl

/-- The part that was started last is stopped again. -/
theorem Tends.undo {y : Part} {left : List Part} {fault : HostFault}
    (tends : Tends old s (.opening (.toStop (y :: left) fault) none none)) :
    Tends old (s.beginStop y).1
      (.opening (.stopping left fault) (some (s.beginStop y).2) none) := by
  -- Whoever is in hand apart from the one that is stopped stays in hand.
  have others (call : Call) (i : Nat) (c : Coordinator) (other : y ≠ .coordinator i)
      (tended : Tended (.opening (.toStop (y :: left) fault) none none) i c) :
      Tended (.opening (.stopping left fault) (some call) none) i c := by
    cases tended with
    | settled ended => exact .settled ended
    | held mem running => exact .held (List.mem_of_ne_of_mem (Ne.symm other) mem) running
    | ending waits => cases waits
  refine tends.goes_on (s.beginStop_ease y) rfl fun i c found => ?_
  obtain ⟨same, absent⟩ | ⟨j, d, rfl, there, changed⟩ := s.beginStop_members y
  · rw [same] at found
    refine others _ i c (fun own => ?_) (tends.tended rfl i c found)
    cases found.symm.trans (absent i own)
  · obtain ⟨rfl, rfl⟩ | ⟨other, old⟩ := Plant.coordinators_of_set there changed found
    · cases tends.tended rfl i d there with
      | settled ended => exact .settled ended
      | held mem running =>
          have within := (tends.kept d (List.mem_of_getElem? there)).running _ running
          exact .ending (congrArg some (Plant.beginStop_keeper there running within)) within
      | ending waits => cases waits
    · exact others _ i c (by simpa using Ne.symm other) (tends.tended rfl i c old)

/-- A stride of a start keeps all this. Only a part that leads itself fails to start. -/
theorem Tends.stride (own : ∀ part ∈ p.host.parts, ∀ i, part ≠ .coordinator i)
    (opens : Opens p touched e h) (tends : Tends old s e) (stride : Stride s e deal s' e') :
    Tends old s' e' := by
  cases opens with
  | @next done rest line =>
      cases rest with
      | nil =>
          cases stride with
          | opened last =>
              subst last
              exact ⟨tends.kept, tends.elders, nofun, fun _ => nofun⟩
      | cons x rest =>
          have alone := own x.part (Plant.mem_parts_of_lineup line)
          cases stride with
          | start wrapped child => exact tends.start alone wrapped _ _
  | @waits done rest x _ _ call line _ sure =>
      have alone := own x.part (Plant.mem_parts_of_lineup line)
      cases stride with
      | @heard _ _ _ answer _ polled =>
          cases answer with
          | ok => exact tends.heard polled fun i mem => mem
          | error cause =>
              refine tends.heard polled fun i mem => ?_
              obtain here | earlier := List.mem_cons.mp mem
              · have lead := lineupFrom_lead line
                split at lead
                · rename_i one
                  rw [sure one] at polled
                  cases polled
                · exact absurd (lead.symm.trans here.symm) (alone i)
              · exact earlier
  | opened => cases stride
  | @undoes done rest x cause ends left =>
      cases left with
      | nil =>
          cases stride with
          | failed =>
              refine tends.goes_on (Ease.of_eq rfl) rfl fun i c found => ?_
              cases tends.tended rfl i c found with
              | settled ended => exact .settled ended
              | held mem => cases mem
              | ending waits => cases waits
      | cons y left =>
          cases stride with
          | undo => exact tends.undo
  | undoing =>
      cases stride with
      | heard polled => exact tends.heard polled fun i mem => mem
  | failed => cases stride

/-! ## A host that has left its first phase -/

namespace Plant

/-- The host has left the phase in which it can be started. -/
structure Late (p : Plant) : Prop where
  calls : ∀ b ∈ p.background, b.isCall = true
  health : p.ambient.controller.health ≠ .starting

theorem Keeps.late (keeps : Keeps p s) (late : p.Late) : s.Late where
  calls b mem := (keeps.background b mem).elim (late.calls b) id
  health := keeps.ambient.health ▸ late.health

theorem wrap_late (part : Part) (late : p.Late) : (p.wrap part).1.Late := by
  unfold wrap
  split
  · exact ⟨late.calls, late.health⟩
  · exact late

theorem Late.beginOpening (late : p.Late) (stay : Option Duration) :
    p.beginOpening stay = .opened (.error .alreadyStarted) := by
  simp [Plant.beginOpening, late.health]

/-- Whoever shuts the host down announces it first. -/
theorem beginClosing_late (calls : ∀ b ∈ p.background, b.isCall = true) (stayed : Bool) :
    (p.beginClosing stayed).1.Late := by
  simp only [beginClosing]
  split <;> exact ⟨calls, fun back => by cases back⟩

/-- The host does not come back to it. -/
theorem stepErrand_late (late : p.Late) (step : p.stepErrand e = some (s, e')) : s.Late := by
  have stride := stepErrand_stride step
  generalize p.dealing? e = deal at stride
  cases stride with
  | called polled | heard polled | stopped polled => exact (poll_still polled).toKeeps.late late
  | @start part _ _ _ _ q a token wrapped child =>
      have taken : q.Late := by
        have := wrap_late part late
        rwa [wrapped] at this
      have below := (still_ambient (.child q.ambient q.ambient.controller.token)).toKeeps
      rw [child] at below
      exact (below.trans (beginStart_goes _ _ token).toKeeps).late taken
  | opened => exact ⟨late.calls, nofun⟩
  | undo | stop => exact (beginStop_goes p _).toKeeps.late late
  | leave => exact beginClosing_late late.calls true
  | failed | overran | drain | again => exact late
  | @closed _ _ _ deadline wake c =>
      simp only [stepErrand] at step
      split at step
      · have looked := Controller.look_health p.ambient.controller p.now deadline
        refine ⟨late.calls, fun back => ?_⟩
        have same : (p.ambient.controller.look p.now deadline).1 = c := by
          split at step <;> exact congrArg (·.1.ambient.controller) (Option.some.inj step)
        rw [same, show c.health = .starting from back] at looked
        split at looked
        · cases looked
        · exact late.health looked.symm
      · cases step

end Plant

/-- The fault with which a start has failed. -/
def Errand.fault? : Errand → Option HostFault
  | .opened (.error fault) => some fault
  | _ => none

theorem Errand.eq_failed {fault : HostFault} (failed : e.fault? = some fault) :
    e = .opened (.error fault) := by
  unfold fault? at failed
  split at failed <;> cases failed
  rfl

/-- Whether the host is being started. -/
def Errand.isOpening : Errand → Bool
  | .opening .. => true
  | _ => false

theorem Plant.beginClosing_isOpening (stayed : Bool) :
    (p.beginClosing stayed).2.isOpening = false := by
  simp only [beginClosing]
  split <;> rfl

namespace Works

open Plant (Late)

variable {q : Plant} {deeds : List Deed}

theorem act_late (late : p.Late) (d : Deed) : (act p d).Late := by
  cases aside : d.isHosts with
  | false => exact (act_keeps late.calls aside).late late
  | true =>
      cases d with
      | step task =>
          cases task with
          | foreground =>
              simp only [act, Plant.step?]
              cases p.foreground with
              | none => exact late
              | some e =>
                  simp only
                  cases step : p.stepErrand e with
                  | none => exact late
                  | some next =>
                      obtain ⟨calls, health⟩ := Plant.stepErrand_late late step
                      exact ⟨calls, health⟩
          | _ => cases aside
      | launch stay => exact ⟨late.calls, late.health⟩
      | shutDown =>
          obtain ⟨calls, health⟩ := Plant.beginClosing_late late.calls false
          exact ⟨calls, health⟩
      | trigger => exact ⟨late.calls, fun back => by cases back⟩
      | _ => cases aside

theorem run_late (late : p.Late) (deeds : List Deed) : (run p deeds).Late := by
  induction deeds generalizing p with
  | nil => exact late
  | cons d rest ih => exact ih (act_late late d)

/-- An answer stays as it is, as long as the host is not asked for anything else. -/
theorem run_opened {answer : Except HostFault Unit} (late : p.Late)
    (answered : p.foreground = some (.opened answer))
    (shared : ∀ d ∈ deeds, d.isExclusive = false) :
    (run p deeds).foreground = some (.opened answer) := by
  induction deeds generalizing p with
  | nil => exact answered
  | cons d rest ih =>
      have first := act_cases answered late.calls (shared d (.head _)) fun loud : False => loud.elim
      refine ih (act_late late d) ?_ fun d mem => shared d (.tail _ mem)
      obtain ⟨_, _, _, stride, _⟩ | ⟨_, same, _⟩ := first
      · cases stride
      · exact same

/-! ## One attempt -/

/-- In `s` the host of `p` has been asked to start, and its errand is at `e`. -/
def Tried (p s : Plant) (e : Errand) : Prop :=
  (∃ h, Rises p False s e h) ∨ ∃ fault h, Refused p False fault s e h

theorem Tried.under (tried : Tried p s e) : ∃ touched, Underway p s False e.isOpen touched := by
  obtain ⟨_, touched, _, under⟩ | ⟨_, _, rfl, _, under⟩ := tried
  · exact ⟨touched, under⟩
  · exact ⟨[], under⟩

theorem Tried.opened (tried : Tried p s (.opened (.ok ()))) :
    Underway p s False true p.lineup := by
  obtain ⟨_, touched, opens, under⟩ | ⟨_, _, answer, _⟩ := tried
  · obtain ⟨rfl, _⟩ := opens.all
    exact under
  · cases answer

theorem launch_tried (idle : p.Idle) (shared : ∀ d ∈ deeds, d.isExclusive = false) :
    ∃ e, (run (act p (.launch none)) deeds).foreground = some e ∧
      Tried p (run (act p (.launch none)) deeds) e := by
  by_cases may : p.MayOpen
  · obtain ⟨e, here, rises⟩ := launch_opens idle may shared fun loud : False => loud.elim
    exact ⟨e, here, .inl ⟨_, rises⟩⟩
  · obtain ⟨fault, e, here, refused⟩ :=
      launch_refuses idle may shared fun loud : False => loud.elim
    exact ⟨e, here, .inr ⟨_, _, refused⟩⟩

/-- In a deed the errand of the host takes a stride, or coordinators drift. -/
theorem act_moves (calls : ∀ b ∈ s.background, b.isCall = true)
    (kept : ∀ c ∈ s.coordinators, c.Kept) {d : Deed} (shared : d.isExclusive = false)
    (spares : d.sparesKeepers = true) :
    (∃ e s' e' deal, s.foreground = some e ∧ Stride s e deal s' e' ∧
      act s d = { s' with foreground := some e' }) ∨
    Drift s (act s d) ∧ (act s d).foreground = s.foreground := by
  by_cases own : d = .step .foreground
  · subst own
    simp only [act, Plant.step?]
    cases here : s.foreground with
    | none => exact .inr ⟨Drift.of_eq rfl, here⟩
    | some e =>
        simp only
        cases step : s.stepErrand e with
        | none => exact .inr ⟨Drift.of_eq rfl, here⟩
        | some next => exact .inl ⟨e, _, _, _, rfl, Plant.stepErrand_stride step, rfl⟩
  · obtain ⟨_, same, _⟩ := act_beside calls own shared fun loud : False => loud.elim
    exact .inr ⟨act_drift calls kept own spares, same⟩

theorem act_tends (own : ∀ part ∈ p.host.parts, ∀ i, part ≠ .coordinator i)
    (here : s.foreground = some e) (tried : Tried p s e) (tends : Tends old s e) {d : Deed}
    (shared : d.isExclusive = false) (spares : d.sparesKeepers = true)
    (here' : (act s d).foreground = some e') : Tends old (act s d) e' := by
  obtain ⟨_, under⟩ := tried.under
  obtain ⟨_, s', _, _, was, stride, after⟩ | ⟨drift, same⟩ :=
    act_moves under.calls tends.kept shared spares
  · obtain rfl := Option.some.inj (was.symm.trans here)
    rw [after] at here' ⊢
    obtain rfl := Option.some.inj here'
    obtain ⟨_, _, opens, _⟩ | ⟨_, _, rfl, _⟩ := tried
    · obtain ⟨kept, elders, tended, late⟩ := tends.stride own opens stride
      exact ⟨kept, elders, tended, late⟩
    · cases stride
  · obtain rfl := Option.some.inj (here.symm.trans (same.symm.trans here'))
    exact tends.drift drift fun late => (act_late ⟨under.calls, late⟩ d).health

/-- Coordinators are tended all the time. -/
theorem launch_tends (idle : p.Idle) (own : ∀ part ∈ p.host.parts, ∀ i, part ≠ .coordinator i)
    (kept : ∀ c ∈ p.coordinators, c.Kept) (settled : ∀ c ∈ p.coordinators, c.Settled)
    (shared : ∀ d ∈ deeds, d.isExclusive = false)
    (spares : ∀ d ∈ deeds, d.sparesKeepers = true) :
    ∀ e, (run (act p (.launch none)) deeds).foreground = some e →
      Tends p.coordinators (run (act p (.launch none)) deeds) e := by
  -- Where the errand is before the last deed is known from all deeds before it.
  induction deeds using List.reverseRecOn with
  | nil =>
      intro e here
      obtain rfl : p.beginOpening none = e := Option.some.inj here
      have rest (i : Nat) (c : Coordinator) (found : p.coordinators[i]? = some c) : c.Settled :=
        settled c (List.mem_of_getElem? found)
      refine ⟨kept, fun i c found => ⟨c, found, rest i c found, rfl, rfl⟩,
        fun _ i c found => .settled (rest i c found), ?_⟩
      by_cases may : p.MayOpen
      · rw [Plant.beginOpening_of_mayOpen idle may]
        nofun
      · obtain ⟨fault, refused⟩ := Plant.beginOpening_refuses idle may none
        rw [refused]
        nofun
  | append_singleton before d ih =>
      intro e' here'
      have shared' : ∀ d ∈ before, d.isExclusive = false := fun d mem =>
        shared d (List.mem_append_left _ mem)
      have last : d ∈ before ++ [d] := List.mem_append_right _ (.head _)
      obtain ⟨e, here, tried⟩ := launch_tried idle shared'
      have tends := ih shared' (fun d mem => spares d (List.mem_append_left _ mem)) e here
      rw [run_append, run_cons, run_nil] at here' ⊢
      exact act_tends own here tried tends (shared d last) (spares d last) here'

/-! ## Several attempts -/

/-- From `p` on the host has been asked to start a number of times, and every attempt has failed.
Nobody asks anything else of the host before an attempt is over, or anything of its coordinators. -/
inductive Attempts (p : Plant) : Plant → Prop where
  | nil : Attempts p p
  | failed {q : Plant} {deeds : List Deed} {fault : HostFault} : Attempts p q →
      (∀ d ∈ deeds, d.isExclusive = false) → (∀ d ∈ deeds, d.sparesKeepers = true) →
      (run (act q (.launch none)) deeds).foreground = some (.opened (.error fault)) →
      Attempts p (run (act q (.launch none)) deeds)

/-- The host is what it was in `p`, and all coordinators are at rest. -/
structure Rested (p q : Plant) : Prop where
  idle : q.Idle
  host : q.host = p.host
  known : ∀ part b, p.badge? part = some b → q.badge? part = some b
  kept : ∀ c ∈ q.coordinators, c.Kept
  settled : ∀ c ∈ q.coordinators, c.Settled

/-- Without coordinators there are none among the parts. -/
theorem parts_own (idle : p.Idle) (fresh : p.coordinators = []) :
    ∀ part ∈ p.host.parts, ∀ i, part ≠ .coordinator i := by
  rintro _ mem i rfl
  have there := idle.parts _ mem
  simp [Plant.badge?, fresh] at there

/-- After attempts that have failed the host can be started again, unless somebody has announced its
shutdown. -/
theorem Attempts.rested (idle : p.Idle) (fresh : p.coordinators = []) (attempts : Attempts p q) :
    Rested p q ∨ q.Late := by
  induction attempts with
  | nil =>
      refine .inl ⟨idle, rfl, fun _ _ => id, ?_, ?_⟩ <;> simp [fresh]
  | @failed q deeds fault _ shared spares failed ih =>
      obtain rested | late := ih
      · have own := rested.host ▸ parts_own idle fresh
        obtain ⟨e, here, tried⟩ := launch_tried rested.idle shared
        have tends := launch_tends rested.idle own rested.kept rested.settled shared spares e here
        obtain rfl := Option.some.inj (here.symm.trans failed)
        obtain ⟨touched, under⟩ := tried.under
        by_cases health : (run (act q (.launch none)) deeds).ambient.controller.health = .starting
        · have calm : Underway q (run (act q (.launch none)) deeds) True false touched :=
            { under with health := fun _ => health }
          exact .inl
            { idle := calm.idle rested.idle trivial
              host := (under.host_same rested.idle).trans rested.host
              known := fun part b there => under.known part b (rested.known part b there)
              kept := tends.kept
              settled := tends.settled }
        · exact .inr ⟨under.calls, health⟩
      · exact .inr (run_late (act_late late _) deeds)

/-- A coordinator at rest says that there is no lease, if none broke off. -/
theorem Rested.singletonState?_getD (rested : Rested p q)
    (going : ∀ c ∈ q.coordinators, ∀ r ∈ c.runs, r.overflow? = none) (name : String)
    (other : Singleton.LockState) : (q.singletonState? name).getD other =
      if q.coordinators.any (·.name == name) then .unlocked else other := by
  cases found : q.coordinators.find? (·.name == name) with
  | none =>
      have free : ¬ q.coordinators.any (·.name == name) = true := by
        simpa [List.find?_eq_none] using found
      simp only [Plant.singletonState?, found, Option.map_none, Option.getD_none, if_neg free]
  | some c =>
      have mem := List.mem_of_find?_eq_some found
      have taken : q.coordinators.any (·.name == name) = true :=
        List.any_eq_true.mpr ⟨c, mem, by simpa using List.find?_some found⟩
      have rest := (rested.kept c mem).unlocked (rested.settled c mem) (going c mem)
      simp only [Plant.singletonState?, found, Option.map_some, Option.getD_some, rest,
        if_pos taken]

theorem Rested.badge?_same (rested : Rested p q) {part : Part}
    (there : (p.badge? part).isSome = true) : q.badge? part = p.badge? part := by
  obtain ⟨b, found⟩ := Option.isSome_iff_exists.mp there
  rw [found]
  exact rested.known part b found

/-! ## After a start -/

variable {t t' : Plant}

/-- A plant after a start of the host has left `s`; the coordinators of `old` were there before. -/
structure Aged (old : List Coordinator) (s t : Plant) : Prop extends Plant.Late t where
  past : ∀ e, t.foreground = some e → e.isOpening = false
  badges : ∀ (i : Nat) c, t.coordinators[i]? = some c →
    ∃ d, s.coordinators[i]? = some d ∧ c.badge = d.badge
  length : t.coordinators.length = s.coordinators.length
  kept : ∀ c ∈ t.coordinators, c.Kept
  elders : Elders old t

theorem Aged.ease (aged : Aged old s t) (late : t'.Late)
    (past : ∀ e, t'.foreground = some e → e.isOpening = false) (ease : Ease t t') :
    Aged old s t' where
  toLate := late
  past := past
  badges i c' found := by
    obtain ⟨c, was, eases⟩ := ease.moved i c' found
    obtain ⟨d, before, badge⟩ := aged.badges i c was
    exact ⟨d, before, eases.badge.trans badge⟩
  length := ease.length.trans aged.length
  kept := ease.all Coordinator.Kept.eases aged.kept
  elders := aged.elders.ease ease

/-- Apart from starts only a shutdown does something to coordinators: it stops them. -/
theorem stride_ease (stride : Stride t e deal t' e')
    (past : e.isOpening = false) : Ease t t' ∧ e'.isOpening = false := by
  cases stride with
  | called polled | stopped polled => exact ⟨Ease.of_eq (Plant.poll_still polled).members, rfl⟩
  | start | heard | opened | undo | failed => cases past
  | leave => exact ⟨Ease.of_eq (t.beginClosing_members true), Plant.beginClosing_isOpening true⟩
  | overran | drain | again => exact ⟨Ease.of_eq rfl, rfl⟩
  | @closed _ stayed => exact ⟨Ease.of_eq rfl, by cases stayed <;> rfl⟩
  | @stop part => exact ⟨t.beginStop_ease part, rfl⟩

theorem act_aged (aged : Aged old s t) {d : Deed} (spares : d.sparesKeepers = true) :
    Aged old s (act t d) := by
  have late := act_late aged.toLate d
  cases shared : d.isExclusive with
  | false =>
      obtain ⟨_, t', _, _, here, stride, after⟩ | ⟨drift, same⟩ :=
        act_moves aged.calls aged.kept shared spares
      · obtain ⟨⟨length, moved⟩, past⟩ := stride_ease stride (aged.past _ here)
        rw [after] at late ⊢
        exact aged.ease late (fun e same => Option.some.inj same ▸ past) ⟨length, moved⟩
      · exact aged.ease late (fun e here => aged.past e (same ▸ here)) drift.ease
  | true =>
      cases d with
      | launch stay =>
          have refused := aged.toLate.beginOpening stay
          refine aged.ease late (fun e here => ?_) (Ease.of_eq rfl)
          rw [← Option.some.inj here, refused]
          rfl
      | shutDown =>
          refine aged.ease late (fun e here => ?_) (Ease.of_eq (t.beginClosing_members false))
          rw [← Option.some.inj here]
          exact Plant.beginClosing_isOpening false
      | _ => cases shared

theorem run_aged (aged : Aged old s t) {more : List Deed}
    (spares : ∀ d ∈ more, d.sparesKeepers = true) : Aged old s (run t more) := by
  induction more generalizing t with
  | nil => exact aged
  | cons d rest ih =>
      exact ih (act_aged aged (spares d (.head _))) fun d mem => spares d (.tail _ mem)

end Works

/-! ## Who answers -/

/-- Each coordinator that a start makes is made for a part. -/
theorem exists_lead {leased : Part → Bool} {n j : Nat} {parts : List Part} (later : n ≤ j)
    (within : j < n + parts.countP leased) :
    ∃ x ∈ lineupFrom leased n parts, leased x.part = true ∧ x.lead = .coordinator j := by
  induction parts generalizing n with
  | nil => simp at within; omega
  | cons part rest ih =>
      cases one : leased part with
      | false =>
          rw [List.countP_cons_of_neg (by simp [one])] at within
          obtain ⟨x, mem, found⟩ := ih later within
          exact ⟨x, List.mem_cons_of_mem _ (by simpa [one] using mem), found⟩
      | true =>
          rw [List.countP_cons_of_pos one] at within
          by_cases here : j = n
          · subst here
            exact ⟨_, .head _, one, by simp [one]⟩
          · obtain ⟨x, mem, found⟩ := @ih (n + 1) (by omega) (by omega)
            exact ⟨x, List.mem_cons_of_mem _ (by simpa [one] using mem), found⟩

section

variable {q t : Plant} {quiet : Prop} {isOpen : Bool} {x : Listing} {i j : Nat}
  {c : Coordinator}

/-- A coordinator behind those that were there before is the lead of a part and goes by its name. -/
theorem Underway.keeper (under : Underway q s quiet isOpen q.lineup)
    (found : s.coordinators[j]? = some c) (later : q.coordinators.length ≤ j) :
    ∃ x ∈ q.lineup, x.lead = .coordinator j ∧ c.part = x.part ∧ c.name = q.partName x.part := by
  have within := (List.getElem?_eq_some_iff.mp found).1
  have parts : q.lineup.map (·.part) = q.host.parts := lineupFrom_parts _ _ _
  have count : q.host.parts.countP q.leases = q.lineup.countP (q.leases ·.part) := by
    rw [← parts, List.countP_map]
    rfl
  rw [under.count, ← count] at within
  obtain ⟨x, mem, one, lead⟩ := exists_lead later within
  have stands := under.stands x mem
  rw [Stands, if_pos one] at stands
  obtain ⟨i, lead', badge⟩ := stands
  obtain rfl : j = i := Part.coordinator.inj (lead.symm.trans lead')
  rw [List.getElem?_map, found] at badge
  obtain ⟨name, -, part, -⟩ : c.name = _ ∧ c.lockId = _ ∧ c.part = _ ∧ c.config = _ := by
    simpa [Coordinator.badge] using badge
  exact ⟨x, mem, lead, part, name⟩

/-- Where names are distinct, no other coordinator of the same start goes by the name of a part. -/
theorem Underway.only_keeper (under : Underway q s quiet isOpen q.lineup)
    (names : (q.host.parts.map q.partName).Nodup) (mem : x ∈ q.lineup)
    (lead : x.lead = .coordinator i) (found : s.coordinators[j]? = some c)
    (later : q.coordinators.length ≤ j) (name : c.name = q.partName x.part) : j = i := by
  obtain ⟨y, mem', lead', -, name'⟩ := under.keeper found later
  have parts : q.lineup.map (·.part) = q.host.parts := lineupFrom_parts _ _ _
  rw [← parts, List.map_map] at names
  obtain rfl : x = y := List.inj_on_of_nodup_map names mem mem' (name.symm.trans name')
  exact Part.coordinator.inj (lead'.symm.trans lead)

/-- The first coordinator of a name is asked. -/
theorem Plant.singletonState?_eq {name : String} (there : ∃ c ∈ t.coordinators, c.name = name) :
    ∃ (j : Nat) (c : Coordinator), t.coordinators[j]? = some c ∧ c.name = name ∧
      t.singletonState? name = some c.state ∧
      ∀ (i : Nat) (d : Coordinator), i < j → t.coordinators[i]? = some d → d.name ≠ name := by
  obtain ⟨d, mem, named⟩ := there
  have some' : (t.coordinators.find? fun c => c.name == name).isSome = true :=
    List.find?_isSome.mpr ⟨d, mem, by simpa using named⟩
  obtain ⟨c, found⟩ := Option.isSome_iff_exists.mp some'
  obtain ⟨name', j, within, here, before⟩ := List.find?_eq_some_iff_getElem.mp found
  refine ⟨j, c, ?_, by simpa using name', by simp [singletonState?, found],
    fun i d earlier was => ?_⟩
  · rw [List.getElem?_eq_getElem within, here]
  · obtain ⟨bound, rfl⟩ := List.getElem?_eq_some_iff.mp was
    simpa using before i earlier

end

namespace Works

variable {q : Plant} {deeds more : List Deed}

/-- Of an attempt that has succeeded. -/
theorem launch_opened (idle : p.Idle) (fresh : p.coordinators = []) (attempts : Attempts p q)
    (shared : ∀ d ∈ deeds, d.isExclusive = false)
    (spares : ∀ d ∈ deeds, d.sparesKeepers = true)
    (ready : (run (act q (.launch none)) deeds).foreground = some (.opened (.ok ()))) :
    Rested p q ∧ Underway q (run (act q (.launch none)) deeds) False true q.lineup ∧
      Aged q.coordinators (run (act q (.launch none)) deeds)
        (run (act q (.launch none)) deeds) := by
  obtain rested | late := attempts.rested idle fresh
  · obtain ⟨e, here, tried⟩ := launch_tried rested.idle shared
    have own := rested.host ▸ parts_own idle fresh
    have tends := launch_tends rested.idle own rested.kept rested.settled shared spares e here
    obtain rfl := Option.some.inj (here.symm.trans ready)
    have under := tried.opened
    exact ⟨rested, under, ⟨under.calls, tends.late rfl⟩, by simp [ready, Errand.isOpening],
      fun i c found => ⟨c, found, rfl⟩, rfl, tends.kept, tends.elders⟩
  · have refused : (act q (.launch none)).foreground = some (.opened (.error .alreadyStarted)) :=
      congrArg some (late.beginOpening none)
    have kept := run_opened (act_late late _) refused shared
    cases kept.symm.trans ready

section

variable {t : Plant} {x : Listing} {quiet : Prop} {i j : Nat} {c d : Coordinator}

/-- Where the lead of a part is found at any later moment. -/
theorem Aged.keeper (aged : Aged old s t)
    (stands : Stands q s x) (one : q.leases x.part = true) :
    ∃ i c, x.lead = .coordinator i ∧ t.coordinators[i]? = some c ∧ c.part = x.part ∧
      c.name = q.partName x.part := by
  rw [Stands, if_pos one] at stands
  obtain ⟨i, lead, badge⟩ := stands
  rw [List.getElem?_map] at badge
  obtain ⟨d, was, badge⟩ := Option.map_eq_some_iff.mp badge
  have within : i < t.coordinators.length :=
    aged.length ▸ (List.getElem?_eq_some_iff.mp was).1
  have found := List.getElem?_eq_getElem within
  obtain ⟨d', was', same⟩ := aged.badges i _ found
  obtain rfl := Option.some.inj (was.symm.trans was')
  have same := same.trans badge
  exact ⟨i, _, lead, found, congrArg (·.2.2.1) same, congrArg (·.1) same⟩

/-- Asking by the name of a part finds the lead of the part, unless there was a coordinator of that
name before; then it says what it said before. -/
theorem Aged.answers (aged : Aged q.coordinators s t)
    (under : Underway q s quiet true q.lineup) (names : (q.host.parts.map q.partName).Nodup)
    (listed : x ∈ q.lineup) (lead : x.lead = .coordinator i) (found : t.coordinators[i]? = some c)
    (named : c.name = q.partName x.part) :
    t.singletonState? (q.partName x.part) =
      some ((q.singletonState? (q.partName x.part)).getD c.state) := by
  obtain ⟨j, c', found', named', answer, before⟩ :=
    Plant.singletonState?_eq ⟨c, List.mem_of_getElem? found, named⟩
  have elder {k : Nat} {d : Coordinator} (was : q.coordinators[k]? = some d) :
      ∃ c, t.coordinators[k]? = some c ∧ c.state = d.state ∧ c.name = d.name := by
    obtain ⟨c, there, _, state, badge⟩ := aged.elders k d was
    exact ⟨c, there, state, congrArg (·.1) badge⟩
  rw [answer]
  by_cases taken : ∃ d ∈ q.coordinators, d.name = q.partName x.part
  · -- Whoever is asked in `t` is the one that was asked in `q`.
    obtain ⟨k, d, was, name, answer', before'⟩ := Plant.singletonState?_eq taken
    obtain ⟨d', there, state, same⟩ := elder was
    have notBefore : ¬ k < j := fun sooner => before k d' sooner there (same.trans name)
    have notAfter : ¬ j < k := by
      intro sooner
      have first := Nat.lt_trans sooner (List.getElem?_eq_some_iff.mp was).1
      have was' := List.getElem?_eq_getElem first
      obtain ⟨d'', there', -, same'⟩ := elder was'
      obtain rfl := Option.some.inj (found'.symm.trans there')
      exact before' j _ sooner was' (same'.symm.trans named')
    obtain rfl : j = k := Nat.le_antisymm (Nat.not_lt.mp notBefore) (Nat.not_lt.mp notAfter)
    obtain rfl := Option.some.inj (found'.symm.trans there)
    rw [answer', Option.getD_some, state]
  · have none : q.singletonState? (q.partName x.part) = none := by
      simpa [Plant.singletonState?] using taken
    have late : q.coordinators.length ≤ j := by
      by_contra early
      have was := List.getElem?_eq_getElem (Nat.lt_of_not_le early)
      obtain ⟨d, there, -, same⟩ := elder was
      obtain rfl := Option.some.inj (found'.symm.trans there)
      exact taken ⟨_, List.mem_of_getElem? was, same.symm.trans named'⟩
    obtain ⟨d, was, badge⟩ := aged.badges j c' found'
    have name : d.name = q.partName x.part := (congrArg (·.1) badge.symm : d.name = _).trans named'
    obtain rfl := under.only_keeper names listed lead was late name
    obtain rfl := Option.some.inj (found.symm.trans found')
    rw [none, Option.getD_none]

end

/-- A host without coordinators whose parts go by distinct names, several attempts to start it that
fail, one that succeeds, and whatever is done afterwards, all that while others do what they like
with anything but the coordinators of the host.

At every moment after the start each part of which only one may run has a coordinator that was
started for it, and the coordinator makes known that it holds a lease whenever the part runs under
one. If none of the attempts that failed has made a coordinator for the part, asking for its lease
by name gives what that coordinator makes known. Otherwise an older coordinator is asked, and it
says at every moment what it said before the start that succeeded: that there is no lease, if no run
of the older coordinators broke off. -/
theorem first_keeper_answers (idle : p.Idle) (fresh : p.coordinators = [])
    (names : (p.host.parts.map p.partName).Nodup) (attempts : Attempts p q)
    (shared : ∀ d ∈ deeds, d.isExclusive = false)
    (spares : ∀ d ∈ deeds, d.sparesKeepers = true)
    (ready : (run (act q (.launch none)) deeds).foreground = some (.opened (.ok ())))
    (spares' : ∀ d ∈ more, d.sparesKeepers = true) :
    let s := run (act q (.launch none)) deeds
    let t := run s more
    ∀ part ∈ p.host.parts, p.leases part = true → ∃ i c,
      .coordinator i ∈ s.host.started ∧ t.coordinators[i]? = some c ∧ c.part = part ∧
      c.name = p.partName part ∧
      (∀ r ∈ c.runs, ∀ lease, r.phase.guards = some lease → c.state = .locked lease.serial) ∧
      t.singletonState? (p.partName part) =
        some ((q.singletonState? (p.partName part)).getD c.state) ∧
      ((∀ older ∈ q.coordinators, ∀ r ∈ older.runs, r.overflow? = none) →
        t.singletonState? (p.partName part) =
          some (if q.coordinators.any (·.name == p.partName part) then .unlocked
            else c.state)) := by
  intro s t part mem one
  obtain ⟨rested, under, opened⟩ := launch_opened idle fresh attempts shared spares ready
  have aged : Aged q.coordinators s t := run_aged opened spares'
  have name_same (part : Part) (mem : part ∈ p.host.parts) : q.partName part = p.partName part := by
    rw [Plant.partName_eq, Plant.partName_eq, rested.badge?_same (idle.parts part mem)]
  have leased : q.leases part = true := by
    rw [← one]
    simp only [Plant.leases, Plant.partIsSingleton_eq, rested.badge?_same (idle.parts part mem),
      rested.host]
  have names' : (q.host.parts.map q.partName).Nodup := by
    rw [rested.host, List.map_congr_left name_same]
    exact names
  obtain ⟨x, listed, rfl⟩ : ∃ x ∈ q.lineup, x.part = part := by
    have parts : q.lineup.map (·.part) = q.host.parts := lineupFrom_parts _ _ _
    rw [← rested.host, ← parts] at mem
    exact List.mem_map.mp mem
  obtain ⟨i, c, lead, found, own, named⟩ := aged.keeper (under.stands x listed) leased
  have kept := aged.kept c (List.mem_of_getElem? found)
  have answers := aged.answers under names' listed lead found named
  rw [name_same x.part mem] at answers
  refine ⟨i, c, ?_, found, own, named.trans (name_same x.part mem), kept.guarded, answers,
    fun going => ?_⟩
  · have host : s.host.started = leads q.lineup := congrArg Host.started under.host
    rw [host, leads, List.mem_reverse, ← lead]
    exact List.mem_map.mpr ⟨x, listed, rfl⟩
  · rw [answers, rested.singletonState?_getD going]

/-- The coordinators of the second start of the shop take their steps. -/
def shopGoesOn : List Deed := .replicate 4 (.step (.run 1 0))

/-- The shop is started in vain, and then started. -/
theorem first_keeper_answers_shop :
    let q := run (act shop (.launch none)) shopFails
    let s := run (act q (.launch none)) shopOpens
    let t := run s shopGoesOn
    Attempts shop q ∧ s.foreground = some (.opened (.ok ())) ∧
      ∃ i c, .coordinator i ∈ s.host.started ∧ t.coordinators[i]? = some c ∧
        c.part = .double 1 ∧ c.name = "reports" ∧
        (∀ r ∈ c.runs, ∀ lease, r.phase.guards = some lease → c.state = .locked lease.serial) ∧
        t.singletonState? "reports" = some .unlocked := by
  intro q s t
  have failed : (q.foreground.bind Errand.fault?).isSome = true := by decide +kernel
  have opened : s.foreground.map (·.isOpen) = some true := by decide +kernel
  have taken : q.coordinators.any (·.name == "reports") = true := by decide +kernel
  have going : ∀ older ∈ q.coordinators, ∀ r ∈ older.runs, r.overflow? = none := by decide +kernel
  have attempts : Attempts shop q := by
    obtain ⟨fault, failed⟩ := Option.isSome_iff_exists.mp failed
    obtain ⟨e, here, failed⟩ := Option.bind_eq_some_iff.mp failed
    rw [Errand.eq_failed failed] at here
    exact .failed .nil (by decide) (by decide) here
  have ready : s.foreground = some (.opened (.ok ())) := by
    obtain ⟨e, here, ready⟩ := Option.map_eq_some_iff.mp opened
    rw [here, Errand.eq_opened ready]
  obtain ⟨i, c, lead, found, part, name, guarded, _, answer⟩ :=
    first_keeper_answers shop_idle rfl (by decide) attempts (by decide) (by decide) ready
      (by decide : ∀ d ∈ shopGoesOn, d.sparesKeepers = true) (.double 1) (by decide) (by decide)
  refine ⟨attempts, ready, i, c, lead, found, part, name, guarded,
    (answer going).trans ?_⟩
  rw [show shop.partName (.double 1) = "reports" from rfl, if_pos taken]

/-- The reports of the shop run under their lease, and asking for it by name says that there is
none. -/
theorem lease_denied_after_failed_start :
    let q := run (act shop (.launch none)) shopFails
    let s := run (act q (.launch none)) shopOpens
    let t := run s shopGoesOn
    (q.foreground.bind Errand.fault?).isSome = true ∧
      s.foreground.map (·.isOpen) = some true ∧ .coordinator 1 ∈ t.host.started ∧
      (t.coordinators[1]?).map (fun c => (c.name, c.part, c.state)) =
        some ("reports", .double 1, .locked 2) ∧
      t.singletonState? "reports" = some .unlocked := by
  decide +kernel

end Works

end Courier
