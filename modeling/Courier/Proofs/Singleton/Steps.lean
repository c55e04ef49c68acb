import Courier.Bench.Relay
import Courier.Proofs.Lease
import Courier.Proofs.Places
import Courier.Proofs.Singleton.Moves

/-!
# Steps of runs

A run of a coordinator takes three kinds of steps: it asks for what its phase requests, it takes
the reply, and it breaks off with a call to the store. Here is said once what each of them can be
where the parts of coordinators are doubles: `Plant.Asked` lists what a run waits for after asking,
`Plant.Told` the replies to that and what becomes of the locks, `Plant.Broke` the calls that break
off, and `Plant.Manned.step_cases` shows that nothing else happens to runs when a plant steps.
-/

namespace Courier

open Courier.Singleton (Phase Request Reply LockState Happening)

/-! ## What runs wait for -/

/-- What a run may wait for in a phase. -/
inductive Wait.Suits : Phase → Wait → Prop where
  | acquiring (turn t) : Suits .acquiring (.locks turn t none)
  | starting (lease d token t turn) : Suits (.starting lease) (.part (.starting d token t turn))
  | holding (lease t) : Suits (.holding lease) (.rest t)
  | renewing (lease left turn t deadline) :
      Suits (.renewing lease left) (.locks turn t (some deadline))
  | pausing (lease pause left t) : Suits (.pausing lease pause left) (.rest t)
  | stopping (lease ending t turn) : Suits (.stopping lease ending) (.part (.stopping t turn))
  | releasing (lease ending turn t) : Suits (.releasing lease ending) (.locks turn t none)
  | polling (t) : Suits .polling (.rest t)
  | brokenAcquire (o) : Suits .acquiring (.broken o)
  | brokenRenewal (lease left o) : Suits (.renewing lease left) (.broken o)

/-- When what a run waits for is due. -/
def Wait.dueAt : Wait → Nat
  | .locks _ t _ => t
  | .part (.starting _ _ t _) => t
  | .part (.stopping t _) => t
  | .part _ => 0
  | .rest t => t
  | .broken _ => 0

/-- A run goes on unless it has come to its end or a call of it broke off. -/
theorem Run.isOver_eq_false_iff {r : Run} :
    r.isOver = false ↔ r.phase ≠ .finished ∧ ∀ o, r.wait ≠ some (.broken o) := by
  simp only [isOver, overflow?, Bool.or_eq_false_iff, beq_eq_false_iff_ne]
  refine and_congr_right fun _ => ?_
  split
  · rename_i o broken
    simp [broken]
  · rename_i going
    simpa using going

theorem Turn.next_mem (plan : List Turn) :
    (Turn.next plan).1 = {} ∨ (Turn.next plan).1 ∈ plan := by
  cases plan with
  | nil => exact .inl rfl
  | cons t rest => exact .inr List.mem_cons_self

theorem Turn.next_subset (plan : List Turn) : (Turn.next plan).2 ⊆ plan := by
  cases plan with
  | nil => exact List.Subset.refl _
  | cons t rest => exact List.subset_cons_self t rest

namespace Coordinator

/-- A coordinator one of whose runs is in some state. -/
def setRun (c : Coordinator) (k : Nat) (r : Run) : Coordinator :=
  { c with runs := c.runs.set k r }

/-- A coordinator one of whose runs has taken a reply. -/
def told (c : Coordinator) (k : Nat) (r : Run) (reply : Reply) : Coordinator :=
  let phase := r.phase.next c.config reply
  let c := c.setRun k { r with phase := phase, wait := none }
  match r.phase.announcement phase with
  | some s => c.publish s
  | none => c

/-- A coordinator of which a run was started. -/
def begun (c : Coordinator) (token : CancelToken) : Coordinator :=
  { c with runs := c.runs ++ [{ token := token }], running := some c.runs.length }

section

variable (c : Coordinator) (k : Nat) (r : Run) (reply : Reply) (s : LockState)

@[simp] theorem publish_config : (c.publish s).config = c.config := by
  unfold publish
  split <;> rfl

@[simp] theorem publish_lockId : (c.publish s).lockId = c.lockId := by
  unfold publish
  split <;> rfl

@[simp] theorem publish_part : (c.publish s).part = c.part := by
  unfold publish
  split <;> rfl

@[simp] theorem publish_runs : (c.publish s).runs = c.runs := by
  unfold publish
  split <;> rfl

@[simp] theorem publish_running : (c.publish s).running = c.running := by
  unfold publish
  split <;> rfl

@[simp] theorem publish_state : (c.publish s).state = s := by
  unfold publish
  split
  · assumption
  · rfl

@[simp] theorem told_config : (c.told k r reply).config = c.config := by
  simp only [told]
  split
  · exact publish_config _ _
  · rfl

@[simp] theorem told_lockId : (c.told k r reply).lockId = c.lockId := by
  simp only [told]
  split
  · exact publish_lockId _ _
  · rfl

@[simp] theorem told_part : (c.told k r reply).part = c.part := by
  simp only [told]
  split
  · exact publish_part _ _
  · rfl

@[simp] theorem told_running : (c.told k r reply).running = c.running := by
  simp only [told]
  split
  · exact publish_running _ _
  · rfl

@[simp] theorem told_runs : (c.told k r reply).runs =
    c.runs.set k { r with phase := r.phase.next c.config reply, wait := none } := by
  simp only [told]
  split
  · exact publish_runs _ _
  · rfl

@[simp] theorem told_state : (c.told k r reply).state =
    (r.phase.announcement (r.phase.next c.config reply)).getD c.state := by
  simp only [told]
  split
  · rename_i announced
    rw [publish_state, announced, Option.getD_some]
  · rename_i silent
    rw [silent, Option.getD_none]
    rfl

end

/-- Coordinators that keep the same part under the same lock with the same timing. -/
structure Alike (c d : Coordinator) : Prop where
  lockId : c.lockId = d.lockId
  config : c.config = d.config
  part : c.part = d.part

theorem Alike.refl (c : Coordinator) : c.Alike c := ⟨rfl, rfl, rfl⟩

theorem Alike.trans {c₁ c₂ c₃ : Coordinator} (first : c₁.Alike c₂) (second : c₂.Alike c₃) :
    c₁.Alike c₃ :=
  ⟨first.lockId.trans second.lockId, first.config.trans second.config,
    first.part.trans second.part⟩

theorem setRun_alike (c : Coordinator) (k : Nat) (r : Run) : (c.setRun k r).Alike c :=
  ⟨rfl, rfl, rfl⟩

theorem told_alike (c : Coordinator) (k : Nat) (r : Run) (reply : Reply) :
    (c.told k r reply).Alike c :=
  ⟨told_lockId c k r reply, told_config c k r reply, told_part c k r reply⟩

/-- Who stops a coordinator takes its run away from it and cancels that. -/
theorem stop_cases (a : Ambient) (c : Coordinator) :
    (c.stop a).1.clock = a.clock ∧ (c.stop a).2.1 = { c with running := none } ∧
      ∀ k, (c.stop a).2.2 = some k → c.running = some k := by
  unfold stop
  cases running : c.running with
  | none => exact ⟨rfl, by simp [← running], nofun⟩
  | some i =>
      simp only
      cases c.runs[i]? with
      | none => exact ⟨rfl, rfl, nofun⟩
      | some r => exact ⟨rfl, rfl, fun _ same => same⟩

end Coordinator

namespace Plant

/-- A run of a coordinator, with the coordinator. -/
structure At (p : Plant) (i k : Nat) (c : Coordinator) (r : Run) : Prop where
  coordinator : p.coordinators[i]? = some c
  run : c.runs[k]? = some r

/-- What a run waits for after it has asked for what its phase requests. -/
inductive Asked (p : Plant) (c : Coordinator) : Phase → Wait → Prop where
  | acquire :
      Asked p c .acquiring (.locks (Turn.next p.locks.acquires).1
        (p.now + (Turn.next p.locks.acquires).1.delay.nanoseconds) none)
  | start {d : Nat} {double : Double} (lease : LeaseHandle) (token : CancelToken) :
      c.part = .double d → p.doubles[d]? = some double →
      Asked p c (.starting lease) (.part (.starting d token
        (p.now + (Turn.next double.starts).1.delay.nanoseconds) (Turn.next double.starts).1))
  | rest {phase : Phase} {period : Duration} :
      phase.request c.config = .rest period →
      Asked p c phase (.rest (p.now + period.nanoseconds))
  | renew (lease : LeaseHandle) (left : Backoff) :
      Asked p c (.renewing lease left) (.locks (Turn.next p.locks.renewals).1
        (p.now + (Turn.next p.locks.renewals).1.delay.nanoseconds)
        (some (p.now + c.config.renewTimeout.nanoseconds)))
  | stop {d : Nat} {double : Double} (lease : LeaseHandle) (ending : Singleton.Ending) :
      c.part = .double d → p.doubles[d]? = some double →
      Asked p c (.stopping lease ending) (.part (.stopping
        (p.now + (Turn.next double.stops).1.delay.nanoseconds) (Turn.next double.stops).1))
  | release (lease : LeaseHandle) (ending : Singleton.Ending) :
      Asked p c (.releasing lease ending) (.locks (Turn.next p.locks.releases).1
        (p.now + (Turn.next p.locks.releases).1.delay.nanoseconds) none)

/-- The reply to what a run has asked for, and the locks after it. -/
inductive Told (p : Plant) (c : Coordinator) (token : CancelToken) :
    Phase → Wait → Reply → Locks → Prop where
  | acquired {turn : Turn} {t : Nat} {locks : Locks} {granted : Option LeaseHandle} :
      p.due t = true →
      p.locks.acquire turn p.now c.lockId c.config.leasePeriod = .ok (locks, granted) →
      Told p c token .acquiring (.locks turn t none) (.acquired granted) locks
  | started {lease : LeaseHandle} {d t : Nat} {watched : CancelToken} {turn : Turn} :
      p.due t = true →
      Told p c token (.starting lease) (.part (.starting d watched t turn))
        (.started turn.answer.isOk) p.locks
  | elapsed {phase : Phase} {period : Duration} {t : Nat} :
      phase.request c.config = .rest period → p.due t = true →
      Told p c token phase (.rest t) .elapsed p.locks
  | cancelled {phase : Phase} {period : Duration} {t : Nat} :
      phase.request c.config = .rest period → p.ambient.isCancelled token = true →
      Told p c token phase (.rest t) .cancelled p.locks
  | renewed {lease : LeaseHandle} {left : Backoff} {turn : Turn} {t deadline : Nat} {locks : Locks}
      {good : Option Bool} :
      p.due t = true → p.locks.renew turn p.now lease = .ok (locks, good) →
      Told p c token (.renewing lease left) (.locks turn t (some deadline)) (.renewed good) locks
  | late {lease : LeaseHandle} {left : Backoff} {turn : Turn} {t deadline : Nat} :
      p.due t = false → p.due deadline = true →
      Told p c token (.renewing lease left) (.locks turn t (some deadline)) (.renewed none) p.locks
  | stopped {lease : LeaseHandle} {ending : Singleton.Ending} {t : Nat} {turn : Turn} :
      p.due t = true →
      Told p c token (.stopping lease ending) (.part (.stopping t turn)) .stopped p.locks
  | released {lease : LeaseHandle} {ending : Singleton.Ending} {turn : Turn} {t : Nat} :
      p.due t = true →
      Told p c token (.releasing lease ending) (.locks turn t none) .released
        (p.locks.release turn lease)

/-- What a run has asked for breaks off: the lease would end past the last instant. -/
inductive Broke (p : Plant) (c : Coordinator) : Phase → Wait → Overflow → Prop where
  | acquire {turn : Turn} {t : Nat} {o : Overflow} : p.due t = true →
      p.locks.acquire turn p.now c.lockId c.config.leasePeriod = .error o →
      Broke p c .acquiring (.locks turn t none) o
  | renew {lease : LeaseHandle} {left : Backoff} {turn : Turn} {t deadline : Nat}
      {o : Overflow} : p.due t = true → p.locks.renew turn p.now lease = .error o →
      Broke p c (.renewing lease left) (.locks turn t (some deadline)) o

variable {p p' : Plant} {c : Coordinator} {r : Run} {w : Wait} {reply : Reply} {i k : Nat}

theorem Asked.suits {phase : Phase} (asked : p.Asked c phase w) : Wait.Suits phase w := by
  cases asked with
  | acquire => exact .acquiring _ _
  | start lease token _ _ => exact .starting lease _ token _ _
  | renew lease left => exact .renewing lease left _ _ _
  | stop lease ending _ _ => exact .stopping lease ending _ _
  | release lease ending => exact .releasing lease ending _ _
  | rest resting =>
      cases phase with
      | holding lease => exact .holding lease _
      | pausing lease pause left => exact .pausing lease pause left _
      | polling => exact .polling _
      | _ => simp [Phase.request] at resting

theorem Asked.unfinished {phase : Phase} (asked : p.Asked c phase w) : phase ≠ .finished := by
  rintro rfl
  cases asked.suits

theorem Told.answers {phase : Phase} {token : CancelToken} {locks : Locks}
    (told : p.Told c token phase w reply locks) : (phase.request c.config).AnsweredBy reply := by
  cases told with
  | acquired => exact .acquired _
  | started => exact .started _
  | elapsed resting => exact resting ▸ .elapsed _
  | cancelled resting => exact resting ▸ .cancelled _
  | renewed => exact .renewed _ _ _
  | late => exact .renewed _ _ _
  | stopped => exact .stopped
  | released => exact .released _

theorem Asked.unbroken {phase : Phase} (asked : p.Asked c phase w) (o : Overflow) :
    w ≠ .broken o := by
  rintro rfl
  cases asked

theorem Told.unbroken {phase : Phase} {token : CancelToken} {locks : Locks} {o : Overflow}
    (told : p.Told c token phase w reply locks) : w ≠ .broken o := by
  rintro rfl
  cases told

theorem Broke.unbroken {phase : Phase} {o o' : Overflow} (broke : p.Broke c phase w o) :
    w ≠ .broken o' := by
  rintro rfl
  cases broke

theorem Broke.suits {phase : Phase} {o : Overflow} (broke : p.Broke c phase w o) :
    Wait.Suits phase (.broken o) := by
  cases broke with
  | acquire => exact .brokenAcquire _
  | renew => exact .brokenRenewal _ _ _

/-! ## What steps leave alone -/

/-- What no step of a plant of doubles and coordinators changes, plans apart: of a plan turns are
used up. -/
structure Frame (p p' : Plant) : Prop where
  clock : p'.ambient.clock = p.ambient.clock
  stations : p'.stations = p.stations
  foreground : p'.foreground = p.foreground
  background : p'.background = p.background
  doubles : ∀ {d : Nat} {double : Double}, p.doubles[d]? = some double →
    ∃ double' : Double, p'.doubles[d]? = some double' ∧
      double'.starts ⊆ double.starts ∧ double'.stops ⊆ double.stops
  acquires : p'.locks.acquires ⊆ p.locks.acquires
  renewals : p'.locks.renewals ⊆ p.locks.renewals
  releases : p'.locks.releases ⊆ p.locks.releases

theorem Frame.refl (p : Plant) : Frame p p where
  clock := rfl
  stations := rfl
  foreground := rfl
  background := rfl
  doubles found := ⟨_, found, List.Subset.refl _, List.Subset.refl _⟩
  acquires := List.Subset.refl _
  renewals := List.Subset.refl _
  releases := List.Subset.refl _

theorem Frame.trans {p₁ p₂ p₃ : Plant} (first : Frame p₁ p₂) (second : Frame p₂ p₃) :
    Frame p₁ p₃ where
  clock := second.clock.trans first.clock
  stations := second.stations.trans first.stations
  foreground := second.foreground.trans first.foreground
  background := second.background.trans first.background
  doubles found := by
    obtain ⟨double₂, found₂, starts₂, stops₂⟩ := first.doubles found
    obtain ⟨double₃, found₃, starts₃, stops₃⟩ := second.doubles found₂
    exact ⟨double₃, found₃, List.Subset.trans starts₃ starts₂, List.Subset.trans stops₃ stops₂⟩
  acquires := List.Subset.trans second.acquires first.acquires
  renewals := List.Subset.trans second.renewals first.renewals
  releases := List.Subset.trans second.releases first.releases

/-- A store that has been called. -/
theorem Frame.relock (p : Plant) {locks : Locks} {store : LeaseStore}
    (called : locks = { p.locks with store := store }) : Frame p { p with locks := locks } :=
  { Frame.refl p with
    acquires := by simp [called]
    renewals := by simp [called]
    releases := by simp [called] }

/-- What a step of a run is: it asks, or it is told, or it breaks off. -/
inductive Turned (p : Plant) (i k : Nat) : Happening → Plant → Prop where
  | asked {c : Coordinator} {r : Run} {w : Wait} {p' : Plant} :
      p.At i k c r → r.wait = none → p.Asked c r.phase w → Frame p p' →
      p'.coordinators = p.coordinators.set i (c.setRun k { r with wait := some w }) →
      p'.locks.store = p.locks.store → Turned p i k (.asked (r.phase.request c.config)) p'
  | told {c : Coordinator} {r : Run} {w : Wait} {reply : Reply} {p' : Plant} :
      p.At i k c r → r.wait = some w → p.Told c r.token r.phase w reply p'.locks → Frame p p' →
      p'.coordinators = p.coordinators.set i (c.told k r reply) → Turned p i k (.told reply) p'
  | broke {c : Coordinator} {r : Run} {w : Wait} {o : Overflow} {p' : Plant} :
      p.At i k c r → r.wait = some w → p.Broke c r.phase w o → Frame p p' →
      p'.coordinators = p.coordinators.set i (c.setRun k { r with wait := some (.broken o) }) →
      p'.locks = p.locks → Turned p i k (.broke o) p'

/-- A step of a run, and what happens in it. -/
def turn? (p : Plant) (i k : Nat) : Option (Happening × Plant) :=
  match p.coordinators[i]? with
  | none => none
  | some c =>
    match c.runs[k]? with
    | none => none
    | some r =>
      match r.wait with
      | none =>
        (p.ask c r).map fun (p, w) => (.asked (r.phase.request c.config), p.keepWait i k r w)
      | some w =>
        (p.reply? c r w).map fun
          | .ok (p, reply) => (.told reply, p.enter i k r reply)
          | .error o => (.broke o, p.keepWait i k r (.broken o))

theorem stepRun_eq (p : Plant) (i k : Nat) : p.stepRun i k = (p.turn? i k).map (·.2) := by
  unfold stepRun turn?
  cases p.coordinators[i]? with
  | none => rfl
  | some c =>
      simp only
      cases c.runs[k]? with
      | none => rfl
      | some r =>
          simp only
          cases r.wait with
          | none => simp [Option.map_map, Function.comp_def]
          | some w =>
              simp only [Option.map_map]
              congr 1
              funext answer
              cases answer <;> rfl

/-- A plant of coordinators that run doubles, and of nothing else that could move. -/
structure Manned (p : Plant) : Prop where
  stations : p.stations = []
  foreground : p.foreground = none
  background : p.background = []
  parts : ∀ {i : Nat} {c : Coordinator}, p.coordinators[i]? = some c →
    ∃ d double, c.part = .double d ∧ p.doubles[d]? = some double
  waits : ∀ {i k : Nat} {c : Coordinator} {r : Run} {w : Wait}, p.At i k c r →
    r.wait = some w → Wait.Suits r.phase w

/-- A run that waits has not ended. -/
theorem Manned.unfinished (manned : p.Manned) (here : p.At i k c r) (waiting : r.wait = some w) :
    r.phase ≠ .finished := by
  intro finished
  have suits := manned.waits here waiting
  rw [finished] at suits
  cases suits

/-! ## Asking -/

theorem beginStart_double {token : CancelToken} {d : Nat} {double : Double}
    (found : p.doubles[d]? = some double) :
    p.beginStart (.double d) token =
      (({ p with doubles := p.doubles.set d { double with starts := (Turn.next double.starts).2 } }
          : Plant).play d "start",
        .starting d token (p.now + (Turn.next double.starts).1.delay.nanoseconds)
          (Turn.next double.starts).1) := by
  simp only [beginStart, found]
  rfl

theorem beginStop_double {d : Nat} {double : Double} (found : p.doubles[d]? = some double) :
    p.beginStop (.double d) =
      (({ p with doubles := p.doubles.set d { double with stops := (Turn.next double.stops).2 } }
          : Plant).play d "stop",
        .stopping (p.now + (Turn.next double.stops).1.delay.nanoseconds)
          (Turn.next double.stops).1) := by
  simp only [beginStop, found]
  rfl

/-- A plant in which turns of a double are used up. -/
theorem Frame.spend {d : Nat} {double : Double} (double' : Double)
    (found : p.doubles[d]? = some double) (starts : double'.starts ⊆ double.starts)
    (stops : double'.stops ⊆ double.stops) :
    Frame p { p with doubles := p.doubles.set d double' } := by
  refine { Frame.refl p with doubles := ?_ }
  intro e other mem
  by_cases same : d = e
  · subst same
    obtain rfl := Option.some.inj (found.symm.trans mem)
    exact ⟨double', List.getElem?_set_self (List.getElem?_eq_some_iff.mp found).1, starts, stops⟩
  · exact ⟨other, (List.getElem?_set_ne same).trans mem, List.Subset.refl _, List.Subset.refl _⟩

/-- A run that asks touches no coordinator and not the store. -/
theorem ask_cases {p₁ : Plant} {d : Nat} {double : Double} (part : c.part = .double d)
    (found : p.doubles[d]? = some double) (ask : p.ask c r = some (p₁, w)) :
    p.Asked c r.phase w ∧ Frame p p₁ ∧ p₁.coordinators = p.coordinators ∧
      p₁.locks.store = p.locks.store := by
  unfold Plant.ask at ask
  cases phase : r.phase with
  | acquiring =>
      simp only [phase, Phase.request] at ask
      cases ask
      exact ⟨.acquire, { Frame.refl p with acquires := Turn.next_subset _ }, rfl, rfl⟩
  | starting lease =>
      simp only [phase, Phase.request, part] at ask
      have found' : (p.withAmbient (p.ambient.child r.token).1).doubles[d]? = some double := found
      rw [beginStart_double found'] at ask
      cases ask
      have spent := Frame.spend { double with starts := (Turn.next double.starts).2 } found
        (Turn.next_subset _) (List.Subset.refl _)
      exact ⟨.start lease _ part found, { spent with }, rfl, rfl⟩
  | stopping lease ending =>
      simp only [phase, Phase.request, part] at ask
      rw [beginStop_double found] at ask
      cases ask
      have spent := Frame.spend { double with stops := (Turn.next double.stops).2 } found
        (List.Subset.refl _) (Turn.next_subset _)
      exact ⟨.stop lease ending part found, { spent with }, rfl, rfl⟩
  | renewing lease left =>
      simp only [phase, Phase.request] at ask
      cases ask
      exact ⟨.renew lease left, { Frame.refl p with renewals := Turn.next_subset _ }, rfl, rfl⟩
  | releasing lease ending =>
      simp only [phase, Phase.request] at ask
      cases ask
      exact ⟨.release lease ending, { Frame.refl p with releases := Turn.next_subset _ }, rfl, rfl⟩
  | holding lease | pausing lease pause left | polling =>
      simp only [phase, Phase.request] at ask
      cases ask
      exact ⟨.rest rfl, .refl p, rfl, rfl⟩
  | finished => simp [phase, Phase.request] at ask

/-- A run that has not ended asks for something as soon as it waits for nothing. -/
theorem ask_isSome (unfinished : r.phase ≠ .finished) : (p.ask c r).isSome = true := by
  unfold Plant.ask
  cases phase : r.phase with
  | finished => exact absurd phase unfinished
  | _ => rfl

/-! ## Being told -/

/-- A run is told only what it waits for, and that touches no coordinator. -/
theorem reply?_cases {p₁ : Plant} (suits : Wait.Suits r.phase w)
    (answered : p.reply? c r w = some (.ok (p₁, reply))) :
    p.Told c r.token r.phase w reply p₁.locks ∧ Frame p p₁ ∧
      p₁.coordinators = p.coordinators := by
  obtain ⟨token, phase, wait⟩ := r
  simp only at suits ⊢
  have rested {period : Duration} {t : Nat} (resting : phase.request c.config = .rest period)
      (answered : p.reply? c ⟨token, phase, wait⟩ (.rest t) = some (.ok (p₁, reply))) :
      p.Told c token phase (.rest t) reply p₁.locks ∧ Frame p p₁ ∧
        p₁.coordinators = p.coordinators := by
    simp only [Plant.reply?] at answered
    split at answered
    · rename_i cancelled
      cases answered
      exact ⟨.cancelled resting cancelled, .refl p, rfl⟩
    · split at answered
      · rename_i due
        cases answered
        exact ⟨.elapsed resting due, .refl p, rfl⟩
      · simp at answered
  cases suits with
  | acquiring turn t =>
      simp only [Plant.reply?, callStore] at answered
      split at answered
      · rename_i due
        cases acquired : p.locks.acquire turn p.now c.lockId c.config.leasePeriod with
        | error o => simp [acquired, Except.map] at answered
        | ok answer =>
            rw [acquired] at answered
            cases answered
            exact ⟨.acquired due acquired, .relock p (p.locks.acquire_plans _ _ _ _ acquired), rfl⟩
      · simp at answered
  | starting lease d watched t turn =>
      simp only [Plant.reply?, poll, partReply] at answered
      split at answered
      · rename_i due
        cases started : turn.answer <;> simp only [started, Option.map_some] at answered
        all_goals
          cases answered
          exact ⟨started ▸ .started due, { Frame.refl p with }, rfl⟩
      · simp at answered
  | renewing lease left turn t deadline =>
      simp only [Plant.reply?, callStore] at answered
      split at answered
      · rename_i due
        cases renewed : p.locks.renew turn p.now lease with
        | error o => simp [renewed, Except.map] at answered
        | ok answer =>
            rw [renewed] at answered
            cases answered
            exact ⟨.renewed due renewed, .relock p (p.locks.renew_plans _ _ _ renewed), rfl⟩
      · rename_i early
        split at answered
        · rename_i late
          cases answered
          exact ⟨.late (by simpa using early) late, .refl p, rfl⟩
        · simp at answered
  | stopping lease ending t turn =>
      simp only [Plant.reply?, poll, partReply] at answered
      split at answered
      · rename_i due
        cases answered
        exact ⟨.stopped due, .refl p, rfl⟩
      · simp at answered
  | releasing lease ending turn t =>
      simp only [Plant.reply?, callStore] at answered
      split at answered
      · rename_i due
        cases answered
        exact ⟨.released due, .relock p (p.locks.release_plans _ _), rfl⟩
      · simp at answered
  | holding lease t => exact rested rfl answered
  | pausing lease pause left t => exact rested rfl answered
  | polling t => exact rested rfl answered
  | brokenAcquire | brokenRenewal => simp [Plant.reply?] at answered

/-- Only calls to the store for a lease break off. -/
theorem reply?_broke {o : Overflow} (suits : Wait.Suits r.phase w)
    (broken : p.reply? c r w = some (.error o)) : p.Broke c r.phase w o := by
  obtain ⟨token, phase, wait⟩ := r
  simp only at suits ⊢
  have rested {t : Nat} (broken : p.reply? c ⟨token, phase, wait⟩ (.rest t) = some (.error o)) :
      False := by
    simp only [Plant.reply?] at broken
    repeat' split at broken
    all_goals simp at broken
  cases suits with
  | acquiring turn t =>
      simp only [Plant.reply?, callStore] at broken
      split at broken
      · rename_i due
        cases acquired : p.locks.acquire turn p.now c.lockId c.config.leasePeriod with
        | error o' =>
            rw [acquired] at broken
            cases broken
            exact .acquire due acquired
        | ok answer => simp [acquired, Except.map] at broken
      · simp at broken
  | renewing lease left turn t deadline =>
      simp only [Plant.reply?, callStore] at broken
      split at broken
      · rename_i due
        cases renewed : p.locks.renew turn p.now lease with
        | error o' =>
            rw [renewed] at broken
            cases broken
            exact .renew due renewed
        | ok answer => simp [renewed, Except.map] at broken
      · split at broken <;> simp at broken
  | releasing lease ending turn t =>
      simp only [Plant.reply?, callStore] at broken
      repeat' split at broken
      all_goals simp at broken
  | starting | stopping => simp [Plant.reply?] at broken
  | holding lease t => exact (rested broken).elim
  | pausing lease pause left t => exact (rested broken).elim
  | polling t => exact (rested broken).elim
  | brokenAcquire | brokenRenewal => simp [Plant.reply?] at broken

/-- What is due is answered, or it breaks off. -/
theorem reply?_isSome (suits : Wait.Suits r.phase w) (going : ∀ o, w ≠ .broken o)
    (due : p.due w.dueAt = true) : (p.reply? c r w).isSome = true := by
  generalize r.phase = phase at suits
  have rested {t : Nat} (due : p.due t = true) : (p.reply? c r (.rest t)).isSome = true := by
    simp only [Plant.reply?, due]
    split <;> simp
  cases suits with
  | starting lease d token t turn =>
      simp only [Wait.dueAt] at due
      simp only [Plant.reply?, poll, due]
      cases turn.answer <;> simp
  | stopping lease ending t turn =>
      simp only [Wait.dueAt] at due
      simp [Plant.reply?, poll, due]
  | acquiring turn t | renewing lease left turn t deadline | releasing lease ending turn t =>
      simp only [Wait.dueAt] at due
      simp [Plant.reply?, due]
  | holding lease t | pausing lease pause left t | polling t => exact rested due
  | brokenAcquire o | brokenRenewal lease left o => exact absurd rfl (going o)

/-- A run takes note of a reply, and nothing happens to anything else. -/
theorem enter_cases (found : p.coordinators[i]? = some c) (k : Nat) (r : Run) (reply : Reply) :
    Frame p (p.enter i k r reply) ∧ (p.enter i k r reply).locks = p.locks ∧
      (p.enter i k r reply).coordinators = p.coordinators.set i (c.told k r reply) := by
  simp only [enter, found]
  split <;> exact ⟨{ Frame.refl p with }, rfl, rfl⟩

/-! ## Steps -/

/-- A step of a run is one of the steps listed. -/
theorem Manned.turned (manned : p.Manned) {e : Happening} (turn : p.turn? i k = some (e, p')) :
    p.Turned i k e p' := by
  unfold turn? at turn
  split at turn
  · simp at turn
  · rename_i c found
    split at turn
    · simp at turn
    · rename_i r run
      obtain ⟨d, double, part, doubled⟩ := manned.parts found
      have here : p.At i k c r := ⟨found, run⟩
      split at turn
      · rename_i waitless
        obtain ⟨⟨p₁, w⟩, asked, same⟩ := Option.map_eq_some_iff.mp turn
        obtain ⟨waits, frame, coordinators, store⟩ := ask_cases part doubled asked
        simp only [Prod.mk.injEq] at same
        obtain ⟨rfl, rfl⟩ := same
        have found₁ : p₁.coordinators[i]? = some c := coordinators ▸ found
        simp only [keepWait, found₁]
        exact .asked here waitless waits { frame with }
          (by simp [setCoordinator, coordinators]; rfl)
          store
      · rename_i w waiting
        have suits := manned.waits here waiting
        obtain ⟨answer, answered, same⟩ := Option.map_eq_some_iff.mp turn
        cases answer with
        | ok answer =>
            obtain ⟨p₁, reply⟩ := answer
            obtain ⟨told, frame, coordinators⟩ := reply?_cases suits answered
            simp only [Prod.mk.injEq] at same
            obtain ⟨rfl, rfl⟩ := same
            have found₁ : p₁.coordinators[i]? = some c := coordinators ▸ found
            obtain ⟨entered, locks, noted⟩ := enter_cases found₁ k r reply
            exact .told here waiting (locks ▸ told) (frame.trans entered) (coordinators ▸ noted)
        | error o =>
            simp only [Prod.mk.injEq] at same
            obtain ⟨rfl, rfl⟩ := same
            simp only [keepWait, found]
            exact .broke here waiting (reply?_broke suits answered) { Frame.refl p with } rfl rfl

/-- What a plant does in a step: a run takes a turn, or nothing happens that coordinators and locks
could tell. -/
theorem Manned.step_cases (manned : p.Manned) {t : Task} (step : p.step? t = some p') :
    (∃ i k e, t = .run i k ∧ p.turn? i k = some (e, p')) ∨
      (∀ i k, t ≠ .run i k) ∧ Frame p p' ∧ p'.coordinators = p.coordinators ∧
        p'.locks = p.locks := by
  cases t with
  | foreground => simp [step?, manned.foreground] at step
  | background b => simp [step?, manned.background] at step
  | loop i l => simp [step?, stepLoop, manned.stations] at step
  | attempt i a => simp [step?, stepAttempt, manned.stations] at step
  | run i k =>
      rw [step?, stepRun_eq] at step
      obtain ⟨⟨e, p₁⟩, turn, rfl⟩ := Option.map_eq_some_iff.mp step
      exact .inl ⟨i, k, e, rfl, turn⟩
  | watcher w =>
      refine .inr ⟨nofun, ?_⟩
      simp only [step?, stepWatcher] at step
      split at step
      · simp at step
      · split at step
        · cases step
          exact ⟨{ Frame.refl p with }, rfl, rfl⟩
        · simp at step
  | departures =>
      refine .inr ⟨nofun, ?_⟩
      simp only [step?, stepDepartures] at step
      split at step
      · simp at step
      · cases step
        exact ⟨{ Frame.refl p with }, rfl, rfl⟩

/-! ## Runs after a change of their coordinator -/

/-- The coordinators are as they were but for one. -/
theorem coordinators_of_set {c c' d' : Coordinator} (found : p.coordinators[i]? = some c)
    (changed : p'.coordinators = p.coordinators.set i c') {j : Nat}
    (found' : p'.coordinators[j]? = some d') :
    j = i ∧ d' = c' ∨ j ≠ i ∧ p.coordinators[j]? = some d' :=
  getElem?_set_cases found (changed ▸ found')

/-- A run of a coordinator one of whose runs was changed is that one, or it is as it was. -/
theorem At.of_set {c' d' : Coordinator} {r' s : Run} (here : p.At i k c r)
    (changed : p'.coordinators = p.coordinators.set i c') (runs : c'.runs = c.runs.set k r')
    (alike : c'.Alike c) {j l : Nat} (there : p'.At j l d' s) :
    (j = i ∧ l = k ∧ d' = c' ∧ s = r') ∨
      (j, l) ≠ (i, k) ∧ ∃ d, p.At j l d s ∧ d'.Alike d := by
  obtain ⟨rfl, rfl⟩ | ⟨other, found⟩ := coordinators_of_set here.coordinator changed
    there.coordinator
  · obtain ⟨rfl, rfl⟩ | ⟨other, old⟩ := getElem?_set_cases here.run (runs ▸ there.run)
    · exact .inl ⟨rfl, rfl, rfl, rfl⟩
    · exact .inr ⟨by simp [other], c, ⟨here.coordinator, old⟩, alike⟩
  · exact .inr ⟨by simp [other], d', ⟨found, there.run⟩, .refl d'⟩

/-- What becomes of a run in a step of its own. -/
inductive Moved (p : Plant) (c : Coordinator) (locks : Locks) (r : Run) : Run → Prop where
  | asked {w : Wait} :
      r.wait = none → p.Asked c r.phase w → locks.store = p.locks.store →
      Moved p c locks r { r with wait := some w }
  | told {w : Wait} {reply : Reply} :
      r.wait = some w → p.Told c r.token r.phase w reply locks →
      Moved p c locks r { r with phase := r.phase.next c.config reply, wait := none }
  | broke {w : Wait} {o : Overflow} :
      r.wait = some w → p.Broke c r.phase w o → locks = p.locks →
      Moved p c locks r { r with wait := some (.broken o) }

/-- After a step of a run all other runs are as they were. -/
theorem Turned.run {e : Happening} (turned : p.Turned i k e p') {j l : Nat} {c' : Coordinator}
    {r' : Run} (there : p'.At j l c' r') :
    (j = i ∧ l = k ∧ ∃ c r, p.At i k c r ∧ c'.Alike c ∧ p.Moved c p'.locks r r') ∨
      (j, l) ≠ (i, k) ∧ ∃ c, p.At j l c r' ∧ c'.Alike c := by
  cases turned with
  | asked here waitless asked _ changed store =>
      have alike := Coordinator.setRun_alike
      obtain ⟨rfl, rfl, rfl, rfl⟩ | other := here.of_set changed rfl (alike _ _ _) there
      · exact .inl ⟨rfl, rfl, _, _, here, alike _ _ _, .asked waitless asked store⟩
      · exact .inr other
  | told here waiting told _ changed =>
      have alike := Coordinator.told_alike
      obtain ⟨rfl, rfl, rfl, rfl⟩ | other :=
        here.of_set changed (Coordinator.told_runs _ _ _ _) (alike _ _ _ _) there
      · exact .inl ⟨rfl, rfl, _, _, here, alike _ _ _ _, .told waiting told⟩
      · exact .inr other
  | broke here waiting broke _ changed locks =>
      have alike := Coordinator.setRun_alike
      obtain ⟨rfl, rfl, rfl, rfl⟩ | other := here.of_set changed rfl (alike _ _ _) there
      · exact .inl ⟨rfl, rfl, _, _, here, alike _ _ _, .broke waiting broke locks⟩
      · exact .inr other

end Plant

end Courier
