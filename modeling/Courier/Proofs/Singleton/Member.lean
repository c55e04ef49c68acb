import Courier.Proofs.Singleton.Fleet
import Courier.Proofs.Singleton.Rounds

/-!
# A member of a fleet

What one member does, whatever the others and the locks do: its runs go through rounds one after the
other, as long as it is not started while a stop of it is in progress. So the state it shows is that
of its latest run, and when a stop has returned that waited for this run to end, every round is
complete. A stop does not wait where another one is in progress, and a run whose call to the store
broke off does not end.
-/

namespace Courier

open Courier.Singleton (Phase Request Reply LockState Happening Progress Round Brackets milestones
  round acquiredLeases releasedLeases)

namespace Coordinator

/-- The latest run, or one that has ended if there is none. -/
def latest (c : Coordinator) : Run :=
  c.runs.getLast?.getD { token := ⟨[]⟩, phase := .finished }

/-- The runs of a coordinator have been one after the other, and went through rounds. -/
structure Rounded (c : Coordinator) (passed : List Happening) : Prop where
  past : ∀ {k : Nat} {r : Run}, c.runs[k]? = some r → k + 1 < c.runs.length → r.phase = .finished
  running : ∀ {k : Nat}, c.running = some k → k + 1 = c.runs.length
  progress : ∃ complete current,
    Progress c.latest.phase c.latest.wait.isSome c.state passed complete current

variable {c c' : Coordinator} {k : Nat} {r : Run} {passed : List Happening}

theorem latest_eq (run : c.runs[k]? = some r) (last : k + 1 = c.runs.length) : c.latest = r := by
  have index : c.runs.length - 1 = k := by omega
  rw [latest, List.getLast?_eq_getElem?, index, run]
  rfl

theorem latest_finished (ended : ∀ r ∈ c.runs, r.phase = .finished) :
    c.latest.phase = .finished := by
  unfold latest
  cases last : c.runs.getLast? with
  | none => rfl
  | some r => exact ended r (List.mem_of_getLast? last)

namespace Rounded

/-- Only the latest run has not ended. -/
theorem last (rounded : c.Rounded passed) (run : c.runs[k]? = some r)
    (unfinished : r.phase ≠ .finished) : k + 1 = c.runs.length := by
  have within := (List.getElem?_eq_some_iff.mp run).1
  refine Nat.le_antisymm within (Nat.le_of_not_lt fun more => ?_)
  exact unfinished (rounded.past run more)

theorem progress_at (rounded : c.Rounded passed) (run : c.runs[k]? = some r)
    (unfinished : r.phase ≠ .finished) :
    ∃ complete current, Progress r.phase r.wait.isSome c.state passed complete current := by
  rw [← latest_eq run (rounded.last run unfinished)]
  exact rounded.progress

/-- A coordinator whose latest run has changed. -/
theorem set (rounded : c.Rounded passed) {passed' : List Happening} {r' : Run}
    (run : c.runs[k]? = some r) (last : k + 1 = c.runs.length)
    (runs : c'.runs = c.runs.set k r') (running : c'.running = c.running)
    (progress : ∃ complete current,
      Progress r'.phase r'.wait.isSome c'.state passed' complete current) :
    c'.Rounded passed' := by
  have length : c'.runs.length = c.runs.length := by rw [runs, List.length_set]
  refine ⟨?_, ?_, ?_⟩
  · intro l s there more
    rw [runs] at there
    obtain ⟨rfl, _⟩ | ⟨_, old⟩ := getElem?_set_cases run there
    · omega
    · exact rounded.past old (length ▸ more)
  · intro l going
    rw [length]
    exact rounded.running (running ▸ going)
  · have run' : c'.runs[k]? = some r' := by
      rw [runs]
      exact List.getElem?_set_self (List.getElem?_eq_some_iff.mp run).1
    rw [latest_eq run' (length.symm ▸ last)]
    exact progress

end Rounded

end Coordinator

namespace Fleet

/-- Whether a run of a member was stopped and has not come to its end. One that broke off never
does. -/
def isStopping (m : Nat) (p : Plant) : Bool :=
  match p.coordinators[m]? with
  | none => false
  | some c => c.running.isNone && c.runs.any fun r => r.phase != .finished

/-- Deeds that start a member only when no stop of it is in progress. -/
def InTurn (m : Nat) (p : Plant) : List Deed → Prop
  | [] => True
  | .start i parent :: rest =>
    (i = m → isStopping m p = false) ∧ InTurn m (act p (.start i parent)) rest
  | d :: rest => InTurn m (act p d) rest

instance decidableInTurn (m : Nat) (p : Plant) : (deeds : List Deed) → Decidable (InTurn m p deeds)
  | [] => isTrue trivial
  | .start i parent :: rest =>
    @instDecidableAnd _ _ inferInstance (decidableInTurn m (act p (.start i parent)) rest)
  | .step task :: rest => decidableInTurn m (act p (.step task)) rest
  | .stop i :: rest => decidableInTurn m (act p (.stop i)) rest
  | .cancel token :: rest => decidableInTurn m (act p (.cancel token)) rest
  | .store act' :: rest => decidableInTurn m (act p (.store act')) rest
  | .tamper locks :: rest => decidableInTurn m (act p (.tamper locks)) rest
  | .pass time :: rest => decidableInTurn m (act p (.pass time)) rest

variable {p : Plant} {d : Deed} {m : Nat} {c c' : Coordinator} {locks : Locks}
  {h e : List Happening}

theorem finished_of_not_stopping (found : p.coordinators[m]? = some c) (stopped : c.running = none)
    (idle : isStopping m p = false) : ∀ r ∈ c.runs, r.phase = .finished := by
  intro r mem
  simp only [isStopping, found, stopped, Option.isNone_none, Bool.true_and,
    List.any_eq_false] at idle
  simpa using idle r mem

/-- A deed leaves the member in its rounds. -/
theorem Evolves.rounded (evolves : Evolves p locks m c d c' e) (manned : p.Manned)
    (found : p.coordinators[m]? = some c) (rounded : c.Rounded (milestones h))
    (inTurn : ∀ parent, d = .start m parent → isStopping m p = false) :
    c'.Rounded (milestones (h ++ e)) := by
  rw [Singleton.milestones_append]
  cases evolves with
  | same => simpa [milestones] using rounded
  | asked here waitless asked =>
      have last := rounded.last here.run asked.unfinished
      obtain ⟨complete, current, progress⟩ := rounded.progress_at here.run asked.unfinished
      rw [waitless] at progress
      refine rounded.set here.run last rfl rfl ⟨complete, current, ?_⟩
      exact progress.ask asked.unfinished
  | told here waiting told =>
      have unfinished := manned.unfinished here waiting
      have last := rounded.last here.run unfinished
      obtain ⟨complete, current, progress⟩ := rounded.progress_at here.run unfinished
      rw [waiting] at progress
      refine rounded.set here.run last (Coordinator.told_runs _ _ _ _)
        (Coordinator.told_running _ _ _ _) ?_
      rw [Coordinator.told_state]
      exact progress.tell (Phase.next_moves told.answers)
  | @broke _ _ _ o here waiting =>
      have unfinished := manned.unfinished here waiting
      have last := rounded.last here.run unfinished
      obtain ⟨complete, current, progress⟩ := rounded.progress_at here.run unfinished
      rw [waiting] at progress
      have silent : milestones [.broke o] = [] := rfl
      rw [silent, List.append_nil]
      exact rounded.set here.run last rfl rfl ⟨complete, current, progress⟩
  | begun parent token stopped =>
      have ended := finished_of_not_stopping found stopped (inTurn parent rfl)
      have news : (c.begun token).latest = { token := token } := by
        simp [Coordinator.latest, Coordinator.begun]
      obtain ⟨complete, current, progress⟩ := rounded.progress
      rw [Coordinator.latest_finished ended] at progress
      refine ⟨?_, ?_, complete, current, ?_⟩
      · intro k r run more
        obtain old | ⟨rfl, _⟩ := getElem?_concat_cases run
        · exact ended r (List.mem_of_getElem? old)
        · simp [Coordinator.begun] at more
      · intro k going
        obtain rfl := Option.some.inj going
        simp [Coordinator.begun]
      · rw [news]
        simpa [milestones, Coordinator.begun] using progress.again
  | ended =>
      refine ⟨rounded.past, ?_, ?_⟩
      · intro k going
        cases going
      · exact (List.append_nil (milestones h)).symm ▸ rounded.progress

theorem inTurn_cons {rest : List Deed} (inTurn : InTurn m p (d :: rest)) :
    (∀ parent, d = .start m parent → isStopping m p = false) ∧ InTurn m (act p d) rest := by
  cases d with
  | start i parent => exact ⟨fun _ same => inTurn.1 (Deed.start.inj same).1, inTurn.2⟩
  | _ => exact ⟨nofun, inTurn⟩

/-- A member stays in its rounds. -/
theorem run_rounded (manned : p.Manned) (found : p.coordinators[m]? = some c)
    (rounded : c.Rounded (milestones h)) {deeds : List Deed} (inTurn : InTurn m p deeds) :
    ∃ c', (run p deeds).coordinators[m]? = some c' ∧
      c'.Rounded (milestones (h ++ history m p deeds)) := by
  induction deeds generalizing p c h with
  | nil => exact ⟨c, found, by simpa [history] using rounded⟩
  | cons d rest ih =>
      obtain ⟨starts, later⟩ := inTurn_cons inTurn
      obtain ⟨c₁, found₁, evolves⟩ := (act_change manned d).evolves found
      have rounded₁ := evolves.rounded manned found rounded starts
      obtain ⟨c', found', rounded'⟩ := ih (act_manned manned d) found₁ rounded₁ later
      exact ⟨c', found', by simpa [history] using rounded'⟩

theorem begin_rounded {clock : Clock} {locks : Locks} {members : List Relay.Member}
    (found : (begin clock locks members).coordinators[m]? = some c) :
    c.Rounded (milestones []) := by
  obtain ⟨member, _, rfl⟩ := begin_coordinator found
  exact ⟨nofun, nofun, [], none, Progress.begin⟩

/-- A deed does not change the lease that is shown, unless it is to show something else. -/
theorem Evolves.locked_eq (evolves : Evolves p locks m c d c' e) (manned : p.Manned)
    (rounded : c.Rounded (milestones h)) {serial serial' : Nat}
    (before : c.state = .locked serial) (after : c'.state = .locked serial') :
    serial = serial' := by
  have same (state : c'.state = c.state) : serial = serial' := by
    rw [← state, after, LockState.locked.injEq] at before
    exact before.symm
  cases evolves with
  | told here waiting told =>
      have unfinished := manned.unfinished here waiting
      obtain ⟨complete, current, progress⟩ := rounded.progress_at here.run unfinished
      rw [waiting] at progress
      rw [Coordinator.told_state] at after
      exact progress.tell_locked (Phase.next_moves told.answers) before after
  | same | asked | broke | begun | ended => exact same rfl

/-! ## After a stop -/

/-- How a coordinator goes on until it is started again: no run is added, and those that have ended
stay as they are. -/
structure Lingers (c c' : Coordinator) : Prop where
  length : c'.runs.length = c.runs.length
  ended : ∀ {k : Nat} {r : Run}, c.runs[k]? = some r → r.phase = .finished → c'.runs[k]? = some r

theorem Lingers.refl (c : Coordinator) : Lingers c c := ⟨rfl, fun run _ => run⟩

theorem Lingers.trans {c₁ c₂ c₃ : Coordinator} (first : Lingers c₁ c₂) (second : Lingers c₂ c₃) :
    Lingers c₁ c₃ :=
  ⟨second.length.trans first.length, fun run ended => second.ended (first.ended run ended) ended⟩

theorem Lingers.set {k : Nat} {r r' : Run} (run : c.runs[k]? = some r)
    (unfinished : r.phase ≠ .finished) (runs : c'.runs = c.runs.set k r') : Lingers c c' := by
  refine ⟨by rw [runs, List.length_set], ?_⟩
  intro l s there ended
  have other : k ≠ l := by
    rintro rfl
    exact unfinished (Option.some.inj (run.symm.trans there) ▸ ended)
  rw [runs, List.getElem?_set_ne other]
  exact there

theorem Evolves.lingers (evolves : Evolves p locks m c d c' e) (manned : p.Manned)
    (unstarted : ∀ parent, d ≠ .start m parent) : Lingers c c' := by
  cases evolves with
  | same => exact .refl c
  | asked here waitless asked => exact .set here.run asked.unfinished rfl
  | told here waiting told =>
      exact .set here.run (manned.unfinished here waiting) (Coordinator.told_runs _ _ _ _)
  | broke here waiting => exact .set here.run (manned.unfinished here waiting) rfl
  | begun parent => exact absurd rfl (unstarted parent)
  | ended => exact ⟨rfl, fun run _ => run⟩

theorem run_lingers (manned : p.Manned) (found : p.coordinators[m]? = some c) {deeds : List Deed}
    (unstarted : ∀ d ∈ deeds, ∀ parent, d ≠ .start m parent) :
    ∃ c', (run p deeds).coordinators[m]? = some c' ∧ Lingers c c' := by
  induction deeds generalizing p c with
  | nil => exact ⟨c, found, .refl c⟩
  | cons d rest ih =>
      obtain ⟨c₁, found₁, evolves⟩ := (act_change manned d).evolves found
      have lingers₁ := evolves.lingers manned (unstarted d List.mem_cons_self)
      obtain ⟨c', found', lingers⟩ := ih (act_manned manned d) found₁
        fun d mem => unstarted d (List.mem_cons_of_mem _ mem)
      exact ⟨c', found', lingers₁.trans lingers⟩

theorem inTurn_of_unstarted {deeds : List Deed}
    (unstarted : ∀ d ∈ deeds, ∀ parent, d ≠ .start m parent) : InTurn m p deeds := by
  induction deeds generalizing p with
  | nil => trivial
  | cons d rest ih =>
      have later : InTurn m (act p d) rest :=
        ih fun d mem => unstarted d (List.mem_cons_of_mem _ mem)
      cases d with
      | start i parent =>
          refine ⟨fun same => ?_, later⟩
          subst same
          exact absurd rfl (unstarted _ List.mem_cons_self parent)
      | _ => exact later

/-- A stop does not wait where another one is in progress. -/
theorem beginStop_of_stopping (stopping : isStopping m p = true) :
    (p.beginStop (.coordinator m)).2 = .answered (.ok ()) := by
  unfold isStopping at stopping
  split at stopping
  · simp at stopping
  · rename_i c found
    have stopped : c.running = none := by simpa using (Bool.and_eq_true_iff.mp stopping).1
    simp only [Plant.beginStop, found, Coordinator.stop, stopped]

/-- When a stop has returned that no other stop overlaps, the latest run has ended, or else it broke
off and the answer says so. -/
theorem latest_of_stopped (manned : p.Manned) (found : p.coordinators[m]? = some c)
    (rounded : c.Rounded (milestones h)) (alone : isStopping m p = false) {deeds : List Deed}
    (unstarted : ∀ d ∈ deeds, ∀ parent, d ≠ .start m parent) {answer : Except Cause Unit}
    (returned : ((run p deeds).poll (p.beginStop (.coordinator m)).2).map (·.2) = some answer) :
    ∃ c', (run p deeds).coordinators[m]? = some c' ∧
      (answer = .ok () ∧ c'.latest.phase = .finished ∨
        answer ≠ .ok () ∧ c'.latest.overflow?.isSome = true) := by
  obtain ⟨c', found', lingers⟩ := run_lingers manned found unstarted
  refine ⟨c', found', ?_⟩
  simp only [Plant.beginStop, found, Coordinator.stop] at returned
  cases running : c.running with
  | none =>
      simp only [running, Plant.poll, Option.map_some, Option.some.injEq] at returned
      have ended := finished_of_not_stopping found running alone
      refine .inl ⟨returned.symm, Coordinator.latest_finished fun r mem => ?_⟩
      obtain ⟨k, run⟩ := List.getElem?_of_mem mem
      have within : k < c.runs.length := by
        rw [← lingers.length]
        exact (List.getElem?_eq_some_iff.mp run).1
      have before : c.runs[k]? = some c.runs[k] := List.getElem?_eq_getElem within
      have kept := lingers.ended before (ended _ (List.getElem_mem within))
      obtain rfl := Option.some.inj (run.symm.trans kept)
      exact ended _ (List.getElem_mem within)
  | some k =>
      have last := rounded.running running
      have within : k < c'.runs.length := by
        rw [lingers.length]
        omega
      have run := List.getElem?_eq_getElem (by omega : k < c.runs.length)
      have run' := List.getElem?_eq_getElem within
      simp only [running, run, Plant.poll, found', run'] at returned
      rw [Coordinator.latest_eq run' (lingers.length ▸ last)]
      cases broken : c'.runs[k].overflow? with
      | some o =>
          simp only [broken, Option.map_some, Option.some.injEq] at returned
          exact .inr ⟨by simp [← returned], rfl⟩
      | none =>
          simp only [broken, Run.isOver, Option.isSome_none, Bool.or_false] at returned
          split at returned
          · rename_i ended
            exact .inl ⟨(Option.some.inj returned).symm, by simpa using ended⟩
          · simp at returned

/-! ## What a member does -/

/-- Whatever the locks and the component do, a member that is started only when every run before has
come to its end brackets its leases. What it shows as locked is the lease of a start that succeeded
and whose release has not returned, and it never shows one lease right after another. A stop does
not wait where another one is in progress. When any other has returned, the member shows that it is
unlocked, and no lease is left in its hands, unless its run broke off; then the stop fails. -/
theorem member_brackets_leases (clock : Clock) (locks : Locks) (members : List Relay.Member)
    (m : Nat) (deeds : List Deed) (inTurn : InTurn m (begin clock locks members) deeds)
    (c : Coordinator) (found : (run (begin clock locks members) deeds).coordinators[m]? = some c) :
    let p := run (begin clock locks members) deeds
    let passed := milestones (history m (begin clock locks members) deeds)
    Brackets passed ∧
    (∀ serial, c.state = .locked serial → ∃ (complete : List Round) (lease : LeaseHandle) (n : Nat),
      passed = complete.flatMap round ++ (round (some (lease, true))).take n ∧
        lease.serial = serial ∧ 4 ≤ n ∧ n < 8) ∧
    (∀ d c' serial serial', (act p d).coordinators[m]? = some c' → c.state = .locked serial →
      c'.state = .locked serial' → serial = serial') ∧
    (isStopping m p = true → (p.beginStop (.coordinator m)).2 = .answered (.ok ())) ∧
    ∀ after answer, isStopping m p = false → (∀ d ∈ after, ∀ parent, d ≠ .start m parent) →
      ((run p (.stop m :: after)).poll (p.beginStop (.coordinator m)).2).map (·.2) = some answer →
      ∃ c' : Coordinator, (run p (.stop m :: after)).coordinators[m]? = some c' ∧
        ((answer = .ok () ∧ c'.state = .unlocked ∧ ∃ complete : List Round,
          let passed :=
            milestones (history m (begin clock locks members) (deeds ++ .stop m :: after))
          passed = complete.flatMap round ∧ acquiredLeases passed = releasedLeases passed) ∨
        answer ≠ .ok () ∧ c'.latest.overflow?.isSome = true) := by
  intro p passed
  have manned := begin_manned clock locks members
  have manned' : p.Manned := run_manned manned deeds
  obtain ⟨c₀, found₀, _⟩ := run_found manned found
  obtain ⟨c', found', rounded⟩ := run_rounded manned found₀ (begin_rounded found₀) inTurn
  obtain rfl := Option.some.inj (found.symm.trans found')
  rw [List.nil_append] at rounded
  obtain ⟨complete, current, progress⟩ := rounded.progress
  refine ⟨progress.brackets, ?_, ?_, beginStop_of_stopping, ?_⟩
  · intro serial locked
    obtain ⟨lease, rfl, own, four⟩ := progress.locked serial locked
    exact ⟨complete, lease, _, progress.passed, own, four, Phase.stage_lt _ _⟩
  · intro d c' serial serial' found' before after
    obtain ⟨c'', found'', evolves⟩ := (act_change manned' d).evolves found
    obtain rfl := Option.some.inj (found'.symm.trans found'')
    exact evolves.locked_eq manned' rounded before after
  · intro after answer alone unstarted returned
    have unstarted' : ∀ d ∈ .stop m :: after, ∀ parent, d ≠ .start m parent := by
      intro d mem
      obtain rfl | mem := List.mem_cons.mp mem
      · exact nofun
      · exact unstarted d mem
    obtain ⟨c', found', ⟨good, ended⟩ | broken⟩ :=
      latest_of_stopped manned' found rounded alone unstarted' returned
    · obtain ⟨c'', found'', rounded'⟩ :=
        run_rounded manned' found rounded (inTurn_of_unstarted unstarted')
      obtain rfl := Option.some.inj (found'.symm.trans found'')
      obtain ⟨complete', current', progress'⟩ := rounded'.progress
      rw [ended] at progress'
      obtain ⟨state, passed'⟩ := progress'.finished
      rw [← history_append] at passed'
      exact ⟨c', found',
        .inl ⟨good, state, complete', passed', passed' ▸ Singleton.acquired_rounds complete'⟩⟩
    · exact ⟨c', found', .inr broken⟩

/-- A member whose double does not start at first. -/
def lateStarter : Relay.Member where
  double :=
    { name := "digest", lockId := "digest", starts := [{ fault := some (.ofText "not ready") }] }
  config :=
    { leasePeriod := .ofNanoseconds 100
      renewInterval := .ofNanoseconds 60
      pollInterval := .ofNanoseconds 40 }

/-- The first start fails; the second lease is lost at its first renewal. -/
def strugglesOn : List Deed :=
  [.start 0 ⟨[1]⟩] ++ steps 0 0 9 ++ [.pass 40] ++ steps 0 0 6 ++ [.pass 100] ++ steps 0 0 7

theorem member_brackets_leases_struggling :
    let locks : Locks := { renewals := [{ lost := true }] }
    let fleet := begin { resolution := 1 } locks [lateStarter]
    let passed := milestones (history 0 fleet strugglesOn)
    passed = round (some (⟨"digest", 1⟩, false)) ++ round (some (⟨"digest", 2⟩, true)) ∧
      Brackets passed := by
  refine ⟨by decide +kernel, ?_⟩
  exact (member_brackets_leases { resolution := 1 } { renewals := [{ lost := true }] }
    [lateStarter] 0 strugglesOn (by decide +kernel) _ (Option.some_get (by decide +kernel)).symm).1

/-- A member whose double takes its time to stop. -/
def slowStopper : Relay.Member where
  double := { name := "digest", lockId := "digest", stops := [{ delay := .ofNanoseconds 50 }] }
  config := lateStarter.config

/-- It gets the lock, is stopped, and has begun to stop its double. -/
def windsUp : List Deed := [.start 0 ⟨[1]⟩] ++ steps 0 0 5 ++ [.stop 0] ++ steps 0 0 3

/-- A second stop returns while the member is shown as locked and has its lease. -/
theorem second_stop_returns_early :
    let fleet := begin { resolution := 1 } {} [slowStopper]
    let p := run fleet windsUp
    let passed := milestones (history 0 fleet (windsUp ++ [.stop 0]))
    InTurn 0 fleet windsUp ∧ (p.beginStop (.coordinator 0)).2 = .answered (.ok ()) ∧
      (run p [.stop 0]).coordinators.map (·.state) = [.locked 1] ∧
      acquiredLeases passed = [⟨"digest", 1⟩] ∧ releasedLeases passed = [] :=
  ⟨by decide +kernel, beginStop_of_stopping (by decide +kernel), by decide +kernel⟩

/-- A member finds the store out of order, and then its lease would be too long: it polls for
good, and to stop it fails. -/
example :
    let member := { slowStopper with
      config := { lateStarter.config with leasePeriod := .ofNanoseconds Duration.limit } }
    let fleet := begin { resolution := 1 }
      { acquires := [{ fault := some (.ofText "not now") }] } [member]
    let p := run fleet ([.start 0 ⟨[1]⟩] ++ steps 0 0 3 ++ [.pass 40] ++ steps 0 0 3)
    let p' := run p [.stop 0]
    p'.coordinators.map (·.state) = [.polling] ∧
      (p'.poll (p.beginStop (.coordinator 0)).2).map (·.2.isOk) = some false := by
  decide +kernel

end Fleet

end Courier
