import Courier.Proofs.Singleton.Moves

/-!
# Rounds of the machine

The machine goes round: it tries to acquire a lease and, where it got one, starts its component,
stops it, and gives the lease back before it tries again. `Progress` relates the phase of the
machine to what it has asked for and been told: rounds that are complete, and the beginning of one
more. It also says what may be shown meanwhile: a lease only between the successful start under it
and the end of its release.

Rests and renewals come and go within a round and are left out; what remains are the milestones.
-/

namespace Courier

namespace Singleton

/-- Whether something is a milestone of a round. -/
def Happening.isMilestone : Happening → Bool
  | .asked .acquire => true
  | .asked .start => true
  | .asked .stop => true
  | .asked (.release _) => true
  | .told (.acquired _) => true
  | .told (.started _) => true
  | .told .stopped => true
  | .told .released => true
  | _ => false

def milestones (history : List Happening) : List Happening := history.filter (·.isMilestone)

/-- A round is for a lease if there is one to be had, and then the component starts or fails to. -/
abbrev Round := Option (LeaseHandle × Bool)

/-- The milestones of a round. -/
def round : Round → List Happening
  | none => [.asked .acquire, .told (.acquired none)]
  | some (lease, running) =>
    [.asked .acquire, .told (.acquired (some lease)), .asked .start, .told (.started running),
      .asked .stop, .told .stopped, .asked (.release lease), .told .released]

/-- How many milestones of its round have been passed in a phase, in which the request of the phase
has been made or not. -/
def Phase.stage (asked : Bool) : Phase → Nat
  | .acquiring => asked.toNat
  | .starting _ => 2 + asked.toNat
  | .holding _ => 4
  | .renewing _ _ => 4
  | .pausing _ _ _ => 4
  | .stopping _ _ => 4 + asked.toNat
  | .releasing _ _ => 6 + asked.toNat
  | .polling => 0
  | .finished => 0

/-- Whether the component has started and has not been asked to stop. -/
def Phase.isUp : Phase → Bool
  | .holding _ => true
  | .renewing _ _ => true
  | .pausing _ _ _ => true
  | _ => false

/-- How far the machine has come: some rounds are complete, and one more has begun. -/
structure Progress (phase : Phase) (asked : Bool) (shown : LockState) (passed : List Happening)
    (complete : List Round) (current : Round) :
    Prop where
  passed : passed = complete.flatMap round ++ (round current).take (phase.stage asked)
  lease : ∀ lease, phase.lease? = some lease → ∃ running, current = some (lease, running)
  running : phase.isUp = true → ∃ lease, current = some (lease, true)
  locked : ∀ serial, shown = .locked serial → ∃ lease, current = some (lease, true) ∧
    lease.serial = serial ∧ 4 ≤ phase.stage asked
  unlocked : phase = .finished → shown = .unlocked

variable {config : SingletonConfig} {phase phase' : Phase} {asked : Bool} {shown : LockState}
  {passed : List Happening} {reply : Reply} {announced : Option LockState}
  {complete : List Round} {current : Round}

@[simp] theorem milestones_append (h h' : List Happening) :
    milestones (h ++ h') = milestones h ++ milestones h' := List.filter_append _ _

namespace Progress

/-- Nothing has happened yet. -/
theorem begin : Progress .finished false .unlocked [] [] none where
  passed := rfl
  lease _ held := by simp [Phase.lease?] at held
  running up := by simp [Phase.isUp] at up
  locked _ locked := by simp at locked
  unlocked _ := rfl

/-- A machine that has come to its end has shown so, and all its rounds are complete. -/
theorem finished (progress : Progress .finished asked shown passed complete current) :
    shown = .unlocked ∧ passed = complete.flatMap round :=
  ⟨progress.unlocked rfl, by simpa [Phase.stage] using progress.passed⟩

/-- Another machine takes up where one has come to its end. -/
theorem again (progress : Progress .finished asked shown passed complete current) :
    Progress .acquiring false shown passed complete current where
  passed := progress.passed
  lease _ held := by simp [Phase.lease?] at held
  running up := by simp [Phase.isUp] at up
  locked serial locked := by simp [progress.unlocked rfl] at locked
  unlocked same := by simp at same

/-- A milestone is passed in a round. -/
theorem passed_next {n n' : Nat} {happening : Happening}
    {current' : Round}
    (before : passed = complete.flatMap round ++ (round current).take n)
    (next : (round current).take n ++ milestones [happening] = (round current').take n') :
    passed ++ milestones [happening] = complete.flatMap round ++ (round current').take n' := by
  rw [before, List.append_assoc, next]

/-- A round is completed. -/
theorem passed_last {n : Nat} {happening : Happening} {last : Round}
    (before : passed = complete.flatMap round ++ (round current).take n)
    (next : (round current).take n ++ milestones [happening] = round last) :
    passed ++ milestones [happening] =
      (complete ++ [last]).flatMap round ++ (round none).take 0 := by
  rw [before, List.append_assoc, next]
  simp

/-- The machine asks for what its phase requests. -/
theorem ask (progress : Progress phase false shown passed complete current)
    (unfinished : phase ≠ .finished) :
    Progress phase true shown (passed ++ milestones [.asked (phase.request config)]) complete
      current where
  passed := by
    refine passed_next progress.passed ?_
    cases phase with
    | acquiring => cases current <;> rfl
    | starting lease | stopping lease ending | releasing lease ending =>
        obtain ⟨running, rfl⟩ := progress.lease lease rfl
        rfl
    | holding lease | renewing lease left | pausing lease pause left =>
        obtain ⟨running, rfl⟩ := progress.lease lease rfl
        rfl
    | polling => rfl
    | finished => exact absurd rfl unfinished
  lease := progress.lease
  running := progress.running
  locked serial locked := by
    obtain ⟨lease, same, own, four⟩ := progress.locked serial locked
    refine ⟨lease, same, own, Nat.le_trans four ?_⟩
    cases phase <;> simp [Phase.stage]
  unlocked := progress.unlocked

/-- Rests and renewals pass no milestone. -/
theorem keep (progress : Progress phase true shown passed complete current)
    (silent : milestones [.told reply] = []) (up : phase.isUp = true)
    (stage : phase'.stage false = 4) (lease : phase'.lease? = phase.lease?)
    (unfinished : phase' ≠ .finished) :
    Progress phase' false shown (passed ++ milestones [.told reply]) complete current where
  passed := by
    have before : phase.stage true = 4 := by cases phase <;> simp_all [Phase.isUp, Phase.stage]
    rw [silent, List.append_nil, stage, progress.passed, before]
  lease := lease ▸ progress.lease
  running _ := progress.running up
  locked serial locked := by
    obtain ⟨lease, same, own, _⟩ := progress.locked serial locked
    exact ⟨lease, same, own, Nat.le_of_eq stage.symm⟩
  unlocked finished := absurd finished unfinished

/-- What is shown in a phase that comes before the start of the component is not a lease. -/
theorem not_locked (progress : Progress phase asked shown passed complete current)
    (early : phase.stage asked < 4) {serial : Nat} : shown ≠ .locked serial := by
  intro locked
  obtain ⟨_, _, _, late⟩ := progress.locked serial locked
  omega

/-- The machine is told what it asked for. -/
theorem tell (progress : Progress phase true shown passed complete current)
    (moves : phase.Moves config reply phase' announced) :
    ∃ complete' current', Progress phase' false (announced.getD shown)
      (passed ++ milestones [.told reply]) complete' current' := by
  cases moves with
  | acquired lease =>
      refine ⟨complete, some (lease, true), passed_next progress.passed ?_, ?_, nofun, ?_, nofun⟩
      · cases current <;> rfl
      · intro lease' held
        exact ⟨true, by rw [Option.some.inj held]⟩
      · intro serial locked
        exact absurd locked (progress.not_locked (by decide))
  | refused =>
      refine ⟨complete ++ [none], none, passed_last progress.passed ?_, nofun, nofun, nofun, nofun⟩
      cases current <;> rfl
  | started lease =>
      refine ⟨complete, some (lease, true), passed_next progress.passed ?_, ?_, ?_, ?_, nofun⟩
      · obtain ⟨running, rfl⟩ := progress.lease lease rfl
        rfl
      · intro lease' held
        exact ⟨true, by rw [Option.some.inj held]⟩
      · exact fun _ => ⟨lease, rfl⟩
      · intro serial locked
        exact ⟨lease, rfl, by simpa using locked, Nat.le_refl 4⟩
  | failed lease =>
      refine ⟨complete, some (lease, false), passed_next progress.passed ?_, ?_, nofun, ?_, nofun⟩
      · obtain ⟨running, rfl⟩ := progress.lease lease rfl
        rfl
      · intro lease' held
        exact ⟨false, by rw [Option.some.inj held]⟩
      · intro serial locked
        exact absurd locked (progress.not_locked (by simp [Phase.stage]))
  | held lease | letGo lease | renewed lease left | lost lease left | retried lease pause left
  | brokenOff lease pause left =>
      exact ⟨complete, current, progress.keep rfl rfl rfl rfl nofun⟩
  | paused lease next => exact ⟨complete, current, progress.keep rfl rfl rfl rfl nofun⟩
  | exhausted lease next => exact ⟨complete, current, progress.keep rfl rfl rfl rfl nofun⟩
  | stopped lease ending =>
      refine ⟨complete, current, passed_next progress.passed ?_, progress.lease, nofun, ?_, nofun⟩
      · obtain ⟨running, rfl⟩ := progress.lease lease rfl
        rfl
      · intro serial locked
        obtain ⟨lease', same, own, _⟩ := progress.locked serial locked
        exact ⟨lease', same, own, by simp [Phase.stage]⟩
  | released lease =>
      refine ⟨complete ++ [current], none, passed_last progress.passed ?_, nofun, nofun, nofun,
        nofun⟩
      obtain ⟨running, rfl⟩ := progress.lease lease rfl
      rfl
  | left lease =>
      refine ⟨complete ++ [current], none, passed_last progress.passed ?_, nofun, nofun, nofun,
        fun _ => rfl⟩
      obtain ⟨running, rfl⟩ := progress.lease lease rfl
      rfl
  | polled =>
      refine ⟨complete, current, passed_next progress.passed rfl, nofun, nofun, ?_, nofun⟩
      intro serial locked
      exact absurd locked (progress.not_locked (by decide))
  | ended =>
      exact ⟨complete, current, passed_next progress.passed rfl, nofun, nofun, nofun, fun _ => rfl⟩

/-- A lease that is shown is the one that was shown before, if any was. -/
theorem tell_locked (progress : Progress phase true shown passed complete current)
    (moves : phase.Moves config reply phase' announced) {serial serial' : Nat}
    (before : shown = .locked serial) (after : announced.getD shown = .locked serial') :
    serial = serial' := by
  cases moves with
  | started lease => exact absurd before (progress.not_locked (by simp [Phase.stage]))
  | refused | released | left | ended => simp at after
  | _ =>
      subst before
      simpa using after

end Progress

/-! ## What rounds say -/

/-- The calls to the component. -/
def componentCalls (history : List Happening) : List Happening :=
  history.filter fun h => h = .asked .start ∨ h = .asked .stop

def acquiredLeases (history : List Happening) : List LeaseHandle :=
  history.filterMap fun
    | .told (.acquired lease) => lease
    | _ => none

def releasedLeases (history : List Happening) : List LeaseHandle :=
  history.filterMap fun
    | .asked (.release lease) => some lease
    | _ => none

theorem componentCalls_rounds (rounds : List Round) :
    componentCalls (rounds.flatMap round) =
      (List.replicate (rounds.countP Option.isSome) [.asked .start, .asked .stop]).flatten := by
  induction rounds with
  | nil => rfl
  | cons first rest ih =>
      have split : componentCalls ((first :: rest).flatMap round) =
          componentCalls (round first) ++ componentCalls (rest.flatMap round) := by
        rw [List.flatMap_cons]
        exact List.filter_append _ _
      rw [split, ih]
      cases first with
      | none => simp [round, componentCalls]
      | some _ => simp [round, componentCalls, List.replicate_succ]

/-- Every lease of a complete round is released. -/
theorem acquired_rounds (rounds : List Round) :
    acquiredLeases (rounds.flatMap round) = releasedLeases (rounds.flatMap round) := by
  induction rounds with
  | nil => rfl
  | cons first rest ih =>
      rw [List.flatMap_cons]
      simp only [acquiredLeases, releasedLeases, List.filterMap_append] at ih ⊢
      rw [ih]
      cases first <;> rfl

/-- In a round at most one lease is acquired and not released. -/
theorem acquired_take (current : Round) (n : Nat) :
    ∃ inHand : Option LeaseHandle, acquiredLeases ((round current).take n) =
      releasedLeases ((round current).take n) ++ inHand.toList := by
  cases current with
  | none =>
      refine ⟨none, ?_⟩
      match n with
      | 0 | 1 => rfl
      | _ + 2 => simp [round, acquiredLeases, releasedLeases]
  | some lease =>
      match n with
      | 0 | 1 => exact ⟨none, rfl⟩
      | 2 | 3 | 4 | 5 | 6 => exact ⟨some lease.1, rfl⟩
      | 7 => exact ⟨none, rfl⟩
      | _ + 8 => exact ⟨none, by simp [round, acquiredLeases, releasedLeases]⟩

/-- What has been passed are rounds, all but the last one complete. So the calls to the component
bracket each other, and so do acquiring and releasing around them. -/
structure Brackets (passed : List Happening) : Prop where
  rounds : ∃ (complete : List Round) (current : Round) (n : Nat), n < 8 ∧
    passed = complete.flatMap round ++ (round current).take n
  calls : ∃ n, componentCalls passed <+:
    (List.replicate n [Happening.asked .start, .asked .stop]).flatten
  leases : ∃ inHand : Option LeaseHandle,
    acquiredLeases passed = releasedLeases passed ++ inHand.toList

theorem Phase.stage_lt (asked : Bool) (phase : Phase) : phase.stage asked < 8 := by
  have one := Bool.toNat_le asked
  cases phase <;> simp only [stage] <;> omega

namespace Progress

variable (progress : Progress phase asked shown passed complete current)
include progress

/-- The component is asked to start and to stop in turns. -/
theorem componentCalls_prefix : ∃ n, componentCalls passed <+:
    (List.replicate n [Happening.asked .start, .asked .stop]).flatten := by
  refine ⟨(complete ++ [current]).countP Option.isSome, ?_⟩
  rw [← componentCalls_rounds]
  refine List.IsPrefix.filter _ ?_
  rw [progress.passed]
  simpa using List.take_prefix _ _

/-- Every lease that was acquired, but for one that is in hand, was released. -/
theorem acquired_eq : ∃ inHand : Option LeaseHandle,
    acquiredLeases passed = releasedLeases passed ++ inHand.toList := by
  obtain ⟨inHand, current_eq⟩ := acquired_take current (phase.stage asked)
  refine ⟨inHand, ?_⟩
  have complete_eq := acquired_rounds complete
  rw [progress.passed]
  simp only [acquiredLeases, releasedLeases, List.filterMap_append] at complete_eq current_eq ⊢
  rw [complete_eq, current_eq, List.append_assoc]

theorem brackets : Brackets passed where
  rounds := ⟨complete, current, phase.stage asked, phase.stage_lt asked, progress.passed⟩
  calls := progress.componentCalls_prefix
  leases := progress.acquired_eq

end Progress

end Singleton

end Courier
