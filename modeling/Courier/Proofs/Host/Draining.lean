import Courier.Bench.Drain
import Courier.Proofs.Host.Closing
import Courier.Proofs.Singleton.Fleet
import Mathlib.Data.List.Induction

/-!
# Waiting for a drain

A wait for a drain looks at the attempts in flight at once, and then again each time that
`Controller.drainStep` has passed. It ends at the first look that finds none, and it gives up at the
first look that does not come before the deadline. The last look may come after the deadline, then,
and what is dropped between the two still counts (`Drain.drain_looks`). How much later the last look
comes is less than the time between two looks, and it is nothing if the timeout is a multiple of
that.

A shutdown of a host stops its parts until the deadline and then waits for the drain. So it is over
with the deadline and the time between two looks (`Works.shutDown_soon`).

All this is where the deadline is an instant. A wait or a shutdown whose timeout ends past the last
instant breaks off before its first look.
-/

namespace Courier

namespace Drain

/-! ## Guards that are left -/

/-- The guards that are left at an instant; those that are dropped at that very instant are. -/
def left (s : Drain) (t : Nat) : List String :=
  s.guards.filter fun name => !s.drops.any fun drop => drop.2 == name && s.clock.alarm drop.1 < t

/-- The count is the one of the guards, the clock is on time, and what is still to be dropped is
dropped later. -/
structure Sound (s : Drain) : Prop where
  count : s.controller.inFlight = s.guards.length
  apart : s.guards.Nodup
  resolution : s.clock.resolution = 1000000
  whole : 1000000 ∣ s.clock.now
  ahead : ∀ drop ∈ s.drops, s.clock.now ≤ s.clock.alarm drop.1

/-- What stays where guards are dropped. -/
structure Drops (s s' : Drain) : Prop where
  clock : s'.clock = s.clock
  health : s'.controller.health = s.controller.health
  drops : s'.drops = s.drops

variable {s s' s'' : Drain} {name : String} {t u : Nat}

theorem left_eq_nil_iff : s.left t = [] ↔
    ∀ name ∈ s.guards, ∃ drop ∈ s.drops, drop.2 = name ∧ s.clock.alarm drop.1 < t := by
  simp [left, List.filter_eq_nil_iff]

/-- What is gone does not come back. -/
theorem left_nil_mono (le : t ≤ u) (gone : s.left t = []) : s.left u = [] := by
  rw [left_eq_nil_iff] at gone ⊢
  intro name mem
  obtain ⟨drop, still, same, before⟩ := gone name mem
  exact ⟨drop, still, same, Nat.lt_of_lt_of_le before le⟩

theorem Sound.left_now (sound : s.Sound) : s.left s.clock.now = s.guards := by
  refine List.filter_eq_self.mpr fun name _ => ?_
  simp only [Bool.not_eq_true', List.any_eq_false, Bool.and_eq_true, not_and, decide_eq_true_eq]
  exact fun drop mem _ => Nat.not_lt.mpr (sound.ahead drop mem)

/-! ## Dropping guards -/

theorem dropGuard_eq (apart : s.guards.Nodup) (name : String) :
    (s.dropGuard name).guards = s.guards.filter (· != name) := by
  unfold dropGuard
  split
  · exact apart.erase_eq_filter name
  · rename_i absent
    refine (List.filter_eq_self.mpr fun other mem => ?_).symm
    simp only [bne_iff_ne, ne_eq]
    rintro rfl
    exact absent (List.contains_iff_mem.mpr mem)

theorem dropGuard_drops (s : Drain) (name : String) : Drops s (s.dropGuard name) := by
  unfold dropGuard
  split <;> exact ⟨rfl, rfl, rfl⟩

theorem Sound.dropGuard (sound : s.Sound) (name : String) : (s.dropGuard name).Sound := by
  unfold Drain.dropGuard
  split
  · rename_i here
    refine { sound with count := ?_, apart := sound.apart.erase name }
    have fewer := List.length_erase_of_mem (List.contains_iff_mem.mp here)
    simp only [Controller.leave, sound.count, fewer]
  · exact sound

/-- Several guards are dropped. -/
theorem Sound.dropAll (sound : s.Sound) (due : List (Nat × String)) :
    let s' := due.foldl (fun s drop => s.dropGuard drop.2) s
    s'.Sound ∧ Drops s s' ∧ s'.guards = s.guards.filter fun name => !due.any (·.2 == name) := by
  induction due generalizing s with
  | nil => exact ⟨sound, ⟨rfl, rfl, rfl⟩, by simp⟩
  | cons drop rest ih =>
      obtain ⟨sound', drops, guards⟩ := ih (sound.dropGuard drop.2)
      have first := dropGuard_drops s drop.2
      refine ⟨sound', ⟨drops.clock.trans first.clock, drops.health.trans first.health,
        drops.drops.trans first.drops⟩, ?_⟩
      rw [List.foldl_cons, guards, dropGuard_eq sound.apart, List.filter_filter]
      refine List.filter_congr fun name _ => ?_
      grind

/-- The guards whose time has come are dropped. -/
theorem Sound.dropUntil (sound : s.Sound) (now : Nat) :
    let s' := s.dropUntil now
    s'.Sound ∧ s'.clock = s.clock ∧ s'.controller.health = s.controller.health ∧
      s'.drops = (s.drops.filter fun drop => now < s.clock.alarm drop.1) ∧
      s'.guards = s.left (now + 1) := by
  have fewer : ({ s with drops := s.drops.filter fun drop => now < s.clock.alarm drop.1 }).Sound :=
    { sound with ahead := fun drop mem => sound.ahead drop (List.mem_filter.mp mem).1 }
  obtain ⟨sound', drops, guards⟩ :=
    fewer.dropAll (s.drops.filter fun drop => s.clock.alarm drop.1 ≤ now)
  have same : s.dropUntil now = (s.drops.filter fun drop => s.clock.alarm drop.1 ≤ now).foldl
      (fun s drop => s.dropGuard drop.2)
      { s with drops := s.drops.filter fun drop => now < s.clock.alarm drop.1 } := by
    have later : (s.drops.filter fun drop => !decide (s.clock.alarm drop.1 ≤ now)) =
        s.drops.filter fun drop => now < s.clock.alarm drop.1 :=
      List.filter_congr fun drop _ => by rw [Bool.eq_iff_iff]; simp
    simp only [Drain.dropUntil, List.partition_eq_filter_filter, ← later]
    rfl
  rw [same]
  refine ⟨sound', drops.clock, drops.health, drops.drops, ?_⟩
  rw [guards, left]
  refine List.filter_congr fun name _ => ?_
  simp only [List.any_filter]
  grind

/-! ## Looking again and again -/

/-- The bench at the next look: between two looks nothing happens but drops. -/
def lapse (s : Drain) : Drain :=
  let next := s.clock.alarm (s.clock.now + Controller.drainStep.nanoseconds)
  let s := s.dropUntil (next - 1)
  { s with clock := s.clock.advanceTo next }

theorem wait_succ (deadline fuel : Nat) (s : Drain) :
    wait deadline (fuel + 1) s =
      if s.controller.inFlight = 0 then
        ({ s with controller := { s.controller with health := .stopped } }, true)
      else if deadline ≤ s.clock.now then (s, false)
      else wait deadline fuel s.lapse := by
  by_cases idle : s.controller.inFlight = 0
  · simp only [wait, Controller.look, idle, if_true]
  · by_cases late : deadline ≤ s.clock.now
    · simp only [wait, Controller.look, idle, late, if_false, if_true]
    · simp only [wait, Controller.look, idle, late, if_false, lapse]

/-- The next look comes after a whole period. -/
theorem Sound.lapse (sound : s.Sound) :
    s.lapse.Sound ∧ s.lapse.clock.now = s.clock.now + Controller.drainStep.nanoseconds ∧
      s.lapse.controller.health = s.controller.health ∧
      ∀ t, s.lapse.clock.now ≤ t → s.lapse.left t = s.left t := by
  have ahead : s.clock.now < s.clock.now + Controller.drainStep.nanoseconds :=
    Nat.lt_add_of_pos_right (by decide)
  have whole : 1000000 ∣ s.clock.now + Controller.drainStep.nanoseconds :=
    Nat.dvd_add sound.whole (by decide)
  have next := s.clock.alarm_of_dvd (sound.resolution.symm ▸ whole)
  unfold Drain.lapse
  simp only [next]
  generalize s.clock.now + Controller.drainStep.nanoseconds = look at ahead whole
  obtain ⟨sound', clock, health, drops, guards⟩ := sound.dropUntil (look - 1)
  have now : ((s.dropUntil (look - 1)).clock.advanceTo look).now = look := by
    rw [clock, Clock.advanceTo_now]
    omega
  have alarm (t : Nat) :
      ((s.dropUntil (look - 1)).clock.advanceTo look).alarm t = s.clock.alarm t := by
    rw [clock]
    rfl
  refine ⟨{ sound' with whole := ?_, ahead := fun drop mem => ?_ }, now, health,
    fun t after => ?_⟩
  · rwa [now]
  · rw [drops, List.mem_filter, decide_eq_true_eq] at mem
    rw [now, alarm]
    omega
  · -- Who is left later was not dropped before this look, and is not dropped after it.
    have within : look - 1 + 1 = look := by omega
    rw [now] at after
    simp only [left, guards, drops, alarm, within, List.filter_filter, List.any_filter]
    refine List.filter_congr fun name _ => ?_
    grind

/-- A wait ends at the first look that finds no guard, or that does not come before the
deadline. -/
theorem Sound.wait_looks {s : Drain} (sound : s.Sound) {deadline fuel : Nat}
    (enough : deadline ≤ s.clock.now + fuel * Controller.drainStep.nanoseconds) :
    let w := wait deadline (fuel + 1) s
    w.1.Sound ∧
      ∃ k, w.1.clock.now = s.clock.now + k * Controller.drainStep.nanoseconds ∧
        (w.2 = true ↔ s.left w.1.clock.now = []) ∧ (w.2 = false → deadline ≤ w.1.clock.now) ∧
        (∀ j < k, s.clock.now + j * Controller.drainStep.nanoseconds < deadline ∧
          s.left (s.clock.now + j * Controller.drainStep.nanoseconds) ≠ []) ∧
        w.1.controller.health = if w.2 = true then .stopped else s.controller.health := by
  intro w
  by_cases idle : s.controller.inFlight = 0
  · have ended : w = ({ s with controller := { s.controller with health := .stopped } }, true) := by
      simp only [w, wait_succ, idle, if_true]
    have none : s.left s.clock.now = [] := by
      rw [sound.left_now]
      exact List.eq_nil_of_length_eq_zero (sound.count.symm.trans idle)
    rw [ended]
    exact ⟨{ sound with }, 0, by simp, by simpa using none, by simp, by simp, by simp⟩
  · have some : s.left s.clock.now ≠ [] := by
      rw [sound.left_now]
      exact fun none => idle (by rw [sound.count, none, List.length_nil])
    by_cases late : deadline ≤ s.clock.now
    · have ended : w = (s, false) := by simp only [w, wait_succ, idle, late, if_false, if_true]
      rw [ended]
      exact ⟨sound, 0, by simp, by simpa using some, fun _ => late, by simp, by simp⟩
    · have goes : w = wait deadline fuel s.lapse := by
        simp only [w, wait_succ, idle, late, if_false]
      obtain ⟨sound', now, health, same⟩ := sound.lapse
      cases fuel with
      | zero => omega
      | succ fuel =>
          have enough' :
              deadline ≤ s.lapse.clock.now + fuel * Controller.drainStep.nanoseconds := by
            rw [Nat.succ_mul] at enough
            omega
          obtain ⟨sound'', k, ended, found, given, before, health'⟩ :=
            sound'.wait_looks enough'
          have later (j : Nat) : s.lapse.clock.now + j * Controller.drainStep.nanoseconds =
              s.clock.now + (j + 1) * Controller.drainStep.nanoseconds := by
            rw [now, Nat.succ_mul]
            omega
          rw [goes]
          refine ⟨sound'', k + 1, by rw [ended, later], ?_, given, fun j lt => ?_, ?_⟩
          · rw [found, same _ (by omega)]
          · cases j with
            | zero => simpa using ⟨Nat.lt_of_not_le late, some⟩
            | succ j =>
                obtain ⟨early, busy⟩ := before j (by omega)
                rw [same _ (by omega)] at busy
                rw [← later]
                exact ⟨early, busy⟩
          · rw [health', health]

/-! ## What came before -/

theorem start_sound : start.Sound := ⟨rfl, .nil, rfl, by decide, nofun⟩

theorem Sound.takeGuard (sound : s.Sound) (name : String) : (s.takeGuard name).Sound := by
  unfold Drain.takeGuard
  split
  · exact sound
  · rename_i new
    have absent : name ∉ s.guards := fun mem => new (List.contains_iff_mem.mpr mem)
    refine { sound with count := ?_, apart := List.nodup_cons.mpr ⟨absent, sound.apart⟩ }
    simp [Controller.enter, sound.count]

/-- The drops that are planned when a wait begins. -/
def plan (s : Drain) (drops : List (Duration × String)) : Drain :=
  { s with drops := s.drops ++ drops.map fun (after, name) =>
      (s.clock.now + after.nanoseconds, name) }

theorem Sound.plan (sound : s.Sound) (drops : List (Duration × String)) : (s.plan drops).Sound := by
  refine { sound with ahead := fun drop mem => ?_ }
  obtain old | new := List.mem_append.mp mem
  · exact sound.ahead drop old
  · obtain ⟨later, _, rfl⟩ := List.mem_map.mp new
    have ticks : 0 < s.clock.resolution := by rw [sound.resolution]; decide
    exact Nat.le_trans (Nat.le_add_right _ _) (s.clock.le_alarm _ ticks)

/-- There are looks enough for any timeout. -/
theorem looks_enough (now : Nat) (timeout : Duration) : now + timeout.nanoseconds ≤ now +
    (timeout.nanoseconds / Controller.drainStep.nanoseconds + 1) *
      Controller.drainStep.nanoseconds := by
  have period : 0 < Controller.drainStep.nanoseconds := by decide
  have := Nat.lt_mul_div_succ timeout.nanoseconds period
  rw [Nat.mul_comm] at this
  omega

/-- A wait for a drain looks until it is over. -/
theorem act_drain_of_le {timeout : Duration} (drops : List (Duration × String))
    (fits : s.clock.now + timeout.nanoseconds ≤ Instant.last) :
    let w := wait (s.clock.now + timeout.nanoseconds) (looks timeout) (s.plan drops)
    s.act (.drain timeout drops) = (w.1, .drained w.2 (w.1.clock.now - s.clock.now)) := by
  simp only [Drain.act, Instant.plus?_of_le fits]
  rfl

/-- It breaks off where its deadline is past the last instant. -/
theorem act_drain_of_lt {timeout : Duration} (drops : List (Duration × String))
    (past : Instant.last < s.clock.now + timeout.nanoseconds) :
    s.act (.drain timeout drops) = (s, .broken .instant) := by
  simp only [Drain.act, Instant.plus?_eq_none_iff.mpr past]

theorem Sound.act (sound : s.Sound) (a : Action) : (s.act a).1.Sound := by
  cases a with
  | setReady | trigger | child => exact { sound with }
  | cancelChild name =>
      simp only [Drain.act]
      split <;> exact { sound with }
  | guard name => exact sound.takeGuard name
  | drop name => exact sound.dropGuard name
  | drain timeout drops =>
      by_cases fits : s.clock.now + timeout.nanoseconds ≤ Instant.last
      · rw [act_drain_of_le drops fits]
        exact ((sound.plan drops).wait_looks (looks_enough _ timeout)).1
      · rw [act_drain_of_lt drops (Nat.lt_of_not_le fits)]
        exact sound

/-- A bench after some actions. -/
def after (actions : List Action) : Drain := actions.foldl (fun s a => (s.step a).1) start

theorem after_sound (actions : List Action) : (after actions).Sound := by
  induction actions using List.reverseRecOn with
  | nil => exact start_sound
  | append_singleton earlier a ih =>
      rw [after, List.foldl_append]
      exact ((ih.act a).dropUntil _).1

/-! ## A whole wait -/

/-- How long after its beginning a wait looks for the last time: at the first look that does not
come before the deadline. -/
def lasts (timeout : Duration) : Nat :=
  (timeout.nanoseconds + (Controller.drainStep.nanoseconds - 1)) /
    Controller.drainStep.nanoseconds * Controller.drainStep.nanoseconds

/-- The last look comes after the deadline by less than a period, and not at all if the timeout is
a multiple of it. -/
theorem lasts_bounds (timeout : Duration) : timeout.nanoseconds ≤ lasts timeout ∧
    lasts timeout < timeout.nanoseconds + Controller.drainStep.nanoseconds ∧
    (Controller.drainStep.nanoseconds ∣ timeout.nanoseconds →
      lasts timeout = timeout.nanoseconds) := by
  have period : Controller.drainStep.nanoseconds = 10000000 := rfl
  unfold lasts
  rw [period]
  refine ⟨?_, ?_, fun ⟨k, whole⟩ => ?_⟩ <;> omega

/-- A look that follows only on looks before the deadline is not after the last one. -/
theorem le_lasts {timeout : Duration} {k : Nat}
    (before : ∀ j < k, j * Controller.drainStep.nanoseconds < timeout.nanoseconds) :
    k * Controller.drainStep.nanoseconds ≤ lasts timeout := by
  have period : Controller.drainStep.nanoseconds = 10000000 := rfl
  unfold lasts
  rw [period] at before ⊢
  cases k with
  | zero => omega
  | succ j =>
      have early := before j (Nat.lt_succ_self j)
      omega

theorem lasts_le {timeout : Duration} {k : Nat}
    (enough : timeout.nanoseconds ≤ k * Controller.drainStep.nanoseconds) :
    lasts timeout ≤ k * Controller.drainStep.nanoseconds := by
  have period : Controller.drainStep.nanoseconds = 10000000 := rfl
  unfold lasts
  rw [period] at enough ⊢
  omega

/-- Whether all guards that were there when a wait began are gone at an instant, where those are
left that are dropped at that very instant. -/
def Gone (s : Drain) (drops : List (Duration × String)) (t : Nat) : Prop :=
  ∀ name ∈ s.guards, ∃ drop ∈ (s.plan drops).drops,
    drop.2 = name ∧ s.clock.alarm drop.1 < t

/-- What comes of a wait. -/
structure Waited (s : Drain) (timeout : Duration) (drops : List (Duration × String))
    (inTime : Bool) (waited : Nat) : Prop where
  inTime_iff : inTime = true ↔ s.Gone drops (s.clock.now + lasts timeout)
  /-- It ends at a look, and with the last one at the latest. -/
  look : Controller.drainStep.nanoseconds ∣ waited
  atMost : waited ≤ lasts timeout
  /-- It ends at the first look that finds no guard. -/
  found : waited < lasts timeout → s.Gone drops (s.clock.now + waited)
  first : ∀ sooner < waited, Controller.drainStep.nanoseconds ∣ sooner →
    ¬ s.Gone drops (s.clock.now + sooner)

theorem gone_iff (s : Drain) (drops : List (Duration × String)) (t : Nat) :
    s.Gone drops t ↔ (s.plan drops).left t = [] :=
  (left_eq_nil_iff (s := s.plan drops)).symm

/-- A wait keeps to its timeout if the last look does, or if a look finds no guard by then. -/
theorem Waited.timely_iff {s : Drain} {timeout : Duration} {drops : List (Duration × String)}
    {inTime : Bool} {waited : Nat} (ends : Waited s timeout drops inTime waited) :
    waited ≤ timeout.nanoseconds ↔
      Controller.drainStep.nanoseconds ∣ timeout.nanoseconds ∨
        ∃ sooner ≤ timeout.nanoseconds, Controller.drainStep.nanoseconds ∣ sooner ∧
          s.Gone drops (s.clock.now + sooner) := by
  obtain ⟨reached, _, whole⟩ := lasts_bounds timeout
  constructor
  · intro timely
    by_cases last : waited = lasts timeout
    · rw [Nat.le_antisymm reached (last ▸ timely)]
      exact .inl (Nat.dvd_mul_left _ _)
    · have early : waited < lasts timeout := Nat.lt_of_le_of_ne ends.atMost last
      exact .inr ⟨waited, timely, ends.look, ends.found early⟩
  · rintro (divides | ⟨sooner, timely, look, gone⟩)
    · exact whole divides ▸ ends.atMost
    · by_contra late
      exact ends.first sooner (by omega) look gone

/-- A wait that begins after some other actions. -/
theorem drain_looks (earlier : List Action) {timeout : Duration}
    (drops : List (Duration × String))
    (fits : (after earlier).clock.now + timeout.nanoseconds ≤ Instant.last) :
    let s := after earlier
    ∃ inTime waited, (s.act (.drain timeout drops)).2 = .drained inTime waited ∧
      Waited s timeout drops inTime waited ∧
      (s.act (.drain timeout drops)).1.controller.health =
        if inTime = true then .stopped else s.controller.health := by
  intro s
  let t := s.clock.now
  have sound : (s.plan drops).Sound := (after_sound earlier).plan drops
  obtain ⟨_, k, now, found, given, before, health⟩ :=
    sound.wait_looks (looks_enough t timeout)
  generalize result : wait (t + timeout.nanoseconds)
    (timeout.nanoseconds / Controller.drainStep.nanoseconds + 1 + 1) (s.plan drops) = w
    at now found given before health
  have answer : s.act (.drain timeout drops) = (w.1, .drained w.2 (w.1.clock.now - t)) := by
    rw [← result]
    exact act_drain_of_le drops fits
  have now : w.1.clock.now = t + k * Controller.drainStep.nanoseconds := now
  rw [now, ← gone_iff] at found
  have atMost : k * Controller.drainStep.nanoseconds ≤ lasts timeout :=
    le_lasts fun j lt => Nat.lt_of_add_lt_add_left (before j lt).1
  have late (gaveUp : w.2 = false) : lasts timeout ≤ k * Controller.drainStep.nanoseconds :=
    lasts_le (Nat.le_of_add_le_add_left (now ▸ given gaveUp))
  refine ⟨w.2, k * Controller.drainStep.nanoseconds, ?_, ⟨⟨fun inTime => ?_, fun gone => ?_⟩,
    Nat.dvd_mul_left _ _, atMost, fun sooner => ?_, fun sooner lt whole => ?_⟩, ?_⟩
  · have took : w.1.clock.now - t = k * Controller.drainStep.nanoseconds := by
      rw [now, Nat.add_sub_cancel_left]
    rw [answer, took]
  · rw [gone_iff]
    exact left_nil_mono (Nat.add_le_add_left atMost t) ((gone_iff ..).mp (found.mp inTime))
  · cases ended : w.2 with
    | true => rfl
    | false =>
        rw [Nat.le_antisymm (late ended) atMost] at gone
        exact ended ▸ found.mpr gone
  · cases ended : w.2 with
    | true => exact found.mp ended
    | false => exact absurd sooner (Nat.not_lt.mpr (late ended))
  · obtain ⟨j, rfl⟩ := whole
    rw [Nat.mul_comm] at lt ⊢
    rw [gone_iff]
    exact (before j (Nat.lt_of_mul_lt_mul_right lt)).2
  · rw [answer]
    exact health

end Drain

/-! ## A whole shutdown -/

namespace Plant

/-- A stride leaves the resolution of the timers. -/
theorem Stride.resolution {p p' : Plant} {e e' : Errand} {deal : Option Dealing}
    (stride : Stride p e deal p' e') :
    p'.ambient.clock.resolution = p.ambient.clock.resolution := by
  cases stride with
  | called polled | heard polled | stopped polled => exact (poll_still polled).ambient.resolution
  | @start part x _ _ _ q a token wrapped child =>
      have begun := (beginStart_goes (q.withAmbient a) x token).ambient.resolution
      have same : q.ambient = p.ambient := by
        rw [← wrap_ambient p part, wrapped]
      obtain rfl := congrArg Prod.fst child
      exact begun.trans (congrArg (·.clock.resolution) same)
  | undo | stop => exact (beginStop_goes p _).ambient.resolution
  | leave =>
      simp only [beginClosing]
      split <;> rfl
  | opened | failed | overran | drain | again | closed => rfl

end Plant

namespace Works

open Plant (Stride Beside)

variable {p : Plant} {e : Errand} {line : List Part} {deadline : Nat} {h : List Dealing}
  {deeds : List Deed}

/-- The clock waits for the host: it moves on only where the errand of the host can take no step,
and not past the next alarm. -/
def OnTime (p : Plant) (d : Deed) : Prop :=
  p.now < (act p d).now →
    p.step? .foreground = none ∧ ∀ next ∈ p.nextAlarm?, (act p d).now ≤ next

/-- Deeds each of which is done at its time. -/
def Timely (p : Plant) : List Deed → Prop
  | [] => True
  | d :: rest => OnTime p d ∧ Timely (act p d) rest

instance (p : Plant) (d : Deed) : Decidable (OnTime p d) :=
  inferInstanceAs (Decidable (p.now < (act p d).now →
    p.step? .foreground = none ∧ ∀ next ∈ p.nextAlarm?, (act p d).now ≤ next))

instance decidableTimely (p : Plant) : (deeds : List Deed) → Decidable (Timely p deeds)
  | [] => isTrue trivial
  | d :: rest => @instDecidableAnd _ _ inferInstance (decidableTimely (act p d) rest)

/-- The last instant at which a shutdown looks at the attempts in flight. -/
def lastLook (clock : Clock) (deadline : Nat) : Nat :=
  clock.alarm (deadline + Controller.drainStep.nanoseconds)

/-- A shutdown that is not late. -/
structure Soon (clock : Clock) (deadline : Nat) (s : Plant) (e : Errand) (h : List Dealing) :
    Prop where
  resolution : s.ambient.clock.resolution = clock.resolution
  now : e.isOver = false → s.now ≤ lastLook clock deadline
  looks : ∀ time inFlight, .looked time inFlight ∈ h → time ≤ lastLook clock deadline

theorem Soon.beside {s s' : Plant} {clock : Clock} {quiet : Prop} (soon : Soon clock deadline s e h)
    (beside : Beside quiet s s') (now : e.isOver = false → s'.now ≤ lastLook clock deadline) :
    Soon clock deadline s' e h :=
  ⟨beside.resolution.trans soon.resolution, now, soon.looks⟩

/-- A shutdown that is not over can take a step, or it waits for an alarm that goes off with its
last look at the latest. -/
theorem Soon.progress {clock : Clock} (soon : Soon clock deadline p e h)
    (ebbs : Ebbs line deadline p e h) :
    e.isOver = true ∨ (∃ s' e', p.stepErrand e = some (s', e') ∧ e'.stepsLeft < e.stepsLeft) ∨
      ∃ wake ∈ Plant.errandWakes e, p.due wake = false ∧
        p.ambient.clock.alarm wake ≤ lastLook clock deadline := by
  have alarm (t : Nat) : p.ambient.clock.alarm t = clock.alarm t := by
    rw [Clock.alarm, Clock.alarm, soon.resolution]
  cases going : e.isOver with
  | true => exact .inl rfl
  | false =>
      refine (ebbs.1.progress ebbs.2).imp (fun ended => going ▸ ended) (.imp_right ?_)
      rintro ⟨wake, waits, early, near⟩
      refine ⟨wake, waits, early, ?_⟩
      have last : deadline + Controller.drainStep.nanoseconds ≤ lastLook clock deadline := by
        rw [lastLook, ← alarm]
        exact p.ambient.clock.le_alarm _ ebbs.2.ticks
      calc p.ambient.clock.alarm wake
        _ = clock.alarm wake := alarm wake
        _ ≤ clock.alarm (lastLook clock deadline) :=
            clock.alarm_mono (Nat.le_trans near (Nat.max_le.mpr ⟨last, soon.now going⟩))
        _ = lastLook clock deadline := clock.alarm_alarm _

/-- The clock moves on while a shutdown waits, and not past its last look. -/
theorem Soon.waits {clock : Clock} (soon : Soon clock deadline p e h)
    (ebbs : Ebbs line deadline p e h) (here : p.foreground = some e) {d : Deed}
    (onTime : OnTime p d) (going : e.isOver = false) :
    (act p d).now ≤ lastLook clock deadline := by
  by_cases moves : p.now < (act p d).now
  · obtain ⟨stuck, before⟩ := onTime moves
    obtain ended | ⟨s', e', step, _⟩ | ⟨wake, waits, early, near⟩ := soon.progress ebbs
    · rw [ended] at going
      cases going
    · simp [Plant.step?, here, step] at stuck
    · have wakes : wake ∈ p.wakes := by simp [Plant.wakes, here, waits]
      have ahead : p.now < p.ambient.clock.alarm wake := by
        simpa [Plant.due, Clock.due, Plant.now, Ambient.now] using early
      obtain ⟨next, least, le⟩ := Fleet.nextAlarm?_le wakes ahead
      exact Nat.le_trans (before next least) (Nat.le_trans le near)
  · exact Nat.le_trans (Nat.not_lt.mp moves) (soon.now going)

/-- The errand of a shutdown takes a step before it is over. -/
theorem Soon.stride {s' : Plant} {e' : Errand} {clock : Clock} {deal : Option Dealing}
    (soon : Soon clock deadline p e h) (stride : Stride p e deal s' e')
    (still : s'.now ≤ p.now) :
    Soon clock deadline { s' with foreground := some e' } e' (h ++ deal.toList) := by
  have going : e.isOver = false := by cases stride <;> rfl
  have now := soon.now going
  refine ⟨stride.resolution.trans soon.resolution, fun _ => Nat.le_trans still now,
    fun time inFlight mem => ?_⟩
  obtain old | new := List.mem_append.mp mem
  · exact soon.looks time inFlight old
  · cases stride with
    | again | closed =>
        obtain ⟨rfl, _⟩ : time = p.now ∧ _ := by simpa using new
        exact now
    | _ => simp at new

/-- A shutdown during which the clock waits for the host is over in time. -/
theorem run_soon {clock : Clock} (here : p.foreground = some e)
    (ebbs : Ebbs line deadline p e h) (soon : Soon clock deadline p e h)
    (shared : ∀ d ∈ deeds, d.isExclusive = false) (timely : Timely p deeds) :
    ∃ e', (run p deeds).foreground = some e' ∧
      Ebbs line deadline (run p deeds) e' (h ++ history p deeds) ∧
      Soon clock deadline (run p deeds) e' (h ++ history p deeds) := by
  induction deeds generalizing p e h with
  | nil => exact ⟨e, here, by simpa [history] using ebbs, by simpa [history] using soon⟩
  | cons d rest ih =>
      have shared' : ∀ d ∈ rest, d.isExclusive = false := fun d mem => shared d (.tail _ mem)
      rw [run_cons, history, ← List.append_assoc]
      by_cases own : d = .step .foreground
      · subst own
        cases step : p.stepErrand e with
        | none =>
            have idle : act p (.step .foreground) = p := by
              simp [act, Plant.step?, here, step]
            have nothing : dealings p (.step .foreground) = [] := by
              simp [dealings, here, Plant.dealing?_none step]
            rw [idle, nothing, List.append_nil]
            exact ih here ebbs soon shared' (idle ▸ timely.2)
        | some next =>
            obtain ⟨s', e'⟩ := next
            have stride := Plant.stepErrand_stride step
            have after : act p (.step .foreground) = { s' with foreground := some e' } := by
              simp [act, Plant.step?, here, step]
            have dealt : dealings p (.step .foreground) = (p.dealing? e).toList := by
              simp [dealings, here]
            have still : s'.now ≤ p.now := by
              refine Nat.not_lt.mp fun moves => ?_
              have stuck := (timely.1 (by rw [after]; exact moves)).1
              simp [Plant.step?, here, step] at stuck
            have timely' := timely.2
            rw [after] at timely' ⊢
            rw [dealt]
            exact ih rfl (ebbs.stride stride) (soon.stride stride still) shared' timely'
      · obtain ⟨beside, same, nothing⟩ := @act_beside p False ebbs.2.calls d own
          (shared d (.head _)) False.elim
        rw [nothing, List.append_nil]
        exact ih (same.trans here) (ebbs.beside beside)
          (soon.beside beside (soon.waits ebbs here timely.1)) shared' timely.2

/-- A shutdown for which the clock waits. -/
theorem shutDown_soon (ticks : 0 < p.ambient.clock.resolution)
    (calls : ∀ b ∈ p.background, b.isCall = true) (shared : ∀ d ∈ deeds, d.isExclusive = false)
    (timely : Timely (act p .shutDown) deeds)
    (fits : p.now + p.host.config.drainTimeout.nanoseconds ≤ Instant.last) :
    let deadline := p.now + p.host.config.drainTimeout.nanoseconds
    ∃ e, (run (act p .shutDown) deeds).foreground = some e ∧
      Ebbs p.host.started deadline (run (act p .shutDown) deeds) e
        (history (act p .shutDown) deeds) ∧
      Soon p.ambient.clock deadline (run (act p .shutDown) deeds) e
        (history (act p .shutDown) deeds) := by
  intro deadline
  have ebbs : Ebbs p.host.started deadline (act p .shutDown) (p.beginClosing false).2 [] :=
    shutDown_ebbs ticks calls fits
  have soon : Soon p.ambient.clock deadline (act p .shutDown) (p.beginClosing false).2 [] := by
    simp only [act, Plant.beginClosing_of_le false fits]
    refine ⟨rfl, fun _ => ?_, by simp⟩
    have before : p.now ≤ deadline + Controller.drainStep.nanoseconds :=
      Nat.le_trans (Nat.le_add_right _ _) (Nat.le_add_right _ _)
    exact Nat.le_trans before (p.ambient.clock.le_alarm _ ticks)
  exact run_soon rfl ebbs soon shared timely

/-- A wait for a drain, and a shutdown of a host.

The wait ends at the first of its looks that finds no guard, or with its last look, which is the
first one that does not come before the deadline. It answers that all guards are gone if and only if
they are gone by that last look; so it may answer so though a guard was dropped after the deadline.
It keeps to its timeout if and only if the timeout is a multiple of the time between two looks, or a
look within it finds no guard; otherwise it lasts longer, by less than that time.

The shutdown, if the clock waits for it, stops the parts, looks at the attempts in flight no later
than the time between two looks after the deadline, and is over then.

A wait or a shutdown whose deadline would be past the last instant breaks off instead, with no
answer and before its first look; the shutdown has stopped nothing then. -/
theorem waits_end_with_a_look (earlier : List Drain.Action) (timeout : Duration)
    (drops : List (Duration × String)) (ticks : 0 < p.ambient.clock.resolution)
    (calls : ∀ b ∈ p.background, b.isCall = true) (shared : ∀ d ∈ deeds, d.isExclusive = false)
    (timely : Timely (act p .shutDown) deeds) :
    (let s := Drain.after earlier
      let deadline := s.clock.now + timeout.nanoseconds
      (deadline ≤ Instant.last →
        ∃ inTime waited, (s.act (.drain timeout drops)).2 = .drained inTime waited ∧
          Drain.Waited s timeout drops inTime waited ∧
          (waited ≤ timeout.nanoseconds ↔
            Controller.drainStep.nanoseconds ∣ timeout.nanoseconds ∨
              ∃ sooner ≤ timeout.nanoseconds, Controller.drainStep.nanoseconds ∣ sooner ∧
                s.Gone drops (s.clock.now + sooner)) ∧
          waited < timeout.nanoseconds + Controller.drainStep.nanoseconds ∧
          (s.act (.drain timeout drops)).1.controller.health =
            if inTime = true then .stopped else s.controller.health) ∧
      (Instant.last < deadline → s.act (.drain timeout drops) = (s, .broken .instant))) ∧
    (let s := run (act p .shutDown) deeds
      let h := history (act p .shutDown) deeds
      let deadline := p.now + p.host.config.drainTimeout.nanoseconds
      let last := lastLook p.ambient.clock deadline
      (deadline ≤ Instant.last → ∃ e, s.foreground = some e ∧ Closes p.host.started deadline e h ∧
        (e.isOver = false → s.now ≤ last) ∧
        (∀ time inFlight, .looked time inFlight ∈ h → time ≤ last) ∧
        (e.isOver = true ∨
          (∃ s' e', s.stepErrand e = some (s', e') ∧ e'.stepsLeft < e.stepsLeft) ∨
          ∃ wake ∈ Plant.errandWakes e, s.due wake = false ∧
            s.ambient.clock.alarm wake ≤ last)) ∧
      (Instant.last < deadline → s.foreground = some (.broken .instant) ∧ h = [] ∧
        s.host = p.host)) := by
  refine ⟨⟨fun fits => ?_, Drain.act_drain_of_lt drops⟩, fun fits => ?_,
    shutDown_breaks calls shared⟩
  · obtain ⟨inTime, waited, answer, ends, health⟩ := Drain.drain_looks earlier drops fits
    have short := Nat.lt_of_le_of_lt ends.atMost (Drain.lasts_bounds timeout).2.1
    exact ⟨inTime, waited, answer, ends, ends.timely_iff, short, health⟩
  · obtain ⟨e, here, ebbs, soon⟩ := shutDown_soon ticks calls shared timely fits
    exact ⟨e, here, ebbs.1, soon.now, soon.looks, soon.progress ebbs⟩

/-- A part that is started, and a guard that is dropped two milliseconds after the deadline. -/
def quay : Plant :=
  { Shift.emptyPlant with
    ambient := { Shift.emptyPlant.ambient with
      controller := Shift.emptyPlant.ambient.controller.setReady.enter }
    doubles := [{ name := "orders", lockId := "orders" }]
    departures := [27000000]
    host := { config := { instanceId := "node-1", drainTimeout := .ofMilliseconds 25 },
              parts := [.double 0], started := [.double 0] } }

/-- The part is stopped, and looks follow at 0, 10, 20 and 30 milliseconds. -/
def quayCloses : List Deed :=
  .replicate 4 (.step .foreground) ++
    [.pass 10000000, .step .foreground, .pass 20000000, .step .foreground, .pass 27000000,
      .step .departures, .pass 30000000, .step .foreground]

deriving instance DecidableEq for Drain.Result

/-- A guard that is dropped two milliseconds after the deadline still counts, on the bench and in a
host that is shut down. -/
theorem waits_end_with_a_look_quay :
    let s := Drain.after [.guard "order-17", .trigger]
    let drops := [(Duration.ofMilliseconds 17, "order-17")]
    let r := act quay .shutDown
    Drain.Waited s (.ofMilliseconds 15) drops true 20000000 ∧
      (∀ d ∈ quayCloses, d.isExclusive = false) ∧ Timely r quayCloses ∧
      ∃ e, (run r quayCloses).foreground = some e ∧ e.isOver = true ∧
        Closes [.double 0] 25000000 e (history r quayCloses) ∧
        ∀ time inFlight, .looked time inFlight ∈ history r quayCloses → time ≤ 35000000 := by
  intro s drops r
  have shared : ∀ d ∈ quayCloses, d.isExclusive = false := by decide
  have timely : Timely r quayCloses := by decide +kernel
  have ended : (run r quayCloses).foreground.map (·.isOver) = some true := by decide +kernel
  have answer : (s.act (.drain (.ofMilliseconds 15) drops)).2 = .drained true 20000000 := by
    decide +kernel
  have calls : ∀ b ∈ quay.background, b.isCall = true := by decide
  obtain ⟨⟨waits, _⟩, closes, _⟩ :=
    waits_end_with_a_look [.guard "order-17", .trigger] (.ofMilliseconds 15) drops (by decide) calls
      shared timely
  obtain ⟨inTime, took, result, waited, _⟩ := waits (by decide +kernel)
  obtain ⟨e, here, closes, _, looks, _⟩ := closes (by decide +kernel)
  obtain ⟨rfl, rfl⟩ := Drain.Result.drained.inj (result.symm.trans answer)
  rw [here] at ended
  exact ⟨waited, shared, timely, e, here, Option.some.inj ended, closes, looks⟩

/-- Waits that do not keep to their deadline of five milliseconds: one answers that all guards are
gone, though the last was dropped after it; one for a guard that is never dropped gives up after
another five. And a host that has 25 milliseconds takes 30 to shut down, and says that it has
succeeded. -/
theorem waits_outlast_their_deadline :
    let s := Drain.after [.guard "order-17", .trigger]
    let r := run (act quay .shutDown) quayCloses
    (s.act (.drain (.ofMilliseconds 5) [(.ofMilliseconds 7, "order-17")])).2 =
        .drained true 10000000 ∧
      (s.act (.drain (.ofMilliseconds 5) [])).2 = .drained false 10000000 ∧
      quay.host.config.drainTimeout.nanoseconds = 25000000 ∧ r.now = 30000000 ∧
      (run (act quay .shutDown) quayCloses.dropLast).foreground.map (·.isOver) = some false ∧
      (match r.foreground with
        | some (.closed drained) => drained
        | _ => false) = true := by
  intro s r
  exact ⟨by decide +kernel, by decide +kernel, by decide +kernel, by decide +kernel,
    by decide +kernel, by decide +kernel⟩

end Works

end Courier
