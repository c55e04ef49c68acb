import Courier.Proofs.Singleton.Exclusion

/-!
# Leases that are outlived

A member that cannot renew its lease tries again after delays that double, and gives up only when
no delay is left. Timing may be valid and still leave so many delays that the lease runs out
before: the member then goes on while another may get the lock. `outlived_iff` says for which
timing that happens, with timers that are exact and a part that starts and stops at once: where the
renewal interval and all delays together are as long as the lease period, and that is short enough
for a lease to be had at all.
-/

namespace Courier

open Courier.Singleton (Phase LockState Request)

namespace Fleet

/-- What a fleet can come to by fair deeds on time. -/
def Reaches (p p' : Plant) : Prop :=
  ∃ deeds, (∀ d ∈ deeds, Deed.IsFair true d) ∧ Timely p deeds ∧ run p deeds = p'

theorem timely_append {p : Plant} {deeds more : List Deed} :
    Timely p (deeds ++ more) ↔ Timely p deeds ∧ Timely (run p deeds) more := by
  induction deeds generalizing p with
  | nil => simp [Timely]
  | cons d rest ih => simp [Timely, ih, and_assoc]

namespace Reaches

variable {p p₁ p₂ : Plant}

theorem refl (p : Plant) : Reaches p p := ⟨[], nofun, trivial, rfl⟩

theorem trans (first : Reaches p p₁) (second : Reaches p₁ p₂) : Reaches p p₂ := by
  obtain ⟨deeds, fair, timely, rfl⟩ := first
  obtain ⟨more, fair', timely', rfl⟩ := second
  refine ⟨deeds ++ more, ?_, timely_append.mpr ⟨timely, timely'⟩, run_append _ _ _⟩
  intro d mem
  obtain mem | mem := List.mem_append.mp mem
  · exact fair d mem
  · exact fair' d mem

theorem deed (d : Deed) (fair : d.IsFair true) (onTime : OnTime p d) (same : act p d = p₁) :
    Reaches p p₁ := by
  refine ⟨[d], ?_, ⟨onTime, trivial⟩, same⟩
  intro d' mem
  obtain rfl := List.mem_singleton.mp mem
  exact fair

theorem step (task : Plant.Task) (same : act p (.step task) = p₁) : Reaches p p₁ :=
  deed (.step task) trivial trivial same

end Reaches

/-! ## A member alone -/

/-- A fleet of one member with one run, at an instant. -/
def solo (base : Plant) (c : Coordinator) (r : Run) (now : Nat) : Plant :=
  { base with
    ambient := { base.ambient with clock := { base.ambient.clock with now := now } }
    coordinators := [{ c with runs := [r] }] }

/-- A fleet in which nothing but a run with some token could move, with timers that are exact and a
store that does not answer. -/
structure Still (base : Plant) (token : CancelToken) : Prop where
  resolution : base.ambient.clock.resolution = 1
  stations : base.stations = []
  foreground : base.foreground = none
  background : base.background = []
  departures : base.departures = []
  watchers : ∀ w ∈ base.watchers, base.ambient.isCancelled w.token = false
  going : base.ambient.isCancelled token = false
  renewals : base.locks.renewals = []
  down : base.locks.store.available = false

variable {base : Plant} {c : Coordinator} {token : CancelToken} {phase phase' : Phase} {now : Nat}

theorem solo_due (still : Still base token) (r : Run) (t : Nat) :
    (solo base c r now).due t = decide (t ≤ now) := by
  simp [solo, Plant.due, Clock.due, Clock.alarm, still.resolution]

/-- A step of the run by which a phase is entered and nothing is made known. -/
theorem solo_told {w : Wait} (reply : Singleton.Reply)
    (answer : (solo base c ⟨token, phase, some w⟩ now).reply?
      { c with runs := [⟨token, phase, some w⟩] } ⟨token, phase, some w⟩ w =
        some (.ok (solo base c ⟨token, phase, some w⟩ now, reply)))
    (next : phase.next c.config reply = phase') (silent : phase.announcement phase' = none)
    (unmetered : phase.gauge phase' = none) :
    act (solo base c ⟨token, phase, some w⟩ now) (.step (.run 0 0)) =
      solo base c ⟨token, phase', none⟩ now := by
  have found : (solo base c ⟨token, phase, some w⟩ now).coordinators[0]? =
      some { c with runs := [⟨token, phase, some w⟩] } := rfl
  simp only [act, Plant.step?, Plant.stepRun, found, List.getElem?_cons_zero, answer,
    Option.map_some, Option.getD_some, Plant.enter, next, silent, unmetered]
  rfl

/-! ## Rests -/

theorem solo_ask_rest {period : Duration} (resting : phase.request c.config = .rest period) :
    act (solo base c ⟨token, phase, none⟩ now) (.step (.run 0 0)) =
      solo base c ⟨token, phase, some (.rest (now + period.nanoseconds))⟩ now := by
  simp [act, Plant.step?, Plant.stepRun, solo, Plant.ask, resting, Plant.keepWait,
    Plant.setCoordinator, Plant.now, Ambient.now]

theorem solo_elapsed (still : Still base token) {t : Nat} (due : t ≤ now)
    (next : phase.next c.config .elapsed = phase') (silent : phase.announcement phase' = none)
    (unmetered : phase.gauge phase' = none) :
    act (solo base c ⟨token, phase, some (.rest t)⟩ now) (.step (.run 0 0)) =
      solo base c ⟨token, phase', none⟩ now := by
  refine solo_told .elapsed ?_ next silent unmetered
  have going : (solo base c ⟨token, phase, some (.rest t)⟩ now).ambient.isCancelled token = false :=
    still.going
  simp [Plant.reply?, going, solo_due still, due]

/-- While the run rests, nothing can take a step. -/
theorem solo_stuck (still : Still base token) {t : Nat} (ahead : now < t) (task : Plant.Task) :
    (solo base c ⟨token, phase, some (.rest t)⟩ now).step? task = none := by
  cases task with
  | foreground => simp [Plant.step?, solo, still.foreground]
  | loop i l => simp [Plant.step?, Plant.stepLoop, solo, still.stations]
  | attempt i k => simp [Plant.step?, Plant.stepAttempt, solo, still.stations]
  | background b => simp [Plant.step?, solo, still.background]
  | departures => simp [Plant.step?, Plant.stepDepartures, solo, still.departures]
  | watcher w =>
      cases found : base.watchers[w]? with
      | none => simp [Plant.step?, Plant.stepWatcher, solo, found]
      | some watcher =>
          have going := still.watchers watcher (List.mem_of_getElem? found)
          simp only [Ambient.isCancelled] at going
          simp [Plant.step?, Plant.stepWatcher, solo, found, going, Ambient.isCancelled]
  | run i k =>
      have going : (solo base c ⟨token, phase, some (.rest t)⟩ now).ambient.isCancelled token =
          false := still.going
      have early : (solo base c ⟨token, phase, some (.rest t)⟩ now).due t = false := by
        simp [solo_due still, ahead]
      obtain _ | i := i
      · obtain _ | k := k
        · have found : (solo base c ⟨token, phase, some (.rest t)⟩ now).coordinators[0]? =
              some { c with runs := [⟨token, phase, some (.rest t)⟩] } := rfl
          simp [Plant.step?, Plant.stepRun, found, Plant.reply?, going, early]
        · simp [Plant.step?, Plant.stepRun, solo]
      · simp [Plant.step?, Plant.stepRun, solo]

/-- While the run rests, the clock may move on to the end of its rest. -/
theorem solo_onTime (still : Still base token) {t : Nat} (ahead : now < t) :
    OnTime (solo base c ⟨token, phase, some (.rest t)⟩ now) (.pass t) := by
  constructor
  · refine List.all_eq_true.mpr fun task _ => ?_
    simp [solo_stuck still ahead]
  · intro next alarm
    have wakes : (solo base c ⟨token, phase, some (.rest t)⟩ now).wakes = [t] := by
      simp [Plant.wakes, solo, still.stations, still.foreground, still.background,
        still.departures, Plant.waitWakes]
    have timer : (solo base c ⟨token, phase, some (.rest t)⟩ now).ambient.clock.alarm t = t := by
      simp [solo, Clock.alarm, still.resolution]
    have later : (solo base c ⟨token, phase, some (.rest t)⟩ now).now < t := ahead
    simp [Plant.nextAlarm?, wakes, timer, later] at alarm
    omega

theorem solo_pass (r : Run) {t : Nat} (ahead : now ≤ t) :
    act (solo base c r now) (.pass t) = solo base c r t := by
  simp [act, Plant.moveTo, solo, Clock.advanceTo, Plant.withAmbient, Nat.max_eq_right ahead]

/-- A run rests for as long as its phase says. -/
theorem rest_reaches (still : Still base token) {period : Duration}
    (resting : phase.request c.config = .rest period)
    (next : phase.next c.config .elapsed = phase') (silent : phase.announcement phase' = none)
    (unmetered : phase.gauge phase' = none) :
    Reaches (solo base c ⟨token, phase, none⟩ now)
      (solo base c ⟨token, phase', none⟩ (now + period.nanoseconds)) := by
  refine .trans (.step (.run 0 0) (solo_ask_rest resting)) ?_
  have elapsed {now t : Nat} (due : t ≤ now) :
      Reaches (solo base c ⟨token, phase, some (.rest t)⟩ now)
        (solo base c ⟨token, phase', none⟩ now) :=
    .step (.run 0 0) (solo_elapsed still due next silent unmetered)
  cases Nat.eq_zero_or_pos period.nanoseconds with
  | inl instant =>
      rw [instant]
      exact elapsed (Nat.le_refl _)
  | inr lasting =>
      have ahead : now < now + period.nanoseconds := Nat.lt_add_of_pos_right lasting
      refine .trans (.deed (.pass _) trivial (solo_onTime still ahead) ?_) (elapsed (Nat.le_refl _))
      exact solo_pass _ (Nat.le_of_lt ahead)

/-! ## Tries -/

variable {lease : LeaseHandle}

theorem solo_ask_renew (still : Still base token) (left : Backoff) :
    act (solo base c ⟨token, .renewing lease left, none⟩ now) (.step (.run 0 0)) =
      solo base c ⟨token, .renewing lease left,
        some (.locks {} now (some (now + c.config.renewTimeout.nanoseconds)))⟩ now := by
  have locks : base.locks = { base.locks with renewals := [] } := by rw [← still.renewals]
  simp [act, Plant.step?, Plant.stepRun, solo, Plant.ask, Phase.request, Plant.keepWait,
    Plant.setCoordinator, Plant.now, Ambient.now, still.renewals, Turn.next, Duration.zero, ← locks]

theorem solo_unrenewed (still : Still base token) {delay : Duration} {n : Nat}
    (deadline : Option Nat) :
    act (solo base c ⟨token, .renewing lease ⟨delay, n + 1⟩, some (.locks {} now deadline)⟩ now)
        (.step (.run 0 0)) =
      solo base c ⟨token, .pausing lease delay ⟨delay.double, n⟩, none⟩ now := by
  have refused : base.locks.renew {} now lease = .ok (base.locks, none) := by
    simp [Locks.renew, LeaseStore.renew, still.down]
  refine solo_told (.renewed none) ?_ rfl rfl rfl
  simp only [Plant.reply?, solo_due still, Nat.le_refl, decide_true, if_true]
  simp [Plant.callStore, solo, Plant.now, Ambient.now, refused, Except.map]

/-- A member whose store is down tries until no delay is left. -/
theorem tries_reach (still : Still base token) (n : Nat) (delay : Duration) (now : Nat) :
    ∃ delay', Reaches (solo base c ⟨token, .renewing lease ⟨delay, n⟩, none⟩ now)
      (solo base c ⟨token, .renewing lease ⟨delay', 0⟩, none⟩ (now + Backoff.span 0 n delay)) := by
  induction n generalizing delay now with
  | zero => exact ⟨delay, .refl _⟩
  | succ n ih =>
      obtain ⟨delay', later⟩ := ih delay.double (now + delay.nanoseconds)
      refine ⟨delay', .trans (.step (.run 0 0) (solo_ask_renew still _)) ?_⟩
      refine .trans (.step (.run 0 0) (solo_unrenewed still _)) ?_
      have paused : Reaches (solo base c ⟨token, .pausing lease delay ⟨delay.double, n⟩, none⟩ now)
          (solo base c ⟨token, .renewing lease ⟨delay.double, n⟩, none⟩
            (now + delay.nanoseconds)) :=
        rest_reaches still rfl rfl rfl rfl
      refine paused.trans ?_
      simpa [Backoff.span, Nat.add_assoc] using later

/-! ## Where leases are outlived -/

/-- A member that starts and stops at once. -/
def prompt (lockId : String) (config : SingletonConfig) : Relay.Member :=
  ⟨{ name := lockId, lockId := lockId }, config⟩

/-- The member gets its lease, and the store goes down. -/
def outage : List Deed := [.start 0 ⟨[1]⟩] ++ steps 0 0 4 ++ [.store (.unavailable true)]

/-- How the outage leaves everything but the member. -/
def afterOutage (lockId : String) (config : SingletonConfig) : Plant where
  ambient :=
    { clock := { resolution := 1 }
      cancellations := { issued := 4 }
      controller := { token := ⟨[0]⟩ }
      telemetry := { meters := [(.locked lockId, 1)] } }
  locks :=
    { store :=
        { leases := [(lockId, ⟨1, config.leasePeriod, config.leasePeriod.nanoseconds⟩)]
          issued := 1
          available := false } }
  doubles := [{ name := lockId, lockId := lockId }]
  watchers := [{ double := 0, token := ⟨[3, 2, 1]⟩ }]
  plays := [⟨0, "start", 0⟩]

/-- The member at the outage. -/
def holder (lockId : String) (config : SingletonConfig) : Coordinator where
  name := lockId
  lockId := lockId
  part := .double 0
  config := config
  state := .locked 1
  version := 1
  running := some 0

theorem afterOutage_still (lockId : String) (config : SingletonConfig) :
    Still (afterOutage lockId config) ⟨[2, 1]⟩ where
  resolution := rfl
  stations := rfl
  foreground := rfl
  background := rfl
  departures := rfl
  watchers w mem := by
    obtain rfl := List.mem_singleton.mp mem
    rfl
  going := rfl
  renewals := rfl
  down := rfl

theorem outage_eq (lockId : String) (config : SingletonConfig)
    (fits : config.leasePeriod.nanoseconds ≤ Instant.last) :
    run (begin { resolution := 1 } {} [prompt lockId config]) outage =
      solo (afterOutage lockId config) (holder lockId config)
        ⟨⟨[2, 1]⟩, .holding ⟨lockId, 1⟩, none⟩ 0 := by
  have expiry : Instant.plus? 0 config.leasePeriod = some config.leasePeriod.nanoseconds := by
    simp [Instant.plus?, fits]
  simp [begin, prompt, outage, steps, List.replicate, Relay.begin, Shift.rootToken,
    Shift.emptyPlant, Cancellations.root, Plant.withAmbient, act, Plant.beginStart,
    Coordinator.start, Ambient.child, Cancellations.child, Plant.setCoordinator, Plant.step?,
    Plant.stepRun, Plant.ask, Phase.request, Turn.next, Plant.now, Ambient.now, Plant.keepWait,
    Plant.reply?, Plant.due, Clock.due, Clock.alarm, Duration.zero, Plant.callStore, Locks.acquire,
    LeaseStore.acquire, expiry, Except.map, LeaseStore.live?, LeaseStore.find?, LeaseStore.put,
    Plant.enter, Phase.next, Phase.announcement, Phase.gauge, Plant.play, Plant.poll, Turn.answer,
    Plant.partReply, Except.isOk, Except.toBool, Coordinator.publish, Telemetry.gauge,
    Shift.onStore, Shift.withStore, LeaseStore.setAvailable, solo, afterOutage, holder]

/-- A member that cannot renew its lease is left with no delay. -/
theorem outage_reaches (lockId : String) (config : SingletonConfig)
    (fits : config.leasePeriod.nanoseconds ≤ Instant.last) :
    ∃ delay, Reaches (begin { resolution := 1 } {} [prompt lockId config])
      (solo (afterOutage lockId config) (holder lockId config)
        ⟨⟨[2, 1]⟩, .renewing ⟨lockId, 1⟩ ⟨delay, 0⟩, none⟩
        (config.renewInterval.nanoseconds +
          Backoff.span 0 config.renewRetries.toNat config.renewRetryDelay)) := by
  have still := afterOutage_still lockId config
  have down : Reaches (begin { resolution := 1 } {} [prompt lockId config])
      (solo (afterOutage lockId config) (holder lockId config)
        ⟨⟨[2, 1]⟩, .holding ⟨lockId, 1⟩, none⟩ 0) :=
    ⟨outage, by decide, by simp [outage, steps, List.replicate, Timely, OnTime],
      outage_eq lockId config fits⟩
  have held : Reaches
      (solo (afterOutage lockId config) (holder lockId config)
        ⟨⟨[2, 1]⟩, .holding ⟨lockId, 1⟩, none⟩ 0)
      (solo (afterOutage lockId config) (holder lockId config)
        ⟨⟨[2, 1]⟩, .renewing ⟨lockId, 1⟩ (Phase.delays config), none⟩
        (0 + config.renewInterval.nanoseconds)) :=
    rest_reaches still rfl rfl rfl rfl
  obtain ⟨delay, tried⟩ := tries_reach still config.renewRetries.toNat config.renewRetryDelay
    (0 + config.renewInterval.nanoseconds)
  exact ⟨delay, by simpa using (down.trans held).trans tried⟩

/-- A member is shown as locked and has its part at work, and another could get the lock. -/
def Outlives (p : Plant) : Prop :=
  ∃ (i k : Nat) (c : Coordinator) (r : Run) (serial : Nat), p.At i k c r ∧ r.isInCharge = true ∧
    c.state = .locked serial ∧ p.locks.store.holder? p.now c.lockId ≠ some serial

/-- What a run has in hand is a lease that could be had. -/
def Fits (p : Plant) : Prop :=
  ∀ ⦃i k : Nat⦄ ⦃c : Coordinator⦄ ⦃r : Run⦄ ⦃lease : LeaseHandle⦄, p.At i k c r →
    r.phase.lease? = some lease → c.config.leasePeriod.nanoseconds ≤ Instant.last

theorem act_fits {p : Plant} (manned : p.Manned) (fits : Fits p) (d : Deed) : Fits (act p d) := by
  intro i k c' r' lease there held
  obtain ⟨c, here, alike⟩ | ⟨acquiring, _⟩ | ⟨c, r, here, alike, moved⟩ :=
    (act_change manned d).run there
  · rw [alike.config]
    exact fits here held
  · simp [acquiring, Phase.lease?] at held
  · rw [alike.config]
    cases moved with
    | asked | broke => exact fits here held
    | told waiting told =>
        obtain old | ⟨acquiring, granted⟩ := told.moves.of_lease? held
        · exact fits here old
        · rw [acquiring, granted] at told
          cases told with
          | acquired _ acquired =>
              have expiry := Locks.acquire_fits _ _ _ _ _ acquired
              omega

theorem run_fits {p : Plant} (manned : p.Manned) (fits : Fits p) (deeds : List Deed) :
    Fits (run p deeds) := by
  induction deeds generalizing p with
  | nil => exact fits
  | cons d rest ih => exact ih (act_manned manned d) (act_fits manned fits d)

/-- With some timing, a lease is outlived in some fleet whose parts start and stop at once, and
before the last round of all time, if and only if the lease period is no longer than the renewal
interval and all delays between tries together, and such a lease can be had. -/
theorem outlived_iff (config : SingletonConfig) :
    (∃ (members : List Relay.Member) (p : Plant),
      (∀ member ∈ members, member.config = config ∧
        (∀ turn ∈ member.double.starts, turn.delay.nanoseconds = 0) ∧
        (∀ turn ∈ member.double.stops, turn.delay.nanoseconds = 0)) ∧
      Reaches (begin { resolution := 1 } {} members) p ∧
      InTime (fun _ config => config.renewInterval.nanoseconds +
        Backoff.span 0 config.renewRetries.toNat config.renewRetryDelay) p ∧ Outlives p) ↔
    config.leasePeriod.nanoseconds ≤ config.renewInterval.nanoseconds +
      Backoff.span 0 config.renewRetries.toNat config.renewRetryDelay ∧
    config.leasePeriod.nanoseconds ≤ Instant.last := by
  constructor
  · rintro ⟨members, _, prompt, ⟨deeds, fair, timely, rfl⟩, inTime, outlives⟩
    obtain ⟨i, k, c, r, serial, here, charge, locked, lost⟩ := outlives
    have manned := begin_manned { resolution := 1 } {} members
    constructor
    · refine Nat.le_of_not_lt fun short => ?_
      refine lost (shown_lease_is_live { resolution := 1 } members (fun _ => 0) (fun _ => 0) deeds
        Nat.one_pos ?_ fair timely (by simpa using inTime) here.1 locked)
      intro i member found
      obtain ⟨rfl, starts, stops⟩ := prompt member (List.mem_of_getElem? found)
      exact ⟨fun turn mem => Nat.le_of_eq (starts turn mem),
        fun turn mem => Nat.le_of_eq (stops turn mem),
        by simpa using short⟩
    · obtain ⟨c₀, found₀, alike⟩ := run_found manned here.coordinator
      obtain ⟨member, mem, rfl⟩ := begin_coordinator found₀
      obtain rfl := (prompt member (List.mem_of_getElem? mem)).1
      obtain ⟨lease, held⟩ := Run.lease_of_isInCharge charge
      rw [← show c.config = member.config from alike.config]
      exact run_fits manned (fun _ _ _ _ _ here => absurd here begin_no_runs) deeds here held
  · rintro ⟨long, fits⟩
    obtain ⟨delay, reached⟩ := outage_reaches "report" config fits
    refine ⟨[prompt "report" config], _, ?_, reached, .of_going ?_, 0, 0, _, _, 1, ⟨rfl, rfl⟩,
      rfl, rfl, ?_⟩
    · intro member mem
      obtain rfl := List.mem_singleton.mp mem
      exact ⟨rfl, nofun, nofun⟩
    · simp [solo, Run.overflow?]
    · simp [solo, afterOutage, holder, LeaseStore.holder?, LeaseStore.live?, LeaseStore.find?,
        Lease.isLive, Plant.now, Ambient.now, Nat.not_lt.mpr long]

/-- Valid timing, with two delays that add up to more than a lease lasts. -/
def hasty : SingletonConfig where
  leasePeriod := .ofMilliseconds 1000
  renewInterval := .ofMilliseconds 400
  pollInterval := .ofMilliseconds 300
  renewRetries := 2
  renewRetryDelay := .ofMilliseconds 400
  renewTimeout := .ofMilliseconds 200

/-- A member gets the lock and cannot renew its lease; another polls until it has the lock. -/
def takeover : List Deed :=
  [.start 0 ⟨[1]⟩] ++ steps 0 0 5 ++ [.pass 20000000, .start 1 ⟨[1]⟩] ++ steps 1 0 3 ++
    [.store (.failNextRenewals 9), .pass 320000000] ++ steps 1 0 4 ++ [.pass 400000000] ++
    steps 0 0 4 ++ [.pass 620000000] ++ steps 1 0 4 ++ [.pass 800000000] ++ steps 0 0 4 ++
    [.pass 920000000] ++ steps 1 0 4 ++ [.pass 1220000000] ++ steps 1 0 6

/-- Two members have their parts at work and are shown as locked, each under a lease of its own. -/
theorem outlived_by_another :
    let start := begin { resolution := 1 } {} [prompt "report" hasty, prompt "report" hasty]
    let p := run start takeover
    hasty.validate = .ok () ∧ (∀ d ∈ takeover, Deed.IsFair true d) ∧ Timely start takeover ∧
      p.coordinators.map (·.state) = [.locked 1, .locked 2] ∧
      p.coordinators.map (·.runs.map Run.isInCharge) = [[true], [true]] ∧
      p.locks.store.holder? p.now "report" = some 2 :=
  ⟨rfl, by decide +kernel⟩

end Fleet

end Courier
