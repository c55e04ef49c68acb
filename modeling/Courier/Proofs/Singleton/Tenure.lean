import Courier.Proofs.Singleton.Fleet
import Courier.Proofs.Singleton.Pace

/-!
# Tenures

A run that has a lease in hand holds the one lease that the store keeps for its lock, and holds it
for as long as it may need to stop its part and to give the lease back. `Tenure` says so of all runs
of a fleet that keeps its pace. Deeds on time preserve it as long as nobody breaks a lease: while a
run waits the lease lasts beyond the end of the wait and of all that may follow it, and a run that
acts on the store leaves the leases of the others alone, since no two runs have the same one.

A run whose renewal broke off does nothing any more, and keeps its lease as it is. That renewal
would have been past the last instant, so the lease that the run has ends less than a round before
that.

From it follow that of all runs for one lock at most one is in charge, and that what is shown as
locked is held.
-/

namespace Courier

open Courier.Singleton (Phase Request Reply LockState Happening)

/-- A wait for the store is for a call that goes through, and the call is not given up before. -/
def Wait.IsPlain : Wait → Prop
  | .locks turn t deadline => turn = {} ∧ ∀ d ∈ deadline, t ≤ d
  | _ => True

/-- When the wait of a run is over at the latest. -/
def Pace.limit (q : Pace) (i : Nat) (config : SingletonConfig) (now : Nat) (r : Run) : Nat :=
  match r.wait with
  | none => now + q.hold i config r.phase + q.lag
  | some w => w.dueAt + q.lag

/-- Locks whose calls all reach the store at once, and of which renewals fail only where that is to
be expected. -/
structure Locks.IsPlain (shaky : Bool) (l : Locks) : Prop where
  acquires : l.acquires = []
  renewals : l.renewals = []
  releases : l.releases = []
  sure : shaky = false → l.store.available = true ∧ l.store.failingRenewals = 0

/-- Whether there is time for one more round wherever a renewal broke off. -/
def Fleet.InTime (round : Nat → SingletonConfig → Nat) (p : Plant) : Prop :=
  ∀ ⦃i k : Nat⦄ ⦃c : Coordinator⦄ ⦃r : Run⦄ ⦃lease : LeaseHandle⦄ ⦃left : Backoff⦄ ⦃o : Overflow⦄,
    p.At i k c r → r.phase = .renewing lease left → r.wait = some (.broken o) →
    p.now + round i c.config ≤ Instant.last

/-- Where nothing broke off there is nothing to have time for. -/
theorem Fleet.InTime.of_going {round : Nat → SingletonConfig → Nat} {p : Plant}
    (going : ∀ c ∈ p.coordinators, ∀ r ∈ c.runs, r.overflow? = none) : InTime round p := by
  intro i k c r lease left o here _ broken
  have none := going c (List.mem_of_getElem? here.coordinator) r (List.mem_of_getElem? here.run)
  simp [Run.overflow?, broken] at none

/-- A fleet that keeps a pace, with timing that fits it. -/
structure Paced (q : Pace) (p : Plant) : Prop where
  manned : p.Manned
  resolution : 0 < p.ambient.clock.resolution
  lag : p.ambient.clock.resolution ≤ q.lag + 1
  locks : p.locks.IsPlain q.shaky
  parts : ∀ {i d : Nat} {c : Coordinator} {double : Double}, p.coordinators[i]? = some c →
    c.part = .double d → p.doubles[d]? = some double →
    (∀ turn ∈ double.starts, turn.delay.nanoseconds ≤ q.start i) ∧
      ∀ turn ∈ double.stops, turn.delay.nanoseconds ≤ q.stop i
  span : ∀ {i : Nat} {c : Coordinator}, p.coordinators[i]? = some c →
    q.span i c.config < c.config.leasePeriod.nanoseconds
  inTime : Fleet.InTime q.span p

/-- Whether a lease that ends at an instant is long enough for a run: until the run has given it
back, or for almost all the time there is. -/
structure Pace.Covers (q : Pace) (i : Nat) (config : SingletonConfig) (now : Nat) (r : Run)
    (expiry : Nat) : Prop where
  /-- Of the time since the lease was last renewed not more has passed than is meant for it. -/
  going : (∀ o, r.wait ≠ some (.broken o)) →
    q.limit i config now r + q.after i config r.phase + config.leasePeriod.nanoseconds ≤
      expiry + q.span i config
  broken : ∀ o, r.wait = some (.broken o) → Instant.last < expiry + q.span i config

/-- The lease in the hands of a run is the one in the store, and it lasts until it is given back. -/
def Lasts (q : Pace) (i : Nat) (s : LeaseStore) (now : Nat) (c : Coordinator) (r : Run)
    (lease : LeaseHandle) : Prop :=
  lease.lockId = c.lockId ∧ ∃ l, s.find? c.lockId = some l ∧ l.serial = lease.serial ∧
    l.period = c.config.leasePeriod ∧ q.Covers i c.config now r l.expiresAt

/-- What a coordinator shows as locked is held in one of its runs. -/
def Coordinator.IsCandid (c : Coordinator) : Prop :=
  ∀ serial, c.state = .locked serial → ∃ (k : Nat) (r : Run) (lease : LeaseHandle),
    c.runs[k]? = some r ∧ r.phase.lease? = some lease ∧ lease.serial = serial

/-- What holds in a fleet that keeps its pace. -/
structure Tenure (q : Pace) (p : Plant) : Prop where
  paced : Paced q p
  prompt : ∀ {i k : Nat} {c : Coordinator} {r : Run} {w : Wait}, p.At i k c r →
    r.wait = some w → (∀ o, w ≠ .broken o) → p.now ≤ w.dueAt + q.lag ∧ w.IsPlain
  lasts : ∀ {i k : Nat} {c : Coordinator} {r : Run} {lease : LeaseHandle}, p.At i k c r →
    r.phase.lease? = some lease → Lasts q i p.locks.store p.now c r lease
  issued : ∀ {i k : Nat} {c : Coordinator} {r : Run} {lease : LeaseHandle}, p.At i k c r →
    r.phase.lease? = some lease → lease.serial ≤ p.locks.store.issued
  apart : ∀ {i k j l : Nat} {c d : Coordinator} {r s : Run} {lease lease' : LeaseHandle},
    p.At i k c r → p.At j l d s → r.phase.lease? = some lease → s.phase.lease? = some lease' →
    lease.serial = lease'.serial → (i, k) = (j, l)
  shown : ∀ {i : Nat} {c : Coordinator}, p.coordinators[i]? = some c → c.IsCandid

variable {q : Pace} {p p' : Plant} {i k : Nat} {c c' : Coordinator} {r : Run} {w : Wait}
  {lease : LeaseHandle}

/-! ## Waiting -/

namespace Paced

theorem alarm_le (paced : Paced q p) (t : Nat) : p.ambient.clock.alarm t ≤ t + q.lag := by
  have alarm := p.ambient.clock.alarm_le t
  have lag := paced.lag
  omega

/-- What a run asks for is done in the time of its phase. -/
theorem asked (paced : Paced q p) (found : p.coordinators[i]? = some c) {phase : Phase}
    (asked : p.Asked c phase w) :
    p.now ≤ w.dueAt ∧ w.dueAt ≤ p.now + q.hold i c.config phase ∧ w.IsPlain := by
  cases asked with
  | acquire | release =>
      simp [paced.locks.acquires, paced.locks.releases, Turn.next, Wait.dueAt, Wait.IsPlain,
        Duration.zero]
  | renew lease left =>
      simp [paced.locks.renewals, Turn.next, Wait.dueAt, Wait.IsPlain, Duration.zero]
  | @start d double lease token part doubled =>
      refine ⟨Nat.le_add_right _ _, ?_, trivial⟩
      have delay : (Turn.next double.starts).1.delay.nanoseconds ≤ q.start i := by
        obtain plain | planned := Turn.next_mem double.starts
        · simp [plain, Duration.zero]
        · exact (paced.parts found part doubled).1 _ planned
      exact Nat.add_le_add_left delay _
  | @stop d double lease ending part doubled =>
      refine ⟨Nat.le_add_right _ _, ?_, trivial⟩
      have delay : (Turn.next double.stops).1.delay.nanoseconds ≤ q.stop i := by
        obtain plain | planned := Turn.next_mem double.stops
        · simp [plain, Duration.zero]
        · exact (paced.parts found part doubled).2 _ planned
      exact Nat.add_le_add_left delay _
  | rest resting =>
      refine ⟨Nat.le_add_right _ _, ?_, trivial⟩
      cases phase <;> simp only [Phase.request, Request.rest.injEq, reduceCtorEq] at resting
      all_goals
        subst resting
        exact Nat.le_refl _

end Paced

/-! ## The store after a reply -/

namespace Plant.Told

variable {token : CancelToken} {phase : Phase} {reply : Reply} {locks : Locks}

theorem moves (told : p.Told c token phase w reply locks) :
    Phase.Moves c.config phase reply (phase.next c.config reply)
      (phase.announcement (phase.next c.config reply)) :=
  Phase.next_moves told.answers

/-- Nobody else's lease is touched. -/
theorem find?_other (told : p.Told c token phase w reply locks) (plain : w.IsPlain) {id : String}
    {l : Lease} (live : p.locks.store.live? p.now id = some l)
    (other : ∀ lease, phase.lease? = some lease → lease.lockId = id → lease.serial ≠ l.serial) :
    locks.store.find? id = some l := by
  have found := (LeaseStore.live?_eq_some.mp live).1
  cases told with
  | acquired _ acquired =>
      obtain ⟨rfl, _⟩ := plain
      obtain ⟨rfl, -⟩ := Locks.acquire_plain _ _ _ _ acquired
      exact LeaseStore.find?_acquire live _ _
  | renewed _ renewed =>
      obtain ⟨rfl, _⟩ := plain
      obtain ⟨rfl, -⟩ := Locks.renew_plain _ _ _ renewed
      exact LeaseStore.find?_renew_other found (other _ rfl)
  | released =>
      obtain ⟨rfl, _⟩ := plain
      rw [Locks.release_plain]
      exact LeaseStore.find?_release_other found (other _ rfl)
  | started | elapsed | cancelled | late | stopped => exact found

/-- A lease that a run acquires is new, and lasts for its period. -/
theorem find?_acquired (told : p.Told c token phase w reply locks) (plain : w.IsPlain)
    (acquired : reply = .acquired (some lease)) :
    lease = ⟨c.lockId, p.locks.store.issued + 1⟩ ∧
      locks.store.issued = p.locks.store.issued + 1 ∧ locks.store.find? c.lockId =
        some ⟨p.locks.store.issued + 1, c.config.leasePeriod,
          p.now + c.config.leasePeriod.nanoseconds⟩ := by
  cases told with
  | acquired _ taken =>
      obtain ⟨rfl, _⟩ := plain
      obtain ⟨rfl, rfl⟩ := Locks.acquire_plain _ _ _ _ taken
      obtain ⟨_, given⟩ | ⟨_, refused⟩ :=
        p.locks.store.acquire_cases p.now c.lockId c.config.leasePeriod
      · rw [given] at acquired ⊢
        have same : ⟨c.lockId, p.locks.store.issued + 1⟩ = lease := by
          simpa [Except.toOption] using acquired
        exact ⟨same.symm, rfl, LeaseStore.find?_put _ _ _⟩
      · have answer : (p.locks.store.acquire p.now c.lockId c.config.leasePeriod).2 =
            .ok (some lease) := by
          revert acquired
          cases (p.locks.store.acquire p.now c.lockId c.config.leasePeriod).2 <;>
            simp [Except.toOption]
        exact absurd answer (refused lease)
  | _ => simp at acquired

/-- A lease in hand is renewed, or stays as it was until it is given back. -/
theorem find?_own (told : p.Told c token phase w reply locks) (plain : w.IsPlain) {l : Lease}
    (held : phase.lease? = some lease) (here : lease.lockId = c.lockId)
    (found : p.locks.store.find? c.lockId = some l) (own : lease.serial = l.serial)
    (kept : (phase.next c.config reply).lease? = some lease) :
    (reply = .renewed (some true) ∧ locks.store.find? c.lockId =
      some { l with expiresAt := p.now + l.period.nanoseconds }) ∨
      (reply ≠ .renewed (some true) ∧ locks.store.find? c.lockId = some l) := by
  cases told with
  | acquired => simp [Phase.lease?] at held
  | @renewed lease' left turn t deadline _ _ _ told =>
      obtain ⟨rfl, _⟩ := plain
      obtain rfl : lease' = lease := Option.some.inj held
      obtain ⟨rfl, rfl, -⟩ := Locks.renew_plain _ _ _ told
      obtain ⟨good, renewed⟩ | ⟨bad, same⟩ :=
        LeaseStore.find?_renew_own found here own
      · exact .inl ⟨by simp [good, Except.toOption], renewed⟩
      · refine .inr ⟨?_, same⟩
        revert bad
        cases (p.locks.store.renew p.now lease').2 <;> simp [Except.toOption]
  | @released lease' ending =>
      cases ending <;> simp [Phase.next, Phase.lease?] at kept
  | _ => exact .inr ⟨by simp, found⟩

theorem aside (told : p.Told c token phase w reply locks) (plain : w.IsPlain) :
    p.locks.store.issued ≤ locks.store.issued ∧
      locks.store.available = p.locks.store.available ∧
      (p.locks.store.failingRenewals = 0 → locks.store.failingRenewals = 0) := by
  cases told with
  | acquired _ acquired =>
      obtain ⟨rfl, _⟩ := plain
      obtain ⟨rfl, -⟩ := Locks.acquire_plain _ _ _ _ acquired
      obtain ⟨issued, available, failing⟩ :=
        p.locks.store.acquire_aside p.now c.lockId c.config.leasePeriod
      exact ⟨issued, available, failing.trans⟩
  | @renewed lease _ _ _ _ _ _ _ renewed =>
      obtain ⟨rfl, _⟩ := plain
      obtain ⟨rfl, -⟩ := Locks.renew_plain _ _ _ renewed
      obtain ⟨issued, available, failing⟩ := p.locks.store.renew_aside p.now lease
      exact ⟨Nat.le_of_eq issued.symm, available, failing⟩
  | @released lease =>
      obtain ⟨rfl, _⟩ := plain
      obtain ⟨issued, available, failing⟩ := p.locks.store.release_aside lease
      rw [Locks.release_plain]
      exact ⟨Nat.le_of_eq issued.symm, available, failing.trans⟩
  | _ => exact ⟨Nat.le_refl _, rfl, id⟩

end Plant.Told

namespace Tenure

variable {token : CancelToken} {reply : Reply} {locks : Locks}

/-! ## Runs that take a reply -/

theorem now_le_limit (tenure : Tenure q p) (here : p.At i k c r)
    (going : ∀ o, r.wait ≠ some (.broken o)) : p.now ≤ q.limit i c.config p.now r := by
  unfold Pace.limit
  split
  · omega
  · rename_i w waiting
    exact (tenure.prompt here waiting fun o broken => going o (broken ▸ waiting)).1

/-- A lease in hand is live. -/
theorem live (tenure : Tenure q p) (here : p.At i k c r) (held : r.phase.lease? = some lease) :
    ∃ l, p.locks.store.live? p.now c.lockId = some l ∧ l.serial = lease.serial := by
  obtain ⟨_, l, found, own, _, covers⟩ := tenure.lasts here held
  suffices lasts : p.now < l.expiresAt from ⟨l, LeaseStore.live?_eq_some.mpr ⟨found, lasts⟩, own⟩
  by_cases going : ∀ o, r.wait ≠ some (.broken o)
  · have span := tenure.paced.span here.coordinator
    have inTime := tenure.now_le_limit here going
    have enough := covers.going going
    omega
  · obtain ⟨o, broken⟩ : ∃ o, r.wait = some (.broken o) := by simpa using going
    have enough := covers.broken o broken
    obtain ⟨left, renewing⟩ : ∃ left, r.phase = .renewing lease left := by
      have suits := tenure.paced.manned.waits here broken
      generalize r.phase = phase at suits held
      cases suits with
      | brokenAcquire => simp [Phase.lease?] at held
      | brokenRenewal lease' left => exact ⟨left, by rw [Option.some.inj held]⟩
    have inTime := tenure.paced.inTime here renewing broken
    omega

/-- Renewals fail only where that is to be expected. -/
theorem sure (tenure : Tenure q p) (here : p.At i k c r) (waiting : r.wait = some w)
    (told : p.Told c r.token r.phase w reply locks) (failed : reply = .renewed none) :
    q.shaky = true := by
  refine Bool.not_eq_false _ ▸ fun steady => ?_
  obtain ⟨available, failing⟩ := tenure.paced.locks.sure steady
  have plain := (tenure.prompt here waiting fun _ => told.unbroken).2
  have live lease (held : r.phase.lease? = some lease) := tenure.live here held
  have lasts lease (held : r.phase.lease? = some lease) := tenure.lasts here held
  generalize r.phase = phase at told live lasts
  cases told with
  | @renewed lease left turn t deadline _ _ _ renewed =>
      obtain ⟨rfl, _⟩ := plain
      obtain ⟨l, live, own⟩ := live lease rfl
      have renews := LeaseStore.renew_live live available failing (lasts lease rfl).1 own.symm
      obtain ⟨-, rfl, unbroken⟩ := Locks.renew_plain _ _ _ renewed
      split at renews
      · simp [renews, Except.toOption] at failed
      · exact unbroken _ renews
  | @late lease left turn t deadline early late =>
      have before : t ≤ deadline := plain.2 _ rfl
      have mono := p.ambient.clock.alarm_mono before
      simp only [Plant.due, Clock.due, decide_eq_true_eq, decide_eq_false_iff_not] at early late
      omega
  | _ => simp at failed

/-- Upon entering a phase, a lease has to last for what the phase costs. -/
theorem covers_next {now expiry : Nat} {phase : Phase} {config : SingletonConfig}
    (enough : now + q.cost i config phase + config.leasePeriod.nanoseconds ≤
      expiry + q.span i config) :
    q.Covers i config now { r with phase := phase, wait := none } expiry where
  going _ := by
    simp only [Pace.limit, Pace.cost] at enough ⊢
    omega
  broken := nofun

/-- After a reply a run has its lease for as long as it may need it. -/
theorem told_lasts (tenure : Tenure q p) (here : p.At i k c r) (waiting : r.wait = some w)
    (told : p.Told c r.token r.phase w reply locks)
    (kept : (r.phase.next c.config reply).lease? = some lease) :
    Lasts q i locks.store p.now c { r with phase := r.phase.next c.config reply, wait := none }
      lease := by
  have plain := (tenure.prompt here waiting fun _ => told.unbroken).2
  have fresh (fresh : reply = .acquired (some lease) ∨ reply = .renewed (some true)) :
      q.cost i c.config (r.phase.next c.config reply) ≤ q.span i c.config :=
    Pace.cost_fresh_le told.moves fresh
  obtain held | ⟨_, acquired⟩ := told.moves.of_lease? kept
  · obtain ⟨lockId, l, found, own, period, covers⟩ := tenure.lasts here held
    obtain ⟨renewed, found'⟩ | ⟨unrenewed, found'⟩ :=
      told.find?_own plain held lockId found own.symm kept
    · refine ⟨lockId, _, found', own, period, covers_next ?_⟩
      have enough := fresh (.inr renewed)
      simp only [period]
      omega
    · refine ⟨lockId, l, found', own, period, covers_next ?_⟩
      have less := Pace.cost_next_le (q := q) (i := i) told.moves held kept unrenewed
        (tenure.sure here waiting told)
      have enough := covers.going fun o broken =>
        told.unbroken (Option.some.inj (waiting.symm.trans broken))
      have prompt := (tenure.prompt here waiting fun _ => told.unbroken).1
      simp only [Pace.limit, waiting] at enough
      omega
  · obtain ⟨rfl, _, found⟩ := told.find?_acquired plain acquired
    refine ⟨rfl, _, found, rfl, rfl, covers_next ?_⟩
    have enough := fresh (.inl acquired)
    simp only
    omega

/-- A renewal breaks off where the lease would end past the last instant. -/
theorem broke_past {o : Overflow} {l : Lease} (tenure : Tenure q p) (here : p.At i k c r)
    (held : r.phase.lease? = some lease) (waiting : r.wait = some w)
    (broke : p.Broke c r.phase w o) (found : p.locks.store.find? c.lockId = some l) :
    Instant.last < p.now + l.period.nanoseconds := by
  have lockId := (tenure.lasts here held).1
  generalize r.phase = phase at held broke
  cases broke with
  | acquire => simp [Phase.lease?] at held
  | renew _ broken =>
      obtain rfl := Option.some.inj held
      obtain ⟨l', live, past⟩ := LeaseStore.renew_overflow (Locks.renew_broke _ _ _ _ broken)
      rw [lockId] at live
      obtain rfl := Option.some.inj (found.symm.trans (LeaseStore.live?_eq_some.mp live).1)
      exact past

/-- When a run takes a reply, the leases of all others stay as they are. -/
theorem told_lasts_other (tenure : Tenure q p) (here : p.At i k c r) (waiting : r.wait = some w)
    (told : p.Told c r.token r.phase w reply locks) {j l : Nat} {d : Coordinator} {s : Run}
    (there : p.At j l d s) (other : (j, l) ≠ (i, k)) (held : s.phase.lease? = some lease) :
    Lasts q j locks.store p.now d s lease := by
  obtain ⟨lockId, x, found, own, period, lasts⟩ := tenure.lasts there held
  obtain ⟨y, live, _⟩ := tenure.live there held
  obtain rfl : y = x := Option.some.inj ((LeaseStore.live?_eq_some.mp live).1.symm.trans found)
  have prompt := (tenure.prompt here waiting fun _ => told.unbroken).2
  refine ⟨lockId, y, told.find?_other prompt live ?_, own, period, lasts⟩
  intro lease' held' _ same
  exact other (tenure.apart there here held held' (own.symm.trans same.symm))

/-! ## What is shown -/

theorem candid_same (candid : c.IsCandid) (state : c'.state = c.state)
    (runs : ∀ {k : Nat} {r : Run}, c.runs[k]? = some r → c'.runs[k]? = some r) : c'.IsCandid := by
  intro serial locked
  obtain ⟨k, r, lease, run, held⟩ := candid serial (state ▸ locked)
  exact ⟨k, r, lease, runs run, held⟩

/-- A coordinator stays candid when a run of it keeps its lease or when something else than a lease
is made known. -/
theorem candid_setRun (candid : c.IsCandid) (run : c.runs[k]? = some r) {r' : Run}
    (runs : c'.runs = c.runs.set k r') (state : c'.state = c.state)
    (keeps : ∀ lease, r.phase.lease? = some lease → r'.phase.lease? = some lease) :
    c'.IsCandid := by
  intro serial locked
  obtain ⟨l, s, lease, there, held, own⟩ := candid serial (state ▸ locked)
  by_cases same : l = k
  · subst same
    obtain rfl := Option.some.inj (run.symm.trans there)
    refine ⟨l, r', lease, ?_, keeps lease held, own⟩
    rw [runs]
    exact List.getElem?_set_self (List.getElem?_eq_some_iff.mp run).1
  · refine ⟨l, s, lease, ?_, held, own⟩
    rw [runs]
    exact (List.getElem?_set_ne (Ne.symm same)).trans there

theorem candid_told (candid : c.IsCandid) (run : c.runs[k]? = some r)
    (told : p.Told c r.token r.phase w reply locks) : (c.told k r reply).IsCandid := by
  obtain ⟨shows, keeps⟩ := told.moves.shows
  cases shown : r.phase.announcement (r.phase.next c.config reply) with
  | none =>
      refine candid_setRun candid run (Coordinator.told_runs _ _ _ _) ?_ (keeps shown)
      simp [shown]
  | some state =>
      intro serial locked
      rw [Coordinator.told_state, shown, Option.getD_some] at locked
      obtain ⟨lease, held, own⟩ := shows serial (shown.trans (congrArg some locked))
      refine ⟨k, { r with phase := r.phase.next c.config reply, wait := none }, lease, ?_, held,
        own⟩
      rw [Coordinator.told_runs]
      exact List.getElem?_set_self (List.getElem?_eq_some_iff.mp run).1

/-! ## Deeds -/

/-- Leases stay apart where each of them was there before, but for a new one that one run has. -/
theorem apart_next (tenure : Tenure q p) {i k : Nat}
    (origin : ∀ {j l : Nat} {c : Coordinator} {r : Run} {lease : LeaseHandle}, p'.At j l c r →
      r.phase.lease? = some lease →
      (∃ c r, p.At j l c r ∧ r.phase.lease? = some lease) ∨
        (j, l) = (i, k) ∧ p.locks.store.issued < lease.serial)
    {j l m n : Nat} {c d : Coordinator} {r s : Run} {lease lease' : LeaseHandle}
    (here : p'.At j l c r) (there : p'.At m n d s) (held : r.phase.lease? = some lease)
    (held' : s.phase.lease? = some lease') (same : lease.serial = lease'.serial) :
    (j, l) = (m, n) := by
  obtain ⟨c₀, r₀, here₀, held₀⟩ | ⟨first, new⟩ := origin here held
  · obtain ⟨d₀, s₀, there₀, held₀'⟩ | ⟨_, new'⟩ := origin there held'
    · exact tenure.apart here₀ there₀ held₀ held₀' same
    · have issued := tenure.issued here₀ held₀
      omega
  · obtain ⟨d₀, s₀, there₀, held₀'⟩ | ⟨second, _⟩ := origin there held'
    · have issued := tenure.issued there₀ held₀'
      omega
    · exact first.trans second.symm

theorem lasts_alike {s : LeaseStore} {now : Nat} (lasts : Lasts q i s now c r lease)
    (alike : c'.Alike c) : Lasts q i s now c' r lease := by
  unfold Lasts
  rw [alike.lockId, alike.config]
  exact lasts

/-- A run that asks for something has what it needs. -/
theorem asked (tenure : Tenure q p) (paced' : Paced q p') (here : p.At i k c r)
    (waitless : r.wait = none) (asked : p.Asked c r.phase w) (frame : p.Frame p')
    (changed : p'.coordinators = p.coordinators.set i (c.setRun k { r with wait := some w }))
    (store : p'.locks.store = p.locks.store) : Tenure q p' := by
  have now : p'.now = p.now := congrArg Clock.now frame.clock
  obtain ⟨soon, inTime, plain⟩ := tenure.paced.asked here.coordinator asked
  have alike := c.setRun_alike k { r with wait := some w }
  have origin {j l : Nat} {c' : Coordinator} {r' : Run} (there : p'.At j l c' r') :=
    here.of_set changed rfl alike there
  refine ⟨paced', ?_, ?_, ?_, tenure.apart_next (i := i) (k := k) ?_, ?_⟩
  · intro j l c' r' w' there waiting
    obtain ⟨rfl, rfl, rfl, rfl⟩ | ⟨_, d, old, _⟩ := origin there
    · obtain rfl := Option.some.inj waiting
      exact fun _ => ⟨by omega, plain⟩
    · exact now ▸ tenure.prompt old waiting
  · intro j l c' r' lease there held
    rw [store, now]
    obtain ⟨rfl, rfl, rfl, rfl⟩ | ⟨_, d, old, alike⟩ := origin there
    · obtain ⟨lockId, x, found, own, period, covers⟩ := tenure.lasts here held
      refine ⟨lockId, x, found, own, period, fun _ => ?_, fun o broken => ?_⟩
      · have enough := covers.going (by simp [waitless])
        simp only [Pace.limit, waitless] at enough
        simp only [Pace.limit, Coordinator.setRun]
        omega
      · exact absurd (Option.some.inj broken) (asked.unbroken o)
    · exact lasts_alike (tenure.lasts old held) alike
  · intro j l c' r' lease there held
    rw [store]
    obtain ⟨rfl, rfl, rfl, rfl⟩ | ⟨_, d, old, _⟩ := origin there
    · exact tenure.issued here held
    · exact tenure.issued old held
  · intro j l c' r' lease there held
    obtain ⟨rfl, rfl, rfl, rfl⟩ | ⟨_, d, old, _⟩ := origin there
    · exact .inl ⟨c, r, here, held⟩
    · exact .inl ⟨d, r', old, held⟩
  · intro j c' found
    obtain ⟨rfl, rfl⟩ | ⟨_, old⟩ := Plant.coordinators_of_set here.coordinator changed found
    · exact candid_setRun (tenure.shown here.coordinator) here.run rfl rfl fun _ held => held
    · exact tenure.shown old

/-- A run that takes a reply keeps what it needs. -/
theorem told (tenure : Tenure q p) (paced' : Paced q p') (here : p.At i k c r)
    (waiting : r.wait = some w) (told : p.Told c r.token r.phase w reply p'.locks)
    (frame : p.Frame p') (changed : p'.coordinators = p.coordinators.set i (c.told k r reply)) :
    Tenure q p' := by
  have now : p'.now = p.now := congrArg Clock.now frame.clock
  have plain := (tenure.prompt here waiting fun _ => told.unbroken).2
  have issued := (told.aside plain).1
  have origin {j l : Nat} {c' : Coordinator} {r' : Run} (there : p'.At j l c' r') :=
    here.of_set changed (c.told_runs k r reply) (c.told_alike k r reply) there
  have acquired {lease : LeaseHandle}
      (held : (r.phase.next c.config reply).lease? = some lease) :
      r.phase.lease? = some lease ∨ p.locks.store.issued < lease.serial ∧
        lease.serial ≤ p'.locks.store.issued := by
    obtain held | ⟨_, new⟩ := told.moves.of_lease? held
    · exact .inl held
    · obtain ⟨rfl, next, _⟩ := told.find?_acquired plain new
      exact .inr ⟨Nat.lt_succ_self _, Nat.le_of_eq next.symm⟩
  refine ⟨paced', ?_, ?_, ?_, tenure.apart_next (i := i) (k := k) ?_, ?_⟩
  · intro j l c' r' w' there waiting'
    obtain ⟨rfl, rfl, rfl, rfl⟩ | ⟨_, d, old, _⟩ := origin there
    · simp at waiting'
    · exact now ▸ tenure.prompt old waiting'
  · intro j l c' r' lease there held
    rw [now]
    obtain ⟨rfl, rfl, rfl, rfl⟩ | ⟨other, d, old, alike⟩ := origin there
    · exact lasts_alike (tenure.told_lasts here waiting told held) (c.told_alike l r reply)
    · exact lasts_alike (tenure.told_lasts_other here waiting told old other held) alike
  · intro j l c' r' lease there held
    obtain ⟨rfl, rfl, rfl, rfl⟩ | ⟨_, d, old, _⟩ := origin there
    · obtain held | ⟨_, within⟩ := acquired held
      · exact Nat.le_trans (tenure.issued here held) issued
      · exact within
    · exact Nat.le_trans (tenure.issued old held) issued
  · intro j l c' r' lease there held
    obtain ⟨rfl, rfl, rfl, rfl⟩ | ⟨_, d, old, _⟩ := origin there
    · obtain held | ⟨new, _⟩ := acquired held
      · exact .inl ⟨c, r, here, held⟩
      · exact .inr ⟨rfl, new⟩
    · exact .inl ⟨d, r', old, held⟩
  · intro j c' found
    obtain ⟨rfl, rfl⟩ | ⟨_, old⟩ := Plant.coordinators_of_set here.coordinator changed found
    · exact candid_told (tenure.shown here.coordinator) here.run told
    · exact tenure.shown old

/-- A run that breaks off keeps its lease. -/
theorem broke {o : Overflow} (tenure : Tenure q p) (paced' : Paced q p') (here : p.At i k c r)
    (waiting : r.wait = some w) (broke : p.Broke c r.phase w o) (frame : p.Frame p')
    (changed : p'.coordinators =
      p.coordinators.set i (c.setRun k { r with wait := some (.broken o) }))
    (locks : p'.locks = p.locks) : Tenure q p' := by
  have now : p'.now = p.now := congrArg Clock.now frame.clock
  have alike := c.setRun_alike k { r with wait := some (.broken o) }
  have origin {j l : Nat} {c' : Coordinator} {r' : Run} (there : p'.At j l c' r') :=
    here.of_set changed rfl alike there
  have going (o : Overflow) : r.wait ≠ some (.broken o) := fun broken =>
    broke.unbroken (Option.some.inj (waiting.symm.trans broken))
  refine ⟨paced', ?_, ?_, ?_, tenure.apart_next (i := i) (k := k) ?_, ?_⟩
  · intro j l c' r' w' there waiting' going'
    obtain ⟨rfl, rfl, rfl, rfl⟩ | ⟨_, d, old, _⟩ := origin there
    · exact absurd (Option.some.inj waiting').symm (going' o)
    · exact now ▸ tenure.prompt old waiting' going'
  · intro j l c' r' lease there held
    rw [locks, now]
    obtain ⟨rfl, rfl, rfl, rfl⟩ | ⟨_, d, old, alike⟩ := origin there
    · obtain ⟨lockId, x, found, own, period, covers⟩ := tenure.lasts here held
      refine ⟨lockId, x, found, own, period, fun going' => absurd rfl (going' o), fun _ _ => ?_⟩
      have past := tenure.broke_past here held waiting broke found
      have inTime := tenure.now_le_limit here going
      have enough := covers.going going
      rw [period] at past
      simp only [Coordinator.setRun]
      omega
    · exact lasts_alike (tenure.lasts old held) alike
  · intro j l c' r' lease there held
    rw [locks]
    obtain ⟨rfl, rfl, rfl, rfl⟩ | ⟨_, d, old, _⟩ := origin there
    · exact tenure.issued here held
    · exact tenure.issued old held
  · intro j l c' r' lease there held
    obtain ⟨rfl, rfl, rfl, rfl⟩ | ⟨_, d, old, _⟩ := origin there
    · exact .inl ⟨c, r, here, held⟩
    · exact .inl ⟨d, r', old, held⟩
  · intro j c' found
    obtain ⟨rfl, rfl⟩ | ⟨_, old⟩ := Plant.coordinators_of_set here.coordinator changed found
    · exact candid_setRun (tenure.shown here.coordinator) here.run rfl rfl fun _ held => held
    · exact tenure.shown old

/-- Runs are as they were or new, and no live lease is touched. -/
theorem spared (tenure : Tenure q p) (paced' : Paced q p') (now : p'.now = p.now)
    (runs : ∀ {j l : Nat} {c' : Coordinator} {r : Run}, p'.At j l c' r →
      (∃ c, p.At j l c r ∧ c'.Alike c) ∨ r.phase = .acquiring ∧ r.wait = none)
    (leases : ∀ {id : String} {l : Lease}, p.locks.store.live? p.now id = some l →
      p'.locks.store.find? id = some l)
    (issued : p.locks.store.issued ≤ p'.locks.store.issued)
    (shown : ∀ {j : Nat} {c' : Coordinator}, p'.coordinators[j]? = some c' → c'.IsCandid) :
    Tenure q p' := by
  have origin {j l : Nat} {c' : Coordinator} {r : Run} {lease : LeaseHandle}
      (there : p'.At j l c' r) (held : r.phase.lease? = some lease) :
      ∃ c, p.At j l c r ∧ c'.Alike c := by
    obtain old | ⟨acquiring, _⟩ := runs there
    · exact old
    · simp [acquiring, Phase.lease?] at held
  refine ⟨paced', ?_, ?_, ?_, tenure.apart_next (i := 0) (k := 0) ?_, shown⟩
  · intro j l c' r w there waiting
    obtain ⟨c, old, _⟩ | ⟨_, waitless⟩ := runs there
    · exact now ▸ tenure.prompt old waiting
    · simp [waitless] at waiting
  · intro j l c' r lease there held
    obtain ⟨c, old, alike⟩ := origin there held
    obtain ⟨lockId, x, found, rest⟩ := tenure.lasts old held
    obtain ⟨y, live, _⟩ := tenure.live old held
    obtain rfl : y = x := Option.some.inj ((LeaseStore.live?_eq_some.mp live).1.symm.trans found)
    exact now ▸ lasts_alike ⟨lockId, y, leases live, rest⟩ alike
  · intro j l c' r lease there held
    obtain ⟨c, old, _⟩ := origin there held
    exact Nat.le_trans (tenure.issued old held) issued
  · intro j l c' r lease there held
    obtain ⟨c, old, _⟩ := origin there held
    exact .inl ⟨c, r, old, held⟩

/-- Nothing happens to the locks. -/
theorem undisturbed (tenure : Tenure q p) (paced' : Paced q p') (frame : p.Frame p')
    (locks : p'.locks = p.locks)
    (runs : ∀ {j l : Nat} {c' : Coordinator} {r : Run}, p'.At j l c' r →
      (∃ c, p.At j l c r ∧ c'.Alike c) ∨ r.phase = .acquiring ∧ r.wait = none)
    (shown : ∀ {j : Nat} {c' : Coordinator}, p'.coordinators[j]? = some c' → c'.IsCandid) :
    Tenure q p' := by
  refine tenure.spared paced' (congrArg Clock.now frame.clock) runs ?_ ?_ shown
  · intro id l live
    rw [locks]
    exact (LeaseStore.live?_eq_some.mp live).1
  · exact Nat.le_of_eq (by rw [locks])

/-- Others act on the store and touch no live lease. -/
theorem restored (tenure : Tenure q p) {s : LeaseStore} (paced' : Paced q (Shift.withStore p s))
    (leases : ∀ {id : String} {l : Lease}, p.locks.store.live? p.now id = some l →
      s.find? id = some l) (issued : p.locks.store.issued ≤ s.issued) :
    Tenure q (Shift.withStore p s) :=
  tenure.spared paced' rfl
    (fun {_ _ c' _} there => .inl ⟨c', ⟨there.coordinator, there.run⟩, .refl c'⟩)
    leases issued tenure.shown

/-- The clock moves on in time. -/
theorem passed (tenure : Tenure q p) {time : Nat} (onTime : Fleet.OnTime p (.pass time))
    (paced' : Paced q (p.moveTo time)) : Tenure q (p.moveTo time) := by
  have inTime {i k : Nat} {c : Coordinator} {r : Run} (here : p.At i k c r)
      (unfinished : r.phase ≠ .finished) (going : ∀ o, r.wait ≠ some (.broken o)) :
      ∃ w, r.wait = some w ∧ (p.moveTo time).now ≤ w.dueAt + q.lag := by
    obtain ⟨w, waiting, _, before⟩ := onTime.wait tenure.paced.manned here
      (Run.isOver_eq_false_iff.mpr ⟨unfinished, going⟩)
    have alarm := tenure.paced.alarm_le w.dueAt
    have prompt := (tenure.prompt here waiting fun o broken => going o (broken ▸ waiting)).1
    refine ⟨w, waiting, ?_⟩
    exact Nat.max_le.mpr ⟨prompt, Nat.le_trans before alarm⟩
  refine ⟨paced', ?_, ?_, ?_, ?_, ?_⟩
  · intro i k c r w there waiting going
    have here : p.At i k c r := ⟨there.coordinator, there.run⟩
    have unfinished := tenure.paced.manned.unfinished here waiting
    obtain ⟨w', waiting', le⟩ := inTime here unfinished fun o broken =>
      going o (Option.some.inj (waiting.symm.trans broken))
    obtain rfl := Option.some.inj (waiting.symm.trans waiting')
    exact ⟨le, (tenure.prompt here waiting going).2⟩
  · intro i k c r lease there held
    have here : p.At i k c r := ⟨there.coordinator, there.run⟩
    have unfinished : r.phase ≠ .finished := by
      intro finished
      simp [finished, Phase.lease?] at held
    obtain ⟨lockId, l, found, own, period, covers⟩ := tenure.lasts here held
    refine ⟨lockId, l, found, own, period, fun going => ?_, covers.broken⟩
    obtain ⟨w, waiting, _⟩ := inTime here unfinished going
    simpa only [Pace.limit, waiting] using covers.going going
  · intro i k c r lease there held
    exact tenure.issued ⟨there.coordinator, there.run⟩ held
  · intro i k j l c d r s lease lease' here there
    exact tenure.apart ⟨here.coordinator, here.run⟩ ⟨there.coordinator, there.run⟩
  · intro i c found
    exact tenure.shown found

end Tenure

/-! ## Fleets in which nobody breaks a lease -/

namespace Fleet

/-- Whether a deed breaks no lease, and lets no renewal fail where that is not to be expected. -/
def Deed.IsFair (shaky : Bool) : Deed → Prop
  | .tamper _ => False
  | .store (.revoke _) => False
  | .store (.failNextRenewals _) => shaky = true
  | .store (.unavailable _) => shaky = true
  | _ => True

instance (shaky : Bool) : (d : Deed) → Decidable (d.IsFair shaky)
  | .tamper _ | .store (.revoke _) => isFalse id
  | .store (.failNextRenewals _) | .store (.unavailable _) =>
    inferInstanceAs (Decidable (shaky = true))
  | .store .prepare | .store (.steal _ _) | .step _ | .start _ _ | .stop _ | .cancel _ | .pass _ =>
    isTrue trivial

variable {d : Deed}

/-- A fair deed leaves the locks plain. -/
theorem Change.plain (change : Change p d p') (tenure : Tenure q p) (fair : d.IsFair q.shaky) :
    p'.locks.IsPlain q.shaky := by
  have plain := tenure.paced.locks
  have framed (frame : p.Frame p') (sure : q.shaky = false →
      p'.locks.store.available = true ∧ p'.locks.store.failingRenewals = 0) :
      p'.locks.IsPlain q.shaky :=
    ⟨List.eq_nil_of_subset_nil (plain.acquires ▸ frame.acquires),
      List.eq_nil_of_subset_nil (plain.renewals ▸ frame.renewals),
      List.eq_nil_of_subset_nil (plain.releases ▸ frame.releases), sure⟩
  have shaken {s : LeaseStore} (shaky : q.shaky = true) :
      ({ p.locks with store := s } : Locks).IsPlain q.shaky :=
    ⟨plain.acquires, plain.renewals, plain.releases, fun steady => by simp [shaky] at steady⟩
  cases change with
  | turned _ turned =>
      cases turned with
      | asked _ _ _ frame _ store => exact framed frame (store ▸ plain.sure)
      | told here waiting told frame =>
          obtain ⟨_, available, failing⟩ :=
            told.aside (tenure.prompt here waiting fun _ => told.unbroken).2
          refine framed frame fun steady => ?_
          exact ⟨available.trans (plain.sure steady).1, failing (plain.sure steady).2⟩
      | broke _ _ _ _ _ locks => exact locks ▸ plain
  | idle _ _ same => exact same ▸ plain
  | begun _ _ _ same => exact same ▸ plain
  | ended _ _ same => exact same ▸ plain
  | stored act =>
      cases act with
      | revoke id => exact fair.elim
      | failNextRenewals n => exact shaken fair
      | unavailable on => exact shaken fair
      | prepare => exact plain
      | steal id period =>
          obtain ⟨_, available, failing⟩ := p.locks.store.acquire_aside p.now id period
          refine ⟨plain.acquires, plain.renewals, plain.releases, fun steady => ?_⟩
          exact ⟨available.trans (plain.sure steady).1, failing.trans (plain.sure steady).2⟩
  | tampered => exact fair.elim
  | passed => exact plain

theorem act_paced (tenure : Tenure q p) (fair : d.IsFair q.shaky)
    (inTime : InTime q.span (act p d)) : Paced q (act p d) := by
  have paced := tenure.paced
  have change := act_change paced.manned d
  have resolution := change.aside.2.2.2
  refine ⟨act_manned paced.manned d, resolution ▸ paced.resolution, resolution ▸ paced.lag,
    change.plain tenure fair, ?_, ?_, inTime⟩
  · intro i j c' double' found' part doubled'
    obtain ⟨c, found, alike⟩ := change.coordinator found'
    obtain ⟨j', double, part', doubled⟩ := paced.manned.parts found
    obtain rfl : j' = j := Part.double.inj (part'.symm.trans (alike.part.symm.trans part))
    obtain ⟨double'', doubled'', starts, stops⟩ := change.doubles doubled
    obtain rfl := Option.some.inj (doubled'.symm.trans doubled'')
    obtain ⟨slowStarts, slowStops⟩ := paced.parts found part' doubled
    exact ⟨fun turn mem => slowStarts turn (starts mem), fun turn mem => slowStops turn (stops mem)⟩
  · intro i c' found'
    obtain ⟨c, found, alike⟩ := change.coordinator found'
    rw [alike.config]
    exact paced.span found

/-- Fair deeds on time preserve the tenure of all runs. -/
theorem act_tenure (tenure : Tenure q p) (fair : d.IsFair q.shaky) (onTime : OnTime p d)
    (inTime : InTime q.span (act p d)) : Tenure q (act p d) := by
  have paced' := act_paced tenure fair inTime
  have change := act_change tenure.paced.manned d
  revert paced'
  generalize act p d = p' at change
  intro paced'
  cases change with
  | turned _ turned =>
      cases turned with
      | asked here waitless asked frame changed store =>
          exact tenure.asked paced' here waitless asked frame changed store
      | told here waiting told frame changed =>
          exact tenure.told paced' here waiting told frame changed
      | broke here waiting broke frame changed locks =>
          exact tenure.broke paced' here waiting broke frame changed locks
  | idle frame same locks =>
      refine tenure.undisturbed paced' frame locks
        (fun there => .inl (Change.run_same same there)) ?_
      exact fun found' => tenure.shown (same ▸ found')
  | begun found _ frame locks changed =>
      refine tenure.undisturbed paced' frame locks (Change.run_begun found changed) ?_
      intro j c' found'
      obtain ⟨rfl, rfl⟩ | ⟨_, old⟩ := Plant.coordinators_of_set found changed found'
      · exact Tenure.candid_same (tenure.shown found) rfl fun run => getElem?_append_of_some run _
      · exact tenure.shown old
  | ended found frame locks changed =>
      refine tenure.undisturbed paced' frame locks
        (fun there => .inl (Change.run_ended found changed there)) ?_
      intro j c' found'
      obtain ⟨rfl, rfl⟩ | ⟨_, old⟩ := Plant.coordinators_of_set found changed found'
      · exact Tenure.candid_same (tenure.shown found) rfl id
      · exact tenure.shown old
  | stored act =>
      have found {id : String} {l : Lease} (live : p.locks.store.live? p.now id = some l) :
          p.locks.store.find? id = some l := (LeaseStore.live?_eq_some.mp live).1
      cases act with
      | revoke id => exact fair.elim
      | failNextRenewals n => exact tenure.restored paced' found (Nat.le_refl _)
      | unavailable on => exact tenure.restored paced' found (Nat.le_refl _)
      | prepare => exact tenure
      | steal id period =>
          have issued := (p.locks.store.acquire_aside p.now id period).1
          exact tenure.restored paced' (fun live => LeaseStore.find?_acquire live id period) issued
  | tampered => exact fair.elim
  | passed time => exact tenure.passed onTime paced'

/-- Where there is time later on, there was before. -/
theorem InTime.before {round : Nat → SingletonConfig → Nat} (manned : p.Manned)
    (inTime : InTime round (act p d)) : InTime round p := by
  intro i k c r lease left o here renewing broken
  have change := act_change manned d
  obtain ⟨c', there, alike⟩ := change.keeps_run (fun _ => ⟨o, broken⟩) here
  have enough := inTime there renewing broken
  have later := change.now_le
  rw [alike.config] at enough
  omega

theorem InTime.before_run {round : Nat → SingletonConfig → Nat} (manned : p.Manned)
    {deeds : List Deed} (inTime : InTime round (run p deeds)) : InTime round p := by
  induction deeds generalizing p with
  | nil => exact inTime
  | cons d rest ih => exact (ih (act_manned manned d) inTime).before manned

theorem run_tenure (tenure : Tenure q p) {deeds : List Deed} (fair : ∀ d ∈ deeds, d.IsFair q.shaky)
    (timely : Timely p deeds) (inTime : InTime q.span (run p deeds)) :
    Tenure q (run p deeds) := by
  induction deeds generalizing p with
  | nil => exact tenure
  | cons d rest ih =>
      obtain ⟨onTime, timely⟩ := timely
      have soon : InTime q.span (act p d) :=
        InTime.before_run (act_manned tenure.paced.manned d) inTime
      have next := act_tenure tenure (fair d List.mem_cons_self) onTime soon
      exact ih next (fun d mem => fair d (List.mem_cons_of_mem _ mem)) timely inTime

/-- What the members of a fleet have to be like for it to keep a pace. -/
def Suits (q : Pace) (members : List Relay.Member) : Prop :=
  ∀ (i : Nat) (member : Relay.Member), members[i]? = some member →
    (∀ turn ∈ member.double.starts, turn.delay.nanoseconds ≤ q.start i) ∧
      (∀ turn ∈ member.double.stops, turn.delay.nanoseconds ≤ q.stop i) ∧
      q.span i member.config < member.config.leasePeriod.nanoseconds

theorem begin_tenure {clock : Clock} {members : List Relay.Member}
    (resolution : 0 < clock.resolution)
    (lag : clock.resolution ≤ q.lag + 1) (suits : Suits q members) :
    Tenure q (begin clock {} members) where
  paced :=
    { manned := begin_manned clock {} members
      resolution := resolution
      lag := lag
      locks := ⟨rfl, rfl, rfl, fun _ => ⟨rfl, rfl⟩⟩
      parts := by
        intro i d c double found part doubled
        obtain ⟨member, mem, rfl⟩ := begin_coordinator found
        obtain rfl := Part.double.inj part
        obtain rfl := Option.some.inj ((begin_double mem).symm.trans doubled)
        exact ⟨(suits i member mem).1, (suits i member mem).2.1⟩
      span := by
        intro i c found
        obtain ⟨member, mem, rfl⟩ := begin_coordinator found
        exact (suits i member mem).2.2
      inTime := fun _ _ _ _ _ _ _ here => absurd here begin_no_runs }
  prompt here := absurd here begin_no_runs
  lasts here := absurd here begin_no_runs
  issued here := absurd here begin_no_runs
  apart here := absurd here begin_no_runs
  shown found := by
    intro serial locked
    obtain ⟨member, _, rfl⟩ := begin_coordinator found
    simp at locked

end Fleet

end Courier
