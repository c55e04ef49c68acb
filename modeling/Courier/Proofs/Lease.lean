import Courier.Plant.Double
import Courier.Proofs.Entries

/-!
# Leases in the store

What the calls of a lease store do to the lease on a lock id. A live lease keeps others out: no
further lease on its id is given out, and whoever holds another lease, be it one that ran out
before, neither renews nor releases this one. So while nobody breaks it, a lease changes only by
what its own holder does.

A member of a fleet sees the store through turns that may fail; what is said of the store holds of
the turns as well.
-/

namespace Courier

namespace LeaseStore

/-! ## The lease on a lock id -/

@[simp] theorem find?_put (s : LeaseStore) (id : String) (l : Lease) :
    (s.put id l).find? id = some l := by
  simp [find?, put]

theorem find?_put_ne (s : LeaseStore) {id other : String} (ne : id ≠ other) (l : Lease) :
    (s.put other l).find? id = s.find? id :=
  (lookup_set s.leases other id l).trans (if_neg (Ne.symm ne))

theorem find?_erase_ne (s : LeaseStore) {id other : String} (ne : id ≠ other) :
    (s.erase other).find? id = s.find? id :=
  lookup_filter_ne s.leases ne

theorem live?_eq_some {s : LeaseStore} {now : Nat} {id : String} {l : Lease} :
    s.live? now id = some l ↔ s.find? id = some l ∧ now < l.expiresAt := by
  simp [live?, Lease.isLive, Option.filter_eq_some_iff]

variable {s : LeaseStore} {now : Nat} {id : String} {l : Lease}

/-! ## Calls -/

/-- Acquiring gives out a new lease, which is then the one on its lock id, or changes nothing. -/
theorem acquire_cases (s : LeaseStore) (now : Nat) (id : String) (period : Duration) :
    (s.live? now id = none ∧ s.acquire now id period =
      ({ s.put id ⟨s.issued + 1, period, now + period.nanoseconds⟩ with issued := s.issued + 1 },
        .ok (some ⟨id, s.issued + 1⟩))) ∨
      ((s.acquire now id period).1 = s ∧
        ∀ lease, (s.acquire now id period).2 ≠ .ok (some lease)) := by
  unfold acquire
  split
  · exact .inr ⟨rfl, nofun⟩
  · split
    · exact .inr ⟨rfl, nofun⟩
    · rename_i free
      split
      · exact .inr ⟨rfl, nofun⟩
      · rename_i expiry fits
        obtain ⟨-, rfl⟩ := Instant.plus?_eq_some_iff.mp fits
        exact .inl ⟨free, rfl⟩

/-- Nobody gets a lease on a lock id, or loses it, by someone else's acquiring. -/
theorem find?_acquire (live : s.live? now id = some l) (other : String) (period : Duration) :
    (s.acquire now other period).1.find? id = some l := by
  obtain ⟨free, acquired⟩ | ⟨same, _⟩ := s.acquire_cases now other period
  · have ne : id ≠ other := by
      rintro rfl
      simp [free] at live
    rw [acquired]
    exact (find?_put_ne s ne _).trans (live?_eq_some.mp live).1
  · rw [same]
    exact (live?_eq_some.mp live).1

/-- Renewing a lease that is not the one on its lock id leaves that one alone. -/
theorem find?_renew_other (found : s.find? id = some l) {h : LeaseHandle}
    (other : h.lockId = id → h.serial ≠ l.serial) :
    (s.renew now h).1.find? id = some l := by
  unfold renew
  split
  · exact found
  · split
    · exact found
    · split
      · rename_i l' live
        split
        · rename_i own
          have ne : id ≠ h.lockId := by
            rintro rfl
            rw [(live?_eq_some.mp live).1, Option.some.injEq] at found
            exact other rfl (found ▸ own.symm)
          split
          · exact found
          · exact (find?_put_ne s ne _).trans found
        · exact found
      · exact found

/-- Renewing the lease on a lock id gives it a full period from now, or leaves it as it was. The
answer says which, where there is one. -/
theorem find?_renew_own (found : s.find? id = some l) {h : LeaseHandle} (same : h.lockId = id)
    (own : h.serial = l.serial) :
    ((s.renew now h).2 = .ok true ∧
      (s.renew now h).1.find? id =
        some { l with expiresAt := now + l.period.nanoseconds }) ∨
      (s.renew now h).2 ≠ .ok true ∧ (s.renew now h).1.find? id = some l := by
  subst same
  unfold renew
  split
  · exact .inr ⟨nofun, found⟩
  · split
    · exact .inr ⟨nofun, found⟩
    · split
      · rename_i l' live
        obtain rfl : l = l' := Option.some.inj (found.symm.trans (live?_eq_some.mp live).1)
        rw [if_pos own.symm]
        split
        · exact .inr ⟨nofun, found⟩
        · rename_i expiry fits
          obtain ⟨-, rfl⟩ := Instant.plus?_eq_some_iff.mp fits
          exact .inl ⟨rfl, find?_put s h.lockId _⟩
      · exact .inr ⟨by simp, found⟩

/-- A store that does not fail renews a live lease, unless it would end past the last instant. -/
theorem renew_live (live : s.live? now id = some l) (available : s.available = true)
    (failing : s.failingRenewals = 0) {h : LeaseHandle} (same : h.lockId = id)
    (own : h.serial = l.serial) :
    (s.renew now h).2 = if now + l.period.nanoseconds ≤ Instant.last then .ok true
      else .error (.overflow .instant) := by
  subst same
  by_cases fits : now + l.period.nanoseconds ≤ Instant.last
  · simp [renew, available, failing, live, own, fits, Instant.plus?_of_le fits]
  · have past := Instant.plus?_eq_none_iff.mpr (Nat.lt_of_not_le fits)
    simp [renew, available, failing, live, own, fits, past]

/-- Only a live lease can be renewed past the last instant. -/
theorem renew_overflow {h : LeaseHandle} {o : Overflow}
    (broken : (s.renew now h).2 = .error (.overflow o)) :
    ∃ l, s.live? now h.lockId = some l ∧ Instant.last < now + l.period.nanoseconds := by
  unfold renew at broken
  split at broken
  · cases broken
  · split at broken
    · cases broken
    · split at broken
      · rename_i l live
        split at broken
        · split at broken
          · rename_i past
            exact ⟨l, live, Instant.plus?_eq_none_iff.mp past⟩
          · cases broken
        · cases broken
      · cases broken

/-- Releasing a lease that is not the one on its lock id leaves that one alone. -/
theorem find?_release_other (found : s.find? id = some l) {h : LeaseHandle}
    (other : h.lockId = id → h.serial ≠ l.serial) : (s.release h).1.find? id = some l := by
  unfold release
  split
  · exact found
  · split
    · rename_i l' stored
      split
      · rename_i own
        have ne : id ≠ h.lockId := by
          rintro rfl
          rw [stored, Option.some.injEq] at found
          exact other rfl (found ▸ own.symm)
        exact (find?_erase_ne s ne).trans found
      · exact found
    · exact found

/-! What no call to renew or release touches. -/

theorem renew_aside (s : LeaseStore) (now : Nat) (h : LeaseHandle) :
    (s.renew now h).1.issued = s.issued ∧ (s.renew now h).1.available = s.available ∧
      (s.failingRenewals = 0 → (s.renew now h).1.failingRenewals = 0) := by
  unfold renew
  repeat' split
  all_goals simp_all [put]

theorem release_aside (s : LeaseStore) (h : LeaseHandle) :
    (s.release h).1.issued = s.issued ∧ (s.release h).1.available = s.available ∧
      (s.release h).1.failingRenewals = s.failingRenewals := by
  unfold release
  repeat' split
  all_goals exact ⟨rfl, rfl, rfl⟩

theorem acquire_aside (s : LeaseStore) (now : Nat) (id : String) (period : Duration) :
    s.issued ≤ (s.acquire now id period).1.issued ∧
      (s.acquire now id period).1.available = s.available ∧
      (s.acquire now id period).1.failingRenewals = s.failingRenewals := by
  obtain ⟨_, acquired⟩ | ⟨same, _⟩ := s.acquire_cases now id period
  · rw [acquired]
    exact ⟨Nat.le_succ _, rfl, rfl⟩
  · rw [same]
    exact ⟨Nat.le_refl _, rfl, rfl⟩

end LeaseStore

/-! ## Turns -/

namespace Locks

variable (l : Locks) (turn : Turn) (now : Nat) (id : String) (period : Duration)
  (lease : LeaseHandle)

/-- Whatever its turn, a call touches nothing but the store. -/
theorem acquire_plans {l' : Locks} {granted : Option LeaseHandle}
    (acquired : l.acquire turn now id period = .ok (l', granted)) :
    l' = { l with store := l'.store } := by
  revert acquired
  unfold acquire
  repeat' split
  all_goals rintro ⟨⟩
  all_goals rfl

theorem renew_plans {l' : Locks} {good : Option Bool}
    (renewed : l.renew turn now lease = .ok (l', good)) : l' = { l with store := l'.store } := by
  revert renewed
  unfold renew
  repeat' split
  all_goals rintro ⟨⟩
  all_goals rfl

theorem release_plans : l.release turn lease =
    { l with store := (l.release turn lease).store } := by
  unfold release
  split <;> rfl

/-- A lease that is given out ends in time. -/
theorem acquire_fits {l' : Locks} {granted : LeaseHandle}
    (acquired : l.acquire turn now id period = .ok (l', some granted)) :
    now + period.nanoseconds ≤ Instant.last := by
  unfold acquire at acquired
  split at acquired
  · cases acquired
  · split at acquired
    · rename_i answered
      obtain rfl : _ = some granted := (Prod.mk.inj (Except.ok.inj acquired)).2
      refine Nat.le_of_not_lt fun past => ?_
      have unfit := Instant.plus?_eq_none_iff.mpr past
      simp only [LeaseStore.acquire, unfit] at answered
      repeat' split at answered
      all_goals simp at answered
    · cases acquired
    · cases acquired

/-! A turn without a fault reaches the store. -/

theorem acquire_plain {l' : Locks} {granted : Option LeaseHandle}
    (acquired : l.acquire {} now id period = .ok (l', granted)) :
    l' = { l with store := (l.store.acquire now id period).1 } ∧
      granted = (l.store.acquire now id period).2.toOption.join := by
  revert acquired
  simp only [acquire]
  split
  all_goals rintro ⟨⟩
  all_goals simp_all [Except.toOption]

theorem renew_plain {l' : Locks} {good : Option Bool}
    (renewed : l.renew {} now lease = .ok (l', good)) :
    l' = { l with store := (l.store.renew now lease).1 } ∧
      good = (l.store.renew now lease).2.toOption ∧
      ∀ o, (l.store.renew now lease).2 ≠ .error (.overflow o) := by
  revert renewed
  simp only [renew, Bool.false_eq_true, if_false]
  split
  all_goals rintro ⟨⟩
  all_goals simp_all [Except.toOption]

theorem renew_broke {o : Overflow} (broken : l.renew turn now lease = .error o) :
    (l.store.renew now lease).2 = .error (.overflow o) := by
  revert broken
  unfold renew
  repeat' split
  all_goals rintro ⟨⟩
  all_goals simp_all

theorem release_plain : l.release {} lease =
    { l with store := (l.store.release lease).1 } := rfl

end Locks

end Courier
