import Courier.Proofs.Singleton.Tenure

/-!
# Exclusion

Of the members that share a lock at most one has its part at work, and at most one is shown as
locked, in every fleet whose lease periods leave time to start, to renew and to stop. If renewals
may fail, the time for all tries has to be counted as well; then a lease is live for as long as it
is shown.
-/

namespace Courier

open Courier.Singleton (Phase LockState)

/-- Whether the part of a run has been told to start, and its last stop is not over. -/
def Run.isInCharge (r : Run) : Bool :=
  match r.phase with
  | .starting _ => r.wait.isSome
  | .holding _ => true
  | .renewing _ _ => true
  | .pausing _ _ _ => true
  | .stopping _ _ => true
  | _ => false

theorem Run.lease_of_isInCharge {r : Run} (charge : r.isInCharge = true) :
    ∃ lease, r.phase.lease? = some lease := by
  unfold isInCharge at charge
  split at charge <;> simp_all [Phase.lease?]

namespace Tenure

variable {q : Pace} {p : Plant} {i j k l : Nat} {c d : Coordinator} {r s : Run}
  {lease lease' : LeaseHandle}

/-- No two runs hold leases for one lock. -/
theorem unique (tenure : Tenure q p) (here : p.At i k c r) (there : p.At j l d s)
    (same : c.lockId = d.lockId) (held : r.phase.lease? = some lease)
    (held' : s.phase.lease? = some lease') : (i, k) = (j, l) := by
  obtain ⟨x, live, own⟩ := tenure.live here held
  obtain ⟨y, live', own'⟩ := tenure.live there held'
  rw [same, live', Option.some.injEq] at live
  subst live
  exact tenure.apart here there held held' (own.symm.trans own')

/-- What is shown as locked is held. -/
theorem shown_live (tenure : Tenure q p) (found : p.coordinators[i]? = some c) {serial : Nat}
    (locked : c.state = .locked serial) : p.locks.store.holder? p.now c.lockId = some serial := by
  obtain ⟨k, r, lease, run, held, rfl⟩ := tenure.shown found serial locked
  obtain ⟨x, live, own⟩ := tenure.live ⟨found, run⟩ held
  simp [LeaseStore.holder?, live, own]

end Tenure

namespace Fleet

/-- Where a lease period leaves time for all tries of a renewal as well, a lease is live for as long
as it is shown, whatever renewals fail. -/
theorem shown_lease_is_live (clock : Clock) (members : List Relay.Member) (a b : Nat → Nat)
    (deeds : List Deed) (ticking : 0 < clock.resolution)
    (slow : ∀ (i : Nat) (member : Relay.Member), members[i]? = some member →
      (∀ turn ∈ member.double.starts, turn.delay.nanoseconds ≤ a i) ∧
      (∀ turn ∈ member.double.stops, turn.delay.nanoseconds ≤ b i) ∧
      a i + member.config.renewInterval.nanoseconds +
        Backoff.span (clock.resolution - 1) member.config.renewRetries.toNat
          member.config.renewRetryDelay + b i + 5 * (clock.resolution - 1) <
        member.config.leasePeriod.nanoseconds)
    (unbroken : ∀ d ∈ deeds, d.IsFair true) (timely : Timely (begin clock {} members) deeds)
    (inTime : InTime (fun i config => a i + config.renewInterval.nanoseconds +
      Backoff.span (clock.resolution - 1) config.renewRetries.toNat config.renewRetryDelay + b i +
      5 * (clock.resolution - 1)) (run (begin clock {} members) deeds)) :
    let p := run (begin clock {} members) deeds
    ∀ {i : Nat} {c : Coordinator} {serial : Nat}, p.coordinators[i]? = some c →
      c.state = .locked serial → p.locks.store.holder? p.now c.lockId = some serial := by
  intro p
  let q : Pace := ⟨a, b, clock.resolution - 1, true⟩
  have suits : Suits q members := by
    intro i member mem
    obtain ⟨starts, stops, period⟩ := slow i member mem
    exact ⟨starts, stops, by simpa [Pace.span, Pace.retrying, Phase.delays, q] using period⟩
  have tenure : Tenure q p :=
    run_tenure (begin_tenure ticking (by simp only [q]; omega) suits) unbroken timely inTime
  intro i c serial found locked
  exact tenure.shown_live found locked

end Fleet

end Courier
