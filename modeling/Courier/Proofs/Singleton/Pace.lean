import Courier.Proofs.Singleton.Moves

/-!
# The pace of a fleet

How long a machine may have to hold on to a lease. In each phase it waits for one thing, for a time
that the pace of its part or its timing bounds, and every timer may be late by some `lag`. What may
follow is bounded phase by phase: `Pace.after` is the longest time from the end of the present wait
until the lease has been given back, unless it is renewed before. A reply never makes that longer,
which is `Pace.cost_next_le`; only a lease that has been renewed starts anew.
-/

namespace Courier

open Courier.Singleton (Phase Request Reply LockState)

/-- How slow the parts and the timers of a fleet may be. -/
structure Pace where
  /-- How long the part of a member may take to start. -/
  start : Nat → Nat
  stop : Nat → Nat
  /-- How late a timer may go off. -/
  lag : Nat
  /-- Whether renewals may fail. -/
  shaky : Bool

/-- How long the tries after some delays may take, the delays included. -/
def Backoff.span (lag : Nat) : Nat → Duration → Nat
  | 0, _ => 0
  | left + 1, delay => delay.nanoseconds + 2 * lag + span lag left delay.double

namespace Pace

variable (q : Pace) (i : Nat) (config : SingletonConfig)

/-- How long may pass until no try is left, where tries may fail. -/
def retrying (delays : Backoff) : Nat :=
  if q.shaky then Backoff.span q.lag delays.left delays.delay else 0

/-- For how long the wait of a phase is set. -/
def hold : Phase → Nat
  | .starting _ => q.start i
  | .holding _ => config.renewInterval.nanoseconds
  | .pausing _ pause _ => pause.nanoseconds
  | .stopping _ _ => q.stop i
  | .polling => config.pollInterval.nanoseconds
  | _ => 0

/-- How long it may take to stop the part and to give the lease back. -/
def leaving : Nat := q.stop i + 2 * q.lag

/-- How long it may take to give the lease back once the wait of a phase is over, unless the lease
is renewed. -/
def after : Phase → Nat
  | .starting _ =>
    config.renewInterval.nanoseconds + 2 * q.lag + q.retrying (Phase.delays config) + q.leaving i
  | .holding _ => q.lag + q.retrying (Phase.delays config) + q.leaving i
  | .renewing _ left => q.retrying left + q.leaving i
  | .pausing _ _ left => q.lag + q.retrying left + q.leaving i
  | .stopping _ _ => q.lag
  | _ => 0

/-- How long it may take from entering a phase to giving the lease back. -/
def cost (phase : Phase) : Nat := q.hold i config phase + q.lag + q.after i config phase

/-- How long a lease may be in hand when it is not renewed. -/
def span : Nat :=
  q.start i + config.renewInterval.nanoseconds + q.retrying (Phase.delays config) + q.stop i +
    5 * q.lag

variable {q i config}

theorem cost_starting (lease : LeaseHandle) :
    q.cost i config (.starting lease) = q.span i config := by
  simp only [cost, hold, after, leaving, span]
  omega

theorem cost_holding_le (lease : LeaseHandle) :
    q.cost i config (.holding lease) ≤ q.span i config := by
  simp only [cost, hold, after, leaving, span]
  omega

theorem retrying_next {left left' : Backoff} {pause : Duration} (shaky : q.shaky = true)
    (next : left.next? = some (pause, left')) :
    q.retrying left = pause.nanoseconds + 2 * q.lag + q.retrying left' := by
  obtain ⟨delay, _ | n⟩ := left
  · simp at next
  · rw [Backoff.next?_succ, Option.some.injEq, Prod.mk.injEq] at next
    obtain ⟨rfl, rfl⟩ := next
    simp [retrying, shaky, Backoff.span]

/-- Unless the lease is renewed, a reply leads to a phase for which there was time left. -/
theorem cost_next_le {phase phase' : Phase} {reply : Reply} {shown : Option LockState}
    {lease : LeaseHandle} (moves : Phase.Moves config phase reply phase' shown)
    (held : phase.lease? = some lease) (kept : phase'.lease? = some lease)
    (unrenewed : reply ≠ .renewed (some true)) (sure : reply = .renewed none → q.shaky = true) :
    q.cost i config phase' ≤ q.after i config phase := by
  cases moves with
  | acquired | refused | polled | ended => simp [Phase.lease?] at held
  | released | left => simp [Phase.lease?] at kept
  | renewed => exact absurd rfl unrenewed
  | paused lease next =>
      have more := retrying_next (sure rfl) next
      simp only [cost, hold, after, leaving]
      omega
  | _ =>
      simp only [cost, hold, after, leaving]
      omega

/-- A lease that was just acquired or renewed lasts for whatever may follow. -/
theorem cost_fresh_le {phase phase' : Phase} {reply : Reply} {shown : Option LockState}
    {lease : LeaseHandle} (moves : Phase.Moves config phase reply phase' shown)
    (fresh : reply = .acquired (some lease) ∨ reply = .renewed (some true)) :
    q.cost i config phase' ≤ q.span i config := by
  cases moves with
  | acquired lease => exact Nat.le_of_eq (cost_starting lease)
  | renewed lease => exact cost_holding_le lease
  | _ => simp at fresh

end Pace

end Courier
