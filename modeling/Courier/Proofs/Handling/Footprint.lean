import Courier.Proofs.Handling.Events
import Courier.Proofs.Queue.Moves

/-!
# What handling leaves behind

A site that goes through events keeps the time and what is known of the delivery from the start. Its
queue makes the moves of the messages sent and the settlements that reached it, and the delivery
counts as handed to the processor once a call has said so.
-/

namespace Courier

open Queue (Record Move Moves)

namespace Event

/-- What the history of a queue tells of an event in the handling of a delivery. -/
def records (now : Nat) (token : LockToken) : Event → List Record
  | .settled how answer => [.settled now token how answer]
  | .called (.send m) id => [.sent id m]
  | _ => []

/-- Whether an event hands the delivery to the processor. -/
def isInvoke : Event → Bool
  | .called .invoke _ => true
  | _ => false

end Event

namespace Site

/-! ## Single calls -/

@[simp] theorem perform_context (s : Site) (e : Effect) :
    (s.perform e).1.handling.context = s.handling.context := by
  cases e with
  | settle how =>
      simp only [perform, settle]
      split <;> rfl
  | enter gate ticket =>
      simp only [perform, enter]
      split <;> rfl
  | _ => rfl

@[simp] theorem perform_clock (s : Site) (e : Effect) :
    (s.perform e).1.ambient.clock = s.ambient.clock := by
  cases e with
  | settle how =>
      simp only [perform, settle]
      split <;> rfl
  | enter gate ticket =>
      simp only [perform, enter]
      split <;> rfl
  | _ => rfl

theorem perform_invoked (s : Site) {e : Effect} (h : e.isOwn = false) :
    (s.perform e).1.handling.invoked =
      (s.handling.invoked || (Event.called e (s.perform e).2).isInvoke) := by
  cases e with
  | settle how => simp [Effect.isOwn] at h
  | enter gate ticket =>
      simp only [perform, enter, Event.isInvoke, Bool.or_false]
      split <;> rfl
  | invoke => exact (Bool.or_true _).symm
  | _ => exact (Bool.or_false _).symm

/-- A call does to the queue what a history tells of it. -/
theorem perform_moves (s : Site) {e : Effect} (h : e.isOwn = false) (token : LockToken) :
    Moves s.ambient.now s.premises.queue
      ((Event.called e (s.perform e).2).records s.ambient.now token)
      (s.perform e).1.premises.queue := by
  cases e with
  | settle how => simp [Effect.isOwn] at h
  | enter gate ticket =>
      simp only [perform, enter, Event.records]
      split <;> exact .refl _
  | send m => exact s.premises.queue.send_moves _ m
  | failSettlements on => exact s.premises.queue.failSettlements_moves _ on
  | _ => exact .refl _

/-! ## Going through events -/

namespace Follows

variable {s s' : Site} {events : List Event}

theorem context (h : s.Follows events s') : s'.handling.context = s.handling.context := by
  induction h with
  | refl => rfl
  | settled _ _ ih => exact ih
  | called _ _ ih => rw [ih, perform_context]
  | waited _ _ ih => exact ih

theorem clock (h : s.Follows events s') : s'.ambient.clock = s.ambient.clock := by
  induction h with
  | refl => rfl
  | settled _ _ ih => exact ih
  | called _ _ ih => rw [ih, perform_clock]
  | waited _ _ ih => exact ih

theorem invoked (h : s.Follows events s') :
    s'.handling.invoked = (s.handling.invoked || events.any Event.isInvoke) := by
  induction h with
  | refl => simp
  | settled _ _ ih => exact ih
  | called outside _ ih => rw [ih, perform_invoked _ outside, List.any_cons, Bool.or_assoc]
  | waited _ _ ih => exact ih

/-- The queue makes the moves of what the handling sends and settles. -/
theorem moves (h : s.Follows events s') :
    Moves s.ambient.now s.premises.queue
      (events.flatMap (Event.records s.ambient.now s.handling.context.delivery.token))
      s'.premises.queue := by
  induction h with
  | refl => exact .refl _
  | settled _ _ ih => exact (Queue.settle_moves _ _ _ _).trans ih
  | @called s _ e _ outside _ ih =>
      rw [perform_context, Ambient.now, perform_clock] at ih
      exact (s.perform_moves outside _).trans ih
  | waited _ _ ih => exact ih

end Follows

end Site

end Courier
