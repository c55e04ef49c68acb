import Courier.Proofs.Queue.Wakeups
import Mathlib.Algebra.Ring.Nat

/-!
# Everyone comes to rest

While nobody calls and no time passes, the calls at a queue cannot keep each other busy for ever. A
call that is not a receive ends after a few steps. A receive looks again at most once for each of
those that tell it to, and once more if its timer has gone off: what it finds under lock expires
later.

So whoever lets everyone do what they can do comes to the point that `Bustle.no_wakeup_missed`
tells of.
-/

namespace Courier

namespace Bustle

/-- How many steps a call has still to make, not counting those of a receive. -/
def Call.errands : Call → Nat
  | .request (.send _) => 3
  | .request (.settle _ _) => 3
  | .request .close => 2
  | .request (.receive _ _ _) => 0
  | .put _ => 2
  | .unlock _ _ => 2
  | .tell _ => 1
  | .receiving _ _ => 0

/-- How many steps a receive can still make at this instant if nobody tells it anything new. -/
def Stage.patience (arrivals : Nat) (clock : Clock) (deadline : Nat) : Stage → Nat
  | .outset => 5
  | .doomed _ => 1
  | .spared => 4
  | .listening seen => if seen = arrivals then 3 else 7
  | .waiting seen wake =>
    if seen = arrivals then
      if clock.due wake then if deadline ≤ clock.now then 2 else 7 else 0
    else 6
  | .overdue => if deadline ≤ clock.now then 1 else 6

def Call.patience (arrivals : Nat) (clock : Clock) : Call → Nat
  | .request (.receive _ _ _) => 6
  | .receiving wish stage => stage.patience arrivals clock wish.deadline
  | _ => 0

def Next.errands : Next → Nat
  | .goes c => c.errands
  | .ends _ => 0

def Next.patience (arrivals : Nat) (clock : Clock) : Next → Nat
  | .goes c => c.patience arrivals clock
  | .ends _ => 0

theorem Stage.patience_le (arrivals : Nat) (clock : Clock) (deadline : Nat) (stage : Stage) :
    stage.patience arrivals clock deadline ≤ 7 := by
  cases stage <;> simp only [patience] <;> (repeat' split) <;> omega

theorem Call.patience_le (arrivals : Nat) (clock : Clock) (c : Call) :
    c.patience arrivals clock ≤ 7 := by
  unfold patience
  split
  · omega
  · exact Stage.patience_le ..
  · omega

/-- The timer of a receive that found nothing has gone off only if its wait is over. -/
theorem over_of_due {q : Queue} {clock : Clock} {deadline : Nat} (fine : 0 < clock.resolution)
    (alive : ∀ l ∈ q.locked, clock.now < l.expiresAt) (due : clock.due (q.wake deadline) = true) :
    deadline ≤ clock.now := by
  have reached : q.wake deadline ≤ clock.now :=
    Nat.le_trans (clock.le_alarm _ fine) (of_decide_eq_true due)
  unfold Queue.wake at reached
  split at reached
  · rename_i expiry found
    have held : expiry ∈ q.locked.map (·.expiresAt) := (List.min?_eq_some_iff.mp found).1
    obtain ⟨l, mem, rfl⟩ := List.mem_map.mp held
    have later := alive l mem
    omega
  · exact reached

/-- Every step of a receive uses up some of its patience. -/
theorem stepReceive_patience {q q' : Queue} {clock : Clock} {wish : Wish} {stage : Stage}
    {next : Next} (fine : 0 < clock.resolution)
    (step : stepReceive q clock wish stage = some (q', next)) :
    next.errands = 0 ∧ q'.arrivals = q.arrivals ∧
      next.patience q.arrivals clock < stage.patience q.arrivals clock wish.deadline := by
  cases stage with
  | outset =>
      rw [stepReceive] at step
      split at step <;> cases step <;>
        simp [Next.errands, Call.errands, Next.patience, Call.patience, Stage.patience]
  | doomed left =>
      cases step
      simp [Next.errands, Next.patience, Stage.patience]
  | spared =>
      cases step
      simp [Next.errands, Call.errands, Next.patience, Call.patience, Stage.patience]
  | listening seen =>
      obtain ⟨same, _⟩ := q.take_aside clock.now wish.max wish.lock
      have some_left : 0 < (Stage.listening seen).patience q.arrivals clock wish.deadline := by
        rw [Stage.patience]
        split <;> omega
      rw [stepReceive] at step
      split at step
      · rename_i taken
        rw [taken] at same
        cases step
        exact ⟨rfl, same, some_left⟩
      · rename_i taken
        rw [taken] at same
        cases step
        exact ⟨rfl, same, some_left⟩
      · rename_i taken
        rw [taken] at same
        cases step
        refine ⟨rfl, same, ?_⟩
        obtain ⟨_, _, rfl⟩ := Queue.take_nothing taken
        have alive (l : Locked) (mem : l ∈ (q.reclaim clock.now).locked) :=
          Queue.alive_of_mem_reclaim mem
        simp only [Next.patience, Call.patience, Stage.patience]
        by_cases latest : seen = q.arrivals
        · rw [if_pos latest, if_pos latest]
          split
          · rename_i due
            rw [if_pos (over_of_due fine alive due)]
            omega
          · omega
        · rw [if_neg latest, if_neg latest]
          omega
      · rename_i taken
        rw [taken] at same
        cases step
        exact ⟨rfl, same, some_left⟩
  | waiting seen wake =>
      rw [stepReceive] at step
      split at step
      · rename_i told
        cases step
        have stale : seen ≠ q.arrivals := (bne_iff_ne.mp told).symm
        simp [Next.errands, Call.errands, Next.patience, Call.patience, Stage.patience, stale]
      · rename_i untold
        have latest : seen = q.arrivals := by
          rw [bne_iff_ne, not_not] at untold
          exact untold.symm
        split at step
        · rename_i due
          cases step
          refine ⟨rfl, rfl, ?_⟩
          simp only [Next.patience, Call.patience, Stage.patience, if_pos latest, if_pos due]
          split <;> omega
        · cases step
  | overdue =>
      rw [stepReceive] at step
      split at step
      · rename_i late
        cases step
        simp [Next.errands, Next.patience, Stage.patience, late]
      · rename_i early
        cases step
        simp [Next.errands, Call.errands, Next.patience, Call.patience, Stage.patience, early]

theorem settleLocked_errands (q : Queue) (now : Nat) (token : LockToken) (how : Settling) :
    (settleLocked q now token how).2.errands < 2 := by
  unfold settleLocked
  split
  · simp [Next.errands]
  · split <;> simp [Next.errands, Call.errands]

/-- A step brings a call nearer to its end, or uses up some of the patience of a receive. -/
theorem Call.step_nearer {q q' : Queue} {clock : Clock} {c : Call} {next : Next}
    (fine : 0 < clock.resolution) (step : c.step q clock = some (q', next)) :
    next.errands < c.errands ∨
      next.errands = c.errands ∧ q'.arrivals = q.arrivals ∧
        next.patience q.arrivals clock < c.patience q.arrivals clock := by
  cases c with
  | request r =>
      cases r with
      | send o | close =>
          cases step
          exact .inl (by simp [Next.errands, errands])
      | settle token how =>
          rw [Call.step] at step
          split at step <;> cases step <;> exact .inl (by simp [Next.errands, errands])
      | receive max wait lock =>
          rw [Call.step] at step
          split at step <;> cases step <;>
            exact .inr ⟨rfl, rfl, by simp [Next.patience, patience, Stage.patience]⟩
  | put s =>
      cases step
      exact .inl (by simp [Next.errands, errands])
  | unlock token how =>
      rw [Call.step, Option.some.injEq] at step
      have few := settleLocked_errands q clock.now token how
      rw [step] at few
      exact .inl few
  | tell answer =>
      cases step
      exact .inl Nat.one_pos
  | receiving wish stage => exact .inr (stepReceive_patience fine step)

/-! ## All of them -/

/-- A bound on the steps of all calls, of which there are at most `most`. -/
def effort (most : Nat) (s : Bustle) : Nat :=
  (s.calls.map Call.errands).sum * (7 * most + 1) +
    (s.calls.map (Call.patience s.queue.arrivals s.clock)).sum

theorem sum_patience_le (arrivals : Nat) (clock : Clock) (calls : List Call) :
    (calls.map (Call.patience arrivals clock)).sum ≤ 7 * calls.length := by
  induction calls with
  | nil => simp
  | cons c rest ih =>
      have own := c.patience_le arrivals clock
      simp only [List.map_cons, List.sum_cons, List.length_cons]
      omega

theorem sum_errands_next (next : Next) : (next.calls.map Call.errands).sum = next.errands := by
  cases next <;> simp [Next.calls, Next.errands]

theorem sum_patience_next (arrivals : Nat) (clock : Clock) (next : Next) :
    (next.calls.map (Call.patience arrivals clock)).sum = next.patience arrivals clock := by
  cases next <;> simp [Next.calls, Next.patience]

/-- Each step takes effort. A call that tells the others gives their patience back to them, and
makes up for it with an errand less. -/
theorem step_effort {s : Bustle} {i : Nat} {c : Call} {q : Queue} {next : Next} {most : Nat}
    (fine : 0 < s.clock.resolution) (few : s.calls.length ≤ most) (here : s.calls[i]? = some c)
    (step : c.step s.queue s.clock = some (q, next)) :
    (s.follow i q next).effort most < s.effort most ∧ (s.follow i q next).calls.length ≤ most ∧
      (s.follow i q next).clock = s.clock := by
  obtain ⟨before, after, split, follow⟩ := exists_follow here
  have nearer := Call.step_nearer fine step
  have fewer : (before ++ (next.calls ++ after)).length ≤ most := by
    rw [split] at few
    cases next <;> simp [Next.calls] at few ⊢ <;> omega
  rw [follow]
  refine ⟨?_, fewer, rfl⟩
  have bound := sum_patience_le q.arrivals s.clock (before ++ (next.calls ++ after))
  simp only [effort, split, List.map_append, List.map_cons, List.sum_append, List.sum_cons,
    sum_errands_next, sum_patience_next] at bound ⊢
  obtain less | ⟨same, arrivals, less⟩ := nearer
  · -- whoever was told may have all patience back, which an errand makes up for
    generalize (before.map Call.errands).sum = x, (after.map Call.errands).sum = y
    have errands : (x + (next.errands + y) + 1) * (7 * most + 1) ≤
        (x + (c.errands + y)) * (7 * most + 1) := Nat.mul_le_mul_right _ (by omega)
    rw [Nat.add_mul _ 1, Nat.one_mul] at errands
    omega
  · rw [same, arrivals]
    omega

/-- While nobody calls and no time passes, the calls make a bounded number of steps. -/
theorem steps_bounded {s s' : Bustle} {places : List Nat} {most : Nat}
    (fine : 0 < s.clock.resolution) (few : s.calls.length ≤ most)
    (ran : s.run (places.map .step) = some s') :
    places.length + s'.effort most ≤ s.effort most := by
  induction places generalizing s with
  | nil =>
      cases ran
      simp
  | cons i rest ih =>
      simp only [List.map_cons, run, move, Option.bind_eq_bind, Option.bind_eq_some_iff] at ran
      obtain ⟨_, ⟨c, here, ⟨q, next⟩, step, done⟩, ran⟩ := ran
      cases done
      obtain ⟨less, few, clock⟩ := step_effort fine few here step
      have more := ih (by rw [clock]; exact fine) few ran
      rw [List.length_cons]
      omega

/-- A call that is not idle makes a step. -/
theorem exists_step {q : Queue} {clock : Clock} {c : Call} (busy : c.idle q clock = false) :
    ∃ q' next, c.step q clock = some (q', next) := by
  cases c with
  | request r =>
      cases r with
      | send o | close => exact ⟨_, _, rfl⟩
      | settle token how | receive max wait lock =>
          rw [Call.step]
          split <;> exact ⟨_, _, rfl⟩
  | put s | unlock token how | tell answer => exact ⟨_, _, rfl⟩
  | receiving wish stage =>
      rw [Call.step]
      cases stage with
      | doomed left | spared => exact ⟨_, _, rfl⟩
      | outset | listening seen | overdue =>
          rw [stepReceive]
          split <;> exact ⟨_, _, rfl⟩
      | waiting seen wake =>
          rw [stepReceive]
          split
          · exact ⟨_, _, rfl⟩
          · rename_i untold
            rw [bne_iff_ne, not_not] at untold
            have due : clock.due wake = true := by simpa [Call.idle, untold] using busy
            rw [if_pos due]
            exact ⟨_, _, rfl⟩

/-- Everyone comes to rest. -/
theorem comes_to_rest {s : Bustle} (fine : 0 < s.clock.resolution) :
    ∃ (places : List Nat) (s' : Bustle), s.run (places.map .step) = some s' ∧ s'.Resting := by
  obtain ⟨most, few⟩ : ∃ most, s.calls.length ≤ most := ⟨_, Nat.le_refl _⟩
  induction left : s.effort most using Nat.strong_induction_on generalizing s with
  | _ n ih =>
      by_cases finished : s.Resting
      · exact ⟨[], s, rfl, finished⟩
      · obtain ⟨c, mem, busy⟩ : ∃ c ∈ s.calls, c.idle s.queue s.clock = false := by
          simpa [Resting] using finished
        obtain ⟨i, here⟩ := List.mem_iff_getElem?.mp mem
        obtain ⟨q, next, step⟩ := exists_step busy
        obtain ⟨less, few, clock⟩ := step_effort fine few here step
        rw [left] at less
        rw [← clock] at fine
        obtain ⟨places, s', ran, rest⟩ := ih _ less fine few rfl
        refine ⟨i :: places, s', ?_, rest⟩
        simp only [List.map_cons, run, move, here, step, Option.bind_eq_bind, Option.bind_some]
        exact ran

end Bustle

end Courier
