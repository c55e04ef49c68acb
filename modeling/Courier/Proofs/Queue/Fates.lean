import Courier.Proofs.Queue.Accounts

/-!
# What becomes of deliveries

What a queue lists as completed or dead-lettered are deliveries that a history tells were settled
so. Nothing enters one of these lists in another way.
-/

namespace Courier

/-- The record of a delivery that was settled. -/
def Delivery.outcome (d : Delivery) (reason : Option String) : Settled :=
  ⟨d.message.id, d.message.body, d.count, reason⟩

namespace Queue

/-- What is completed or dead-lettered was delivered, and settled so under its token. -/
structure Fates (q : Queue) (h : List Record) : Prop where
  completed : ∀ e ∈ q.completed, ∃ d ∈ issues h, ∃ time,
    .settled time d.token .complete (.ok ()) ∈ h ∧ e = d.outcome none
  deadLettered : ∀ e ∈ q.deadLettered, ∃ d ∈ issues h, ∃ time reason,
    .settled time d.token (.deadLetter reason) (.ok ()) ∈ h ∧ e = d.outcome (some reason)

namespace Fates

variable {q q' : Queue} {h h' : List Record}

theorem empty (name : String) (style : TokenStyle) :
    Fates { name := name, tokens := style } [] := by
  constructor <;> simp

/-- A longer history tells as much. -/
theorem more (fates : Fates q h) (completed : q'.completed = q.completed)
    (deadLettered : q'.deadLettered = q.deadLettered) (h' : List Record) :
    Fates q' (h ++ h') where
  completed e he := by
    obtain ⟨d, hd, time, mem, same⟩ := fates.completed e (completed ▸ he)
    exact ⟨d, by simp [hd], time, List.mem_append_left _ mem, same⟩
  deadLettered e he := by
    obtain ⟨d, hd, time, reason, mem, same⟩ := fates.deadLettered e (deadLettered ▸ he)
    exact ⟨d, by simp [hd], time, reason, List.mem_append_left _ mem, same⟩

theorem settle (fates : Fates q h) {l : Locked} (held : deliveryOf l ∈ issues h) (now : Nat)
    (how : Settling) :
    Fates ((q.release l).record l.stored how)
      (h ++ [.settled now (.issued l.serial) how (.ok ())]) := by
  have before : Fates (q.release l) (h ++ [.settled now (.issued l.serial) how (.ok ())]) := by
    refine fates.more ?_ ?_ _ <;> rfl
  have held' : deliveryOf l ∈ issues (h ++ [.settled now (.issued l.serial) how (.ok ())]) := by
    simpa using held
  cases how with
  | abandon fault => exact ⟨before.completed, before.deadLettered⟩
  | complete =>
      refine ⟨?_, before.deadLettered⟩
      intro e he
      obtain he | he := List.mem_append.mp he
      · exact before.completed e he
      · obtain rfl := List.mem_singleton.mp he
        exact ⟨deliveryOf l, held', now, by simp [deliveryOf], rfl⟩
  | deadLetter reason =>
      refine ⟨before.completed, ?_⟩
      intro e he
      obtain he | he := List.mem_append.mp he
      · exact before.deadLettered e he
      · obtain rfl := List.mem_singleton.mp he
        exact ⟨deliveryOf l, held', now, reason, by simp [deliveryOf], rfl⟩

end Fates

theorem Move.fates {now : Nat} {q q' : Queue} {h past : List Record} (move : Move now q h q')
    (acc : Accounts q (sends past) (issues past) (losses past)) (fates : Fates q past) :
    Fates q' (past ++ h) := by
  cases move with
  | settle how mem _ => exact fates.settle (acc.held _ mem) now how
  | _ => refine fates.more ?_ ?_ _ <;> rfl

theorem Moves.fates {now : Nat} {q q' : Queue} {h past : List Record} (moves : Moves now q h q')
    (acc : Accounts q (sends past) (issues past) (losses past)) (fates : Fates q past) :
    Fates q' (past ++ h) := by
  have both := moves.preserve
    (P := fun q past => Accounts q (sends past) (issues past) (losses past) ∧ Fates q past)
    (fun _ move kept => ⟨move.accounts kept.1, move.fates kept.1 kept.2⟩) ⟨acc, fates⟩
  exact both.2

end Queue

end Courier
