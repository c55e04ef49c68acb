import Courier.Proofs.Handling.Events
import Courier.Proofs.Places

/-!
# Many hands on one settlement

The record of a settlement is shared: the context of a delivery and any number of stages hold it,
and whoever holds it may call for a settlement at any time. A call looks at the record first. A
first claim then goes on to the queue, which may answer at once, later or never, and whoever made a
call may give it up while it waits. Each of these is a step of its own (`Contest.Move`), so the
steps of different calls come in any order.

`Contest.WonBy` says what holds as soon as one call has claimed the settlement. No move of any call
ends it, whatever the queue answers. `Contest.settle_uninterrupted` shows that a site settles by
the moves of one call with nobody in between.
-/

namespace Courier

namespace Contest

/-- How far a call has come. -/
inductive Standing where
  /-- It has not looked at the record yet. -/
  | asking
  /-- It has claimed the settlement and is on its way to the queue. -/
  | claimed
  /-- It has reached the queue, which has not answered yet. -/
  | pending
  | answered (answer : Except SettlementFault Unit)
  /-- Whoever made it does not wait for an answer any more. -/
  | dropped

/-- A call for a settlement. -/
structure Call where
  how : Settling
  standing : Standing := .asking

/-- One step. Calls are known by their places in the list. -/
inductive Move where
  /-- Someone who holds the record calls for a settlement. -/
  | call (how : Settling)
  /-- A call looks at the record and claims the settlement if nobody has. -/
  | claim (i : Nat)
  /-- The call that has claimed the settlement reaches the queue. -/
  | reach (i : Nat)
  | answer (i : Nat) (answer : Except QueueFault Unit)
  /-- A call is given up, before its first step or while the queue lets it wait. -/
  | drop (i : Nat)

end Contest

/-- The calls for settling one delivery. -/
structure Contest where
  /-- The token of the delivery. -/
  token : LockToken
  settlement : Settlement := {}
  calls : List Contest.Call := []
  /-- The calls that have looked at the record, in order. -/
  looked : List Nat := []
  /-- What has reached the queue, in order. -/
  reached : List (LockToken × Settling) := []

namespace Contest

/-- A call looks at the record. -/
def claimBy (s : Contest) (i : Nat) (how : Settling) : Contest :=
  match s.settlement.claim how with
  | .error f =>
    { s with
      calls := s.calls.set i ⟨how, .answered (.error f)⟩
      looked := s.looked ++ [i] }
  | .ok settlement =>
    { s with
      settlement := settlement
      calls := s.calls.set i ⟨how, .claimed⟩
      looked := s.looked ++ [i] }

/-- A step; nothing happens if the call is not where it could take it. -/
def move (s : Contest) : Move → Contest
  | .call how => { s with calls := s.calls ++ [{ how }] }
  | .claim i =>
    match s.calls[i]? with
    | some ⟨how, .asking⟩ => s.claimBy i how
    | _ => s
  | .reach i =>
    match s.calls[i]? with
    | some ⟨how, .claimed⟩ =>
      { s with
        calls := s.calls.set i ⟨how, .pending⟩
        reached := s.reached ++ [(s.token, how)] }
    | _ => s
  | .answer i answer =>
    match s.calls[i]? with
    | some ⟨how, .pending⟩ =>
      { s with calls := s.calls.set i ⟨how, .answered (answer.mapError .queue)⟩ }
    | _ => s
  | .drop i =>
    match s.calls[i]? with
    | some ⟨how, .asking⟩ => { s with calls := s.calls.set i ⟨how, .dropped⟩ }
    | some ⟨how, .pending⟩ => { s with calls := s.calls.set i ⟨how, .dropped⟩ }
    | _ => s

def after (s : Contest) (moves : List Move) : Contest := moves.foldl move s

/-- The contest for a delivery that nobody has settled. -/
def start (token : LockToken) : Contest := { token := token }

@[simp] theorem after_nil (s : Contest) : s.after [] = s := rfl

@[simp] theorem after_cons (s : Contest) (m : Move) (moves : List Move) :
    s.after (m :: moves) = (s.move m).after moves := rfl

@[simp] theorem claimBy_token (s : Contest) (i : Nat) (how : Settling) :
    (s.claimBy i how).token = s.token := by
  unfold claimBy
  split <;> rfl

@[simp] theorem move_token (s : Contest) (m : Move) : (s.move m).token = s.token := by
  cases m with
  | call how => rfl
  | claim i | reach i | answer i answer | drop i =>
      simp only [move]
      split <;> simp

theorem after_token (s : Contest) (moves : List Move) : (s.after moves).token = s.token := by
  induction moves generalizing s with
  | nil => rfl
  | cons m moves ih => exact (ih (s.move m)).trans (s.move_token m)

/-! ## The winner and the others -/

/-- How far the call has come that claimed the settlement, and what has reached the queue by then:
nothing at first, and then this call alone, under the token of the delivery. What the call comes to
is the answer of the queue. -/
def Wins (token : LockToken) (how : Settling) (reached : List (LockToken × Settling)) :
    Standing → Prop
  | .asking => False
  | .claimed => reached = []
  | .pending | .dropped => reached = [(token, how)]
  | .answered answer => reached = [(token, how)] ∧ ∃ a : Except QueueFault Unit,
      answer = a.mapError .queue

/-- A call has not come as far as the record. -/
def Standing.IsIdle (standing : Standing) : Prop := standing = .asking ∨ standing = .dropped

/-- Nobody has looked at the record yet. -/
structure Unclaimed (s : Contest) : Prop where
  record : s.settlement = {}
  looked : s.looked = []
  reached : s.reached = []
  calls : ∀ (j : Nat) (c : Call), s.calls[j]? = some c → c.standing.IsIdle

/-- The call `i` was the first to look at the record. It has claimed the settlement; every other
call that has looked was told so, naming the first disposition and its own. -/
structure WonBy (s : Contest) (i : Nat) (how : Settling) : Prop where
  record : s.settlement = ⟨some how⟩
  first : s.looked.head? = some i
  within : ∀ j ∈ s.looked, j < s.calls.length
  winner : ∃ standing, s.calls[i]? = some ⟨how, standing⟩ ∧ Wins s.token how s.reached standing
  others : ∀ (j : Nat) (c : Call), s.calls[j]? = some c → j ≠ i →
    j ∈ s.looked ∧
        c.standing = .answered (.error (.alreadySettled how.disposition c.how.disposition)) ∨
      j ∉ s.looked ∧ c.standing.IsIdle

variable {s : Contest} {i j : Nat} {how other : Settling} {standing : Standing}

namespace WonBy

/-- The winner takes a step. -/
theorem setWinner (won : s.WonBy i how) {reached : List (LockToken × Settling)}
    (wins : Wins s.token how reached standing) :
    { s with calls := s.calls.set i ⟨how, standing⟩, reached := reached }.WonBy i how := by
  obtain ⟨before, here, _⟩ := won.winner
  refine ⟨won.record, won.first, ?_, ⟨standing, ?_, wins⟩, ?_⟩
  · intro j mem
    rw [List.length_set]
    exact won.within j mem
  · exact List.getElem?_set_self (List.getElem?_eq_some_iff.mp here).1
  · intro j c there apart
    apply won.others j c _ apart
    rwa [List.getElem?_set_ne (Ne.symm apart)] at there

/-- Another call takes a step that does not concern the record. -/
theorem setIdle (won : s.WonBy i how) (here : s.calls[j]? = some ⟨other, .asking⟩)
    (idle : standing.IsIdle) :
    { s with calls := s.calls.set j ⟨other, standing⟩ }.WonBy i how := by
  obtain ⟨before, there, wins⟩ := won.winner
  have apart : j ≠ i := by
    rintro rfl
    cases here.symm.trans there
    exact wins
  refine ⟨won.record, won.first, ?_, ⟨before, ?_, wins⟩, ?_⟩
  · intro k mem
    rw [List.length_set]
    exact won.within k mem
  · rwa [List.getElem?_set_ne apart]
  · intro k c found distinct
    obtain ⟨rfl, rfl⟩ | ⟨_, found⟩ := getElem?_set_cases here found
    · obtain ⟨_, answered⟩ | ⟨unseen, _⟩ := won.others k _ here distinct
      · cases answered
      · exact .inr ⟨unseen, idle⟩
    · exact won.others k c found distinct

/-- Another call looks at the record. -/
theorem claimBy (won : s.WonBy i how) (here : s.calls[j]? = some ⟨other, .asking⟩) :
    (s.claimBy j other).WonBy i how := by
  obtain ⟨before, there, wins⟩ := won.winner
  have apart : j ≠ i := by
    rintro rfl
    cases here.symm.trans there
    exact wins
  have refused : s.settlement.claim other =
      .error (.alreadySettled how.disposition other.disposition) := by
    rw [won.record]
    rfl
  simp only [Contest.claimBy, refused]
  refine ⟨won.record, ?_, ?_, ⟨before, ?_, wins⟩, ?_⟩
  · rw [List.head?_append, won.first]
    rfl
  · intro k mem
    rw [List.length_set]
    obtain mem | mem := List.mem_append.mp mem
    · exact won.within k mem
    · obtain rfl := List.mem_singleton.mp mem
      exact (List.getElem?_eq_some_iff.mp here).1
  · rwa [List.getElem?_set_ne apart]
  · intro k c found distinct
    obtain ⟨rfl, rfl⟩ | ⟨elsewhere, found⟩ := getElem?_set_cases here found
    · exact .inl ⟨by simp, rfl⟩
    · obtain ⟨seen, told⟩ | ⟨unseen, idle⟩ := won.others k c found distinct
      · exact .inl ⟨List.mem_append_left _ seen, told⟩
      · refine .inr ⟨?_, idle⟩
        intro mem
        obtain mem | mem := List.mem_append.mp mem
        · exact unseen mem
        · exact elsewhere (List.mem_singleton.mp mem)

/-- A call that has claimed the settlement or waits for the queue is the winner. -/
theorem eq_of_busy (won : s.WonBy i how) (here : s.calls[j]? = some ⟨other, standing⟩)
    (busy : standing = .claimed ∨ standing = .pending) :
    j = i ∧ other = how ∧ Wins s.token how s.reached standing := by
  obtain ⟨before, there, wins⟩ := won.winner
  by_cases same : j = i
  · subst same
    cases here.symm.trans there
    exact ⟨rfl, rfl, wins⟩
  · obtain ⟨_, told⟩ | ⟨_, asking | dropped⟩ := won.others j _ here same <;>
      rcases busy with rfl | rfl <;> contradiction

theorem move (won : s.WonBy i how) (m : Move) : (s.move m).WonBy i how := by
  cases m with
  | call next =>
      obtain ⟨standing, there, wins⟩ := won.winner
      refine ⟨won.record, won.first, ?_, ⟨standing, getElem?_append_of_some there _, wins⟩, ?_⟩
      · intro j mem
        show j < (s.calls ++ [_]).length
        rw [List.length_append]
        exact Nat.lt_add_right _ (won.within j mem)
      · intro j c found apart
        obtain found | ⟨rfl, rfl⟩ := getElem?_concat_cases found
        · exact won.others j c found apart
        · refine .inr ⟨?_, .inl rfl⟩
          intro mem
          exact Nat.lt_irrefl _ (won.within _ mem)
  | claim j =>
      simp only [Contest.move]
      split
      · rename_i other here
        exact won.claimBy here
      · exact won
  | reach j =>
      simp only [Contest.move]
      split
      · rename_i other here
        obtain ⟨rfl, rfl, empty⟩ := won.eq_of_busy here (.inl rfl)
        apply won.setWinner
        show s.reached ++ [(s.token, other)] = [(s.token, other)]
        rw [show s.reached = [] from empty]
        rfl
      · exact won
  | answer j a =>
      simp only [Contest.move]
      split
      · rename_i other here
        obtain ⟨rfl, rfl, alone⟩ := won.eq_of_busy here (.inr rfl)
        apply won.setWinner
        exact ⟨alone, a, rfl⟩
      · exact won
  | drop j =>
      simp only [Contest.move]
      split
      · rename_i other here
        exact won.setIdle here (.inr rfl)
      · rename_i other here
        obtain ⟨rfl, rfl, alone⟩ := won.eq_of_busy here (.inr rfl)
        exact won.setWinner alone
      · exact won

theorem after (won : s.WonBy i how) (moves : List Move) : (s.after moves).WonBy i how := by
  induction moves generalizing s with
  | nil => exact won
  | cons m moves ih => exact ih (won.move m)

end WonBy

namespace Unclaimed

theorem start (token : LockToken) : (start token).Unclaimed where
  record := rfl
  looked := rfl
  reached := rfl
  calls j c found := by simp [Contest.start] at found

/-- The first call to look at the record wins. -/
theorem claimBy (unclaimed : s.Unclaimed) (here : s.calls[i]? = some ⟨how, .asking⟩) :
    (s.claimBy i how).WonBy i how := by
  have within := (List.getElem?_eq_some_iff.mp here).1
  have granted : s.settlement.claim how = .ok ⟨some how⟩ := by
    rw [unclaimed.record]
    rfl
  simp only [Contest.claimBy, granted, unclaimed.looked, List.nil_append]
  refine ⟨rfl, rfl, ?_, ⟨.claimed, List.getElem?_set_self within, unclaimed.reached⟩, ?_⟩
  · intro j mem
    obtain rfl := List.mem_singleton.mp mem
    rwa [List.length_set]
  · intro j c found apart
    rw [List.getElem?_set_ne (Ne.symm apart)] at found
    exact .inr ⟨fun mem => apart (List.mem_singleton.mp mem), unclaimed.calls j c found⟩

/-- A call that has claimed nothing is given up. -/
theorem setIdle (unclaimed : s.Unclaimed) (here : s.calls[j]? = some ⟨other, .asking⟩)
    (idle : standing.IsIdle) :
    { s with calls := s.calls.set j ⟨other, standing⟩ }.Unclaimed := by
  refine ⟨unclaimed.record, unclaimed.looked, unclaimed.reached, ?_⟩
  intro k c found
  obtain ⟨rfl, rfl⟩ | ⟨_, found⟩ := getElem?_set_cases here found
  · exact idle
  · exact unclaimed.calls k c found

theorem move (unclaimed : s.Unclaimed) (m : Move) :
    (s.move m).Unclaimed ∨ ∃ i how, (s.move m).WonBy i how := by
  cases m with
  | call next =>
      left
      refine ⟨unclaimed.record, unclaimed.looked, unclaimed.reached, ?_⟩
      intro j c found
      obtain found | ⟨rfl, rfl⟩ := getElem?_concat_cases found
      · exact unclaimed.calls j c found
      · exact .inl rfl
  | claim j =>
      simp only [Contest.move]
      split
      · rename_i other here
        exact .inr ⟨j, other, unclaimed.claimBy here⟩
      · exact .inl unclaimed
  | reach j | answer j a =>
      simp only [Contest.move]
      split
      · rename_i other here
        obtain asking | dropped := unclaimed.calls j _ here <;> contradiction
      · exact .inl unclaimed
  | drop j =>
      simp only [Contest.move]
      split
      · rename_i other here
        exact .inl (unclaimed.setIdle here (.inr rfl))
      · rename_i other here
        obtain asking | dropped := unclaimed.calls j _ here <;> contradiction
      · exact .inl unclaimed

theorem after (unclaimed : s.Unclaimed) (moves : List Move) :
    (s.after moves).Unclaimed ∨ ∃ i how, (s.after moves).WonBy i how := by
  induction moves generalizing s with
  | nil => exact .inl unclaimed
  | cons m moves ih =>
      obtain unclaimed | ⟨i, how, won⟩ := unclaimed.move m
      · exact ih unclaimed
      · exact .inr ⟨i, how, won.after moves⟩

end Unclaimed

/-! ## Sites -/

/-- The moves of one call with nobody in between. -/
def uninterrupted (i : Nat) (how : Settling) (answer : Except QueueFault Unit) : List Move :=
  [.call how, .claim i, .reach i, .answer i answer]

/-- A site settles by one call that nobody interrupts and that its queue answers. -/
theorem settle_uninterrupted (s : Contest) (site : Site) (how : Settling)
    (record : s.settlement = site.handling.settlement) :
    let s' := s.after (uninterrupted s.calls.length how (site.queueAnswer how))
    s'.settlement = (site.settle how).1.handling.settlement ∧
      s'.calls = s.calls ++ [⟨how, .answered (site.settle how).2⟩] ∧
      s'.reached = s.reached ++
        if s.settlement.claimed.isSome then [] else [(s.token, how)] := by
  cases claim : site.handling.settlement.claim how with
  | error f =>
      have taken : s.settlement.claimed.isSome = true := by
        rw [record]
        cases claimed : site.handling.settlement.claimed with
        | none => simp [Settlement.claim, claimed] at claim
        | some first => rfl
      rw [site.settle_refused how claim, taken]
      simp [uninterrupted, Contest.move, Contest.claimBy, record, claim]
  | ok settlement =>
      have free : s.settlement.claimed.isSome = false := by
        rw [record]
        cases claimed : site.handling.settlement.claimed with
        | none => rfl
        | some first => simp [Settlement.claim, claimed] at claim
      rw [site.settle_claimed how claim, free]
      simp [uninterrupted, Contest.move, Contest.claimBy, record, claim, Site.afterSettling]

/-! ## What holds of every contest -/

/-- A delivery is settled once. In whatever order calls for settling a delivery take their steps,
and whatever the queue answers them or not, the first call that looks at the record is the only one
that reaches the queue, with what it calls for and the token of the delivery, and it comes to what
the queue answers. Every other call that looks is told that the delivery is settled, by the first
disposition and its own. What is recorded then stays, whatever happens afterwards. A site settles
by the steps of one such call. -/
theorem first_claim_settles (token : LockToken) (moves : List Move) :
    let s := (start token).after moves
    s.token = token ∧
      (s.Unclaimed ∨ ∃ i how, ∀ more, (s.after more).WonBy i how) ∧
      ∀ (site : Site) (how : Settling), s.settlement = site.handling.settlement →
        let s' := s.after (uninterrupted s.calls.length how (site.queueAnswer how))
        s'.settlement = (site.settle how).1.handling.settlement ∧
          s'.calls = s.calls ++ [⟨how, .answered (site.settle how).2⟩] ∧
          s'.reached = s.reached ++
            if s.settlement.claimed.isSome then [] else [(token, how)] := by
  have named : ((start token).after moves).token = token := after_token _ moves
  refine ⟨named, ?_, ?_⟩
  · obtain unclaimed | ⟨i, how, won⟩ := (Unclaimed.start token).after moves
    · exact .inl unclaimed
    · exact .inr ⟨i, how, won.after⟩
  · intro site how record
    have settled := settle_uninterrupted _ site how record
    rwa [named] at settled

/-- Two calls come, the second claims first and is refused by the queue, and the first is told. -/
example :
    let s := (start (.issued 1)).after [.call .complete, .call (.deadLetter "spoilt"), .claim 1,
      .claim 0, .reach 1, .answer 1 (.error .closed)]
    s.calls.map (·.standing) =
        [.answered (.error (.alreadySettled .deadLettered .completed)),
          .answered (.error (.queue .closed))] ∧
      s.settlement.disposition = some .deadLettered ∧ s.looked = [1, 0] := by
  exact ⟨rfl, rfl, rfl⟩

end Contest

end Courier
