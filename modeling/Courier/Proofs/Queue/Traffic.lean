import Courier.Proofs.Queue.Batches
import Courier.Proofs.Queue.Fence
import Mathlib.Data.List.Basic

/-!
# Queues in use

Many use one queue: they send, receive, wait for messages or give up waiting, and settle what they
have, with any tokens and in any order, while time passes. A run of such deeds tells a history. A
receive that breaks off ends nothing but itself: the others go on with the queue as it left it.

The locks of a queue are a table without an order of its own, and several locks that have expired
come back in whatever order the table is gone through. So it is one of the deeds that the locks are
put into another order.

The results are about every queue that was new at the beginning of a run.
-/

namespace Courier

open Queue (Record Moves Move Fence Accounts Excused)

/-- A queue in use: the queue, the time, and the receives that wait. -/
structure Traffic where
  state : Exchange.State
  waiting : List Receiving := []

/-- What those who use a queue do, and the passing of time. -/
inductive Traffic.Deed where
  | act (action : Exchange.Action)
  | receive (max : Nat) (wait lock : Duration)
  /-- One who waits looks again, if there is a reason to. -/
  | resume (i : Nat)
  /-- One who waits gives up. -/
  | giveUp (i : Nat)
  | pass (nanoseconds : Nat)
  /-- The locks are kept in this order from now on, if they are these. -/
  | reorder (locked : List Locked)

/-- The receive that waits, if it does. -/
def Receiving.Outcome.waiting? : Receiving.Outcome → Option Receiving
  | .waiting r => some r
  | _ => none

namespace Traffic

/-- A new queue that nobody has used. -/
def start (name : String) (style : TokenStyle) (clock : Clock) : Traffic :=
  { state := { queue := { name := name, tokens := style }, clock := clock } }

def queue (s : Traffic) : Queue := s.state.queue

def now (s : Traffic) : Nat := s.state.clock.now

/-- The same traffic with the locks of its queue kept in another order. -/
def withLocked (s : Traffic) (locked : List Locked) : Traffic :=
  { s with state := { s.state with queue := { s.queue with locked := locked } } }

/-- Goes on after a receive has looked for messages. -/
def received (s : Traffic) (waiting : List Receiving) (lock : Duration)
    (seen : Queue × Receiving.Outcome) : Traffic × List Record :=
  ({ state := { s.state with queue := seen.1 }, waiting := waiting ++ seen.2.waiting?.toList },
    seen.2.records s.now lock)

/-- A deed and what a history tells of it. -/
def step (s : Traffic) : Deed → Traffic × List Record
  | .act a => ({ s with state := (s.state.act a).1 }, a.records s.state)
  | .receive max wait lock =>
    s.received s.waiting lock (Receiving.start s.queue s.now max wait lock)
  | .resume i =>
    match s.waiting[i]? with
    | none => (s, [])
    | some r =>
      s.received (s.waiting.eraseIdx i) r.lock (Receiving.resume s.queue s.state.clock r)
  | .giveUp i => ({ s with waiting := s.waiting.eraseIdx i }, [])
  | .pass n =>
    ({ s with state :=
      { s.state with clock := s.state.clock.advanceTo (s.now + n) } }, [])
  | .reorder locked => (if locked.Perm s.queue.locked then s.withLocked locked else s, [])

/-- Deeds one after the other, and their history. -/
def run (s : Traffic) : List Deed → Traffic × List Record
  | [] => (s, [])
  | deed :: rest => (((s.step deed).1.run rest).1, (s.step deed).2 ++ ((s.step deed).1.run rest).2)

/-! ## Deeds are moves -/

theorem step_moves (s : Traffic) (deed : Deed) :
    Moves s.now s.queue (s.step deed).2 (s.step deed).1.queue ∧ s.now ≤ (s.step deed).1.now := by
  cases deed with
  | act a => exact ⟨s.state.act_moves a, by simp [step, now]⟩
  | receive max wait lock => exact ⟨Receiving.start_moves .., le_rfl⟩
  | resume i =>
      simp only [step]
      split
      · exact ⟨.refl _, le_rfl⟩
      · exact ⟨Receiving.resume_moves s.queue s.state.clock _, le_rfl⟩
  | giveUp i => exact ⟨.refl _, le_rfl⟩
  | pass n => exact ⟨.refl _, by simp [step, now]⟩
  | reorder locked =>
      simp only [step]
      split
      · rename_i perm
        exact ⟨(Move.reorder s.queue locked perm).moves, le_rfl⟩
      · exact ⟨.refl _, le_rfl⟩

theorem step_excused (s : Traffic) (deed : Deed) : Excused (s.step deed).2 := by
  cases deed with
  | act a =>
      change Excused (a.records s.state)
      apply Excused.of_none <;> cases a <;> simp [Exchange.Action.records]
  | receive max wait lock => exact Receiving.start_excused ..
  | resume i =>
      simp only [step]
      split
      · exact .nil
      · exact Receiving.resume_excused s.queue s.state.clock _
  | giveUp | pass | reorder => exact .nil

/-- What every move and the passing of time preserve holds after a run. -/
theorem run_preserve {P : Nat → Queue → List Record → Prop}
    (move : ∀ {now q q' h} past, Move now q h q' → P now q past → P now q' (past ++ h))
    (later : ∀ {now q past time}, P now q past → now ≤ time → P time q past)
    (deeds : List Deed) {s : Traffic} {past : List Record} (start : P s.now s.queue past) :
    P (s.run deeds).1.now (s.run deeds).1.queue (past ++ (s.run deeds).2) := by
  induction deeds generalizing s past with
  | nil => simpa [run] using start
  | cons deed rest ih =>
      obtain ⟨moves, le⟩ := s.step_moves deed
      have after := moves.preserve (P := P s.now) move start
      simpa only [run, List.append_assoc] using ih (later after le)

theorem run_excused (s : Traffic) (deeds : List Deed) : Excused (s.run deeds).2 := by
  induction deeds generalizing s with
  | nil => exact .nil
  | cons deed rest ih => exact (s.step_excused deed).append (ih _)

theorem run_fence (name : String) (style : TokenStyle) (clock : Clock) (deeds : List Deed) :
    Fence ((start name style clock).run deeds).1.now ((start name style clock).run deeds).1.queue
      ((start name style clock).run deeds).2 :=
  run_preserve (P := Fence) (fun _ move fence => move.fence fence)
    (fun fence le => fence.later le) deeds (s := start name style clock)
    (Fence.empty name style clock.now)

/-- What was settled for good or lost at the end of a history stays so and is not delivered in the
history that follows. -/
structure LeftAlone (gone : List Settled) (lost : List Stored) (past : List Record) (q : Queue)
    (h : List Record) : Prop where
  accounts : Accounts q (Queue.sends (past ++ h)) (Queue.issues (past ++ h))
    (Queue.losses (past ++ h))
  stays : gone ⊆ q.gone
  known : lost ⊆ Queue.losses (past ++ h)
  away : ∀ d ∈ Queue.issues h,
    d.message.id ∉ gone.map (·.id) ∧ d.message.id ∉ lost.map (·.message.id)

theorem LeftAlone.move {gone : List Settled} {lost : List Stored} {past h since : List Record}
    {now : Nat} {q q' : Queue} (left : LeftAlone gone lost past q since)
    (move : Move now q h q') : LeftAlone gone lost past q' (since ++ h) where
  accounts := by
    rw [← List.append_assoc]
    exact move.accounts left.accounts
  stays := List.Subset.trans left.stays move.gone_subset
  known x hx := by
    rw [← List.append_assoc, Queue.losses_append]
    exact List.mem_append_left _ (left.known hx)
  away := by
    intro d hd
    rw [Queue.issues_append] at hd
    obtain hd | hd := List.mem_append.mp hd
    · exact left.away d hd
    · obtain ⟨x, hx, same⟩ := move.issues_live hd
      rw [same]
      exact ⟨fun mem => left.accounts.live_not_gone hx (List.map_subset _ left.stays mem),
        fun mem => left.accounts.live_not_lost hx (List.map_subset _ left.known mem)⟩

/-- Whatever is done with a queue that keeps account of its messages, what was completed,
dead-lettered or lost is left alone. -/
theorem run_leaves_alone (s : Traffic) (past : List Record)
    (acc : Accounts s.queue (Queue.sends past) (Queue.issues past) (Queue.losses past))
    (deeds : List Deed) :
    LeftAlone s.queue.gone (Queue.losses past) past (s.run deeds).1.queue (s.run deeds).2 := by
  have start : LeftAlone s.queue.gone (Queue.losses past) past s.queue [] :=
    ⟨by simpa using acc, fun _ he => he, by simp, by simp⟩
  exact run_preserve (P := fun _ => LeftAlone s.queue.gone (Queue.losses past) past)
    (fun _ move left => left.move move) (fun left _ => left) deeds (s := s) start

/-! ## What holds of every run -/

/-- Messages are conserved, but for those that are lost when a receive breaks off. Every message
that was sent is at exactly one place, in the line, under a lock, completed, dead-lettered or lost,
exactly once; what can still be delivered is what was sent; and what is completed, dead-lettered or
lost is not delivered again, whatever is done afterwards.

A message is lost only in a batch one of whose messages has a full count or whose lock would end
past the last instant. In the latter case all of the batch is lost. -/
theorem messages_conserved (name : String) (style : TokenStyle) (clock : Clock)
    (before after : List Deed) :
    let (s, h) := (start name style clock).run before
    let q := s.queue
    let sent := Queue.sends h
    let lost := Queue.losses h
    (q.places ++ lost.map Stored.key).Perm (sent.map Stored.key) ∧
      (sent.map (·.message.id)).Nodup ∧
      q.ready.length + q.locked.length + q.completed.length + q.deadLettered.length +
        lost.length = sent.length ∧
      (∀ x ∈ q.live, x.message ∈ sent.map (·.message)) ∧
      (∀ d ∈ Queue.issues (s.run after).2,
        d.message.id ∉ (q.completed ++ q.deadLettered).map (·.id) ∧
          d.message.id ∉ lost.map (·.message.id)) ∧
      (∀ time lock why x, .lost time lock why x ∈ h →
        why = .instant ∧ Instant.last < time + lock.nanoseconds ∨
          why = .count ∧ ∃ y, .lost time lock .count y ∈ h ∧ y.deliveries = Stored.most) ∧
      ∀ max wait lock, q.failingReceives = 0 → q.closed = false →
        s.now + wait.nanoseconds ≤ Instant.last → Instant.last < s.now + lock.nanoseconds →
        Queue.losses (s.step (.receive max wait lock)).2 = q.front s.now max ∧
          Queue.deliveries (s.step (.receive max wait lock)).2 = [] := by
  have acc := (run_fence name style clock before).accounts
  refine ⟨acc.places, acc.ids_nodup, ?_, fun x hx => ?_, (run_leaves_alone _ _ acc after).away,
    fun _ _ _ _ mem => (run_excused _ before).lost mem, ?_⟩
  · have total := acc.places.length_eq
    simp only [Queue.places, Queue.live, Queue.gone, List.length_append, List.length_map] at total
    omega
  · obtain ⟨y, hy, same⟩ := acc.live_known hx
    exact List.mem_map.mpr ⟨y, hy, same.symm⟩
  · intro max wait lock working opened waits past
    exact Receiving.start_loses working opened waits past

/-- A receive whose lock cannot end in time loses the message that it takes. -/
theorem unlockable_message_lost :
    let longest : Duration := .ofNanoseconds Duration.limit
    let (s, h) := (start "q" .numbered {}).run
      [.act (.send { body := [] }), .receive 1 .zero longest]
    (Queue.sends h).length = 1 ∧ s.queue.places = [] ∧
      s.queue.ready.length + s.queue.locked.length + s.queue.completed.length +
        s.queue.deadLettered.length = 0 := by
  decide +kernel

/-- Locks fence settlements. Unless settlements are made to fail, one succeeds if and only if its
token was issued for a delivery whose lock has not expired at this instant, and has not settled it
before; any other tells that the lock is lost. At most one token of a message could settle it. The
deliveries of a message carry it as it was sent, and their counts go on one by one from the count
that it was sent with. Tokens are issued, and deliveries counted, also by a receive that breaks off
afterwards; but only where the count of a message is full does it leave such deliveries behind. -/
theorem locks_fence_settlements (name : String) (style : TokenStyle) (clock : Clock)
    (deeds : List Deed) :
    let (s, h) := (start name style clock).run deeds
    let issued := Queue.issues h
    (∀ token how, s.queue.failingSettlements = false →
      ((s.queue.settle s.now token how).2 = .ok () ↔ Queue.Settleable h s.now token) ∧
        (¬Queue.Settleable h s.now token →
          (s.queue.settle s.now token how).2 = .error (.lockLost (s.queue.tokenText token)))) ∧
      (∀ d ∈ issued, ∀ e ∈ issued, d.message.id = e.message.id →
        Queue.Settleable h s.now d.token → Queue.Settleable h s.now e.token → d = e) ∧
      (∀ d ∈ issued, ∃ x ∈ Queue.sends h, d.message = x.message) ∧
      (∀ x ∈ Queue.sends h, ∃ k, Queue.Counted x k issued) ∧
      (Queue.deliveries h).Sublist issued ∧
      ((∀ time lock x, .lost time lock .count x ∉ h) → issued = Queue.deliveries h) := by
  have fence := run_fence name style clock deeds
  refine ⟨fun token how working => fence.settle_answer working token how,
    fun d hd e he same => fence.settleable_unique hd he same, fence.accounts.known, ?_,
    Queue.deliveries_sublist _, (run_excused _ deeds).issues_eq⟩
  intro x hx
  obtain ⟨k, counted, _⟩ := fence.accounts.counts x hx
  exact ⟨k, counted⟩

end Traffic

end Courier
