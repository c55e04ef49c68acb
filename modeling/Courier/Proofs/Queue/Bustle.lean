import Courier.Proofs.Queue.Moves

/-!
# Calls step by step

A queue keeps its messages under one lock and some counts beside it, so a call works in steps. A
sender gets a number, puts the message into the line and then tells those who wait. A receive sees
whether it is made to fail, notes the count of arrivals, looks at the line and only then waits. The
steps of other calls may come between any two of these, and time may pass.

`Bustle` is a queue with the calls that are under way, each at its own step. A call with nobody in
between does what the queue does at once (`Bustle.Course`).
-/

namespace Courier

namespace Queue

/-- When a receive that finds nothing looks again of itself. -/
def wake (q : Queue) (deadline : Nat) : Nat :=
  match q.nextExpiry? with
  | some expiry => min expiry deadline
  | none => deadline

/-- Whoever takes messages tells nobody and leaves the queue open. -/
theorem take_aside (q : Queue) (now max : Nat) (lock : Duration) :
    (q.take now max lock).1.arrivals = q.arrivals ∧
      (q.take now max lock).1.closed = q.closed := by
  unfold take
  split <;> exact ⟨rfl, rfl⟩

theorem unlock_aside (q : Queue) (now : Nat) (token : LockToken) :
    (q.unlock now token).1.arrivals = q.arrivals ∧
      (q.unlock now token).1.closed = q.closed := by
  unfold unlock
  simp only
  split <;> exact ⟨rfl, rfl⟩

end Queue

namespace Bustle

/-- What somebody asks of a queue. -/
inductive Request where
  | send (message : Outgoing)
  | settle (token : LockToken) (how : Settling)
  | close
  | receive (max : Nat) (wait lock : Duration)

inductive Answer where
  | done
  | id (text : String)
  | settled (answer : Except QueueFault Unit)
  | received (outcome : Receiving.Outcome)

/-- What a receive is for, and until when it waits. -/
structure Wish where
  max : Nat
  lock : Duration
  deadline : Nat

/-- How far a receive has come. -/
inductive Stage where
  /-- It is about to see whether it is made to fail. -/
  | outset
  /-- It has to fail, and leaves it to `left` others to do so. -/
  | doomed (left : Nat)
  | spared
  /-- It has noted the count of arrivals and is about to look at the line. -/
  | listening (seen : Nat)
  /-- It found nothing and waits for an arrival or its timer. -/
  | waiting (seen wake : Nat)
  /-- Its timer has gone off. -/
  | overdue

/-- A call that is under way. -/
inductive Call where
  | request (r : Request)
  /-- A message has its number and is not in the line yet. -/
  | put (s : Stored)
  /-- A settlement is not made to fail. -/
  | unlock (token : LockToken) (how : Settling)
  /-- Everything is done except telling those who wait. -/
  | tell (answer : Answer)
  | receiving (wish : Wish) (stage : Stage)

/-- What a step of a call leads to. -/
inductive Next where
  | goes (call : Call)
  | ends (answer : Answer)

/-- The calls that are left after a step of one. -/
def Next.calls : Next → List Call
  | .goes c => [c]
  | .ends _ => []

/-- Settles under the lock of the queue. An abandoned message has to be told of. -/
def settleLocked (q : Queue) (now : Nat) (token : LockToken) (how : Settling) : Queue × Next :=
  match q.unlock now token with
  | (q, .error f) => (q, .ends (.settled (.error f)))
  | (q, .ok s) =>
    match how with
    | .abandon fault =>
      ({ q.record s (.abandon fault) with arrivals := q.arrivals },
        .goes (.tell (.settled (.ok ()))))
    | how => (q.record s how, .ends (.settled (.ok ())))

/-- A step of a receive. One that waits makes none until there is a reason to. -/
def stepReceive (q : Queue) (clock : Clock) (wish : Wish) : Stage → Option (Queue × Next)
  | .outset =>
    match q.failingReceives with
    | 0 => some (q, .goes (.receiving wish .spared))
    | left + 1 => some (q, .goes (.receiving wish (.doomed left)))
  | .doomed left =>
    some ({ q with failingReceives := left },
      .ends (.received (.failed (.backend (.ofText ("receive failed on " ++ q.name))))))
  | .spared => some (q, .goes (.receiving wish (.listening q.arrivals)))
  | .listening seen =>
    match q.take clock.now wish.max wish.lock with
    | (q, .failed f) => some (q, .ends (.received (.failed f)))
    | (q, .overflow spill) => some (q, .ends (.received (.overflow spill)))
    | (q, .batch []) => some (q, .goes (.receiving wish (.waiting seen (q.wake wish.deadline))))
    | (q, .batch ds) => some (q, .ends (.received (.batch ds)))
  | .waiting seen wake =>
    if q.arrivals != seen then some (q, .goes (.receiving wish .outset))
    else if clock.due wake then some (q, .goes (.receiving wish .overdue))
    else none
  | .overdue =>
    if wish.deadline ≤ clock.now then some (q, .ends (.received (.batch [])))
    else some (q, .goes (.receiving wish .outset))

/-- A step of a call. -/
def Call.step (q : Queue) (clock : Clock) : Call → Option (Queue × Next)
  | .request (.send o) =>
    some ({ q with sent := q.sent + 1 }, .goes (.put (o.stored (Queue.messageId q.name q.sent))))
  | .request (.settle token how) =>
    if q.failingSettlements then
      some (q, .ends (.settled (.error
        (.backend (.ofText ("settlement rejected by " ++ q.name))))))
    else some (q, .goes (.unlock token how))
  | .request .close => some ({ q with closed := true }, .goes (.tell .done))
  | .request (.receive max wait lock) =>
    match Instant.plus? clock.now wait with
    | some deadline => some (q, .goes (.receiving ⟨max, lock, deadline⟩ .outset))
    | none => some (q, .ends (.received (.overflow { overflow := .instant })))
  | .put s => some ({ q with ready := q.ready ++ [s] }, .goes (.tell (.id s.message.id)))
  | .unlock token how => some (settleLocked q clock.now token how)
  | .tell answer => some ({ q with arrivals := q.arrivals + 1 }, .ends answer)
  | .receiving wish stage => stepReceive q clock wish stage

/-- Whether a call has nothing to do but wait. -/
def Call.idle (q : Queue) (clock : Clock) : Call → Bool
  | .receiving _ (.waiting seen wake) => q.arrivals == seen && !clock.due wake
  | _ => false

/-! ## With nobody in between -/

/-- The steps of a call, one after the other, to its end or until it waits. -/
inductive Course (clock : Clock) : Queue → Call → Queue → Answer → Prop where
  | ends {q q' : Queue} {c : Call} {a : Answer} :
      c.step q clock = some (q', .ends a) → Course clock q c q' a
  | goes {q q₁ q' : Queue} {c c₁ : Call} {a : Answer} :
      c.step q clock = some (q₁, .goes c₁) → Course clock q₁ c₁ q' a → Course clock q c q' a
  | waits (q : Queue) (wish : Wish) (seen wake : Nat) :
      Course clock q (.receiving wish (.waiting seen wake)) q
        (.received (.waiting ⟨wish.max, wish.lock, wish.deadline, seen, wake⟩))

section Course

variable (q : Queue) (clock : Clock)

theorem send_course (o : Outgoing) :
    Course clock q (.request (.send o)) (q.send o).1 (.id (q.send o).2) :=
  .goes rfl (.goes rfl (.ends rfl))

theorem close_course : Course clock q (.request .close) q.close .done := .goes rfl (.ends rfl)

theorem settle_course (token : LockToken) (how : Settling) :
    Course clock q (.request (.settle token how)) (q.settle clock.now token how).1
      (.settled (q.settle clock.now token how).2) := by
  unfold Queue.settle
  by_cases failing : q.failingSettlements = true
  · rw [if_pos failing]
    exact .ends (by rw [Call.step, if_pos failing])
  · rw [if_neg failing]
    apply Course.goes (by rw [Call.step, if_neg failing])
    cases released : q.unlock clock.now token with
    | mk q₁ answer =>
        cases answer with
        | error f => exact .ends (by simp only [Call.step, settleLocked, released])
        | ok s =>
            cases how with
            | abandon fault =>
                apply Course.goes (by simp only [Call.step, settleLocked, released]; rfl)
                exact .ends rfl
            | complete | deadLetter reason =>
                exact .ends (by simp only [Call.step, settleLocked, released])

/-- A receive that begins anew does what a look does. -/
theorem look_course (wish : Wish) :
    Course clock q (.receiving wish .outset)
      (Receiving.look q clock.now wish.max wish.lock wish.deadline).1
      (.received (Receiving.look q clock.now wish.max wish.lock wish.deadline).2) := by
  unfold Receiving.look Queue.look
  cases failing : q.failingReceives with
  | succ left =>
      apply Course.goes (by simp only [Call.step, stepReceive, failing]; rfl)
      exact .ends rfl
  | zero =>
      apply Course.goes (by simp only [Call.step, stepReceive, failing]; rfl)
      apply Course.goes rfl
      cases taken : q.take clock.now wish.max wish.lock with
      | mk q₁ take =>
          cases take with
          | overflow spill => exact .ends (by simp only [Call.step, stepReceive, taken])
          | failed f => exact .ends (by simp only [Call.step, stepReceive, taken])
          | batch ds =>
              cases ds with
              | cons d rest => exact .ends (by simp only [Call.step, stepReceive, taken])
              | nil =>
                  have same : q₁.arrivals = q.arrivals := by
                    have kept := (q.take_aside clock.now wish.max wish.lock).1
                    rwa [taken] at kept
                  apply Course.goes (by simp only [Call.step, stepReceive, taken]; rfl)
                  rw [← same]
                  exact .waits q₁ wish q₁.arrivals (q₁.wake wish.deadline)

theorem receive_course (max : Nat) (wait lock : Duration) :
    Course clock q (.request (.receive max wait lock))
      (Receiving.start q clock.now max wait lock).1
      (.received (Receiving.start q clock.now max wait lock).2) := by
  unfold Receiving.start
  cases ending : Instant.plus? clock.now wait with
  | none => exact .ends (by rw [Call.step, ending])
  | some deadline =>
      apply Course.goes (by rw [Call.step, ending])
      exact look_course q clock ⟨max, lock, deadline⟩

/-- A receive that waits goes on as soon as it has a reason to, and stays where it is otherwise. -/
theorem resume_course (r : Receiving) :
    Course clock q (.receiving ⟨r.max, r.lock, r.deadline⟩ (.waiting r.seen r.wake))
      (Receiving.resume q clock r).1 (.received (Receiving.resume q clock r).2) := by
  unfold Receiving.resume
  split
  · rename_i told
    apply Course.goes (by rw [Call.step, stepReceive, if_pos told])
    exact look_course q clock ⟨r.max, r.lock, r.deadline⟩
  · rename_i untold
    split
    · rename_i due
      apply Course.goes (by rw [Call.step, stepReceive, if_neg untold, if_pos due])
      split
      · rename_i late
        exact .ends (by rw [Call.step, stepReceive, if_pos late])
      · rename_i early
        apply Course.goes (by rw [Call.step, stepReceive, if_neg early])
        exact look_course q clock ⟨r.max, r.lock, r.deadline⟩
    · exact .waits q ⟨r.max, r.lock, r.deadline⟩ r.seen r.wake

end Course

/-! ## Many at once -/

/-- What happens at a queue. Calls are known by their places in the list. -/
inductive Move where
  /-- Somebody calls. -/
  | call (r : Request)
  /-- A call makes a step. -/
  | step (i : Nat)
  /-- One who waits gives up. -/
  | giveUp (i : Nat)
  | pending
  | inFlight
  | failNextReceives (count : Nat)
  | failSettlements (on : Bool)
  /-- The locks are kept in another order. -/
  | reorder (locked : List Locked)
  | pass (nanoseconds : Nat)

end Bustle

/-- A queue with the calls that are under way. -/
structure Bustle where
  queue : Queue
  clock : Clock
  calls : List Bustle.Call := []

namespace Bustle

/-- A new queue that nobody has called. -/
def start (name : String) (style : TokenStyle) (clock : Clock) : Bustle :=
  { queue := { name := name, tokens := style }, clock := clock }

def now (s : Bustle) : Nat := s.clock.now

/-- What follows a step of the call at place `i`. -/
def follow (s : Bustle) (i : Nat) (q : Queue) : Next → Bustle
  | .goes c => { s with queue := q, calls := s.calls.set i c }
  | .ends _ => { s with queue := q, calls := s.calls.eraseIdx i }

/-- A move, if it can be made. -/
def move (s : Bustle) : Move → Option Bustle
  | .call r => some { s with calls := s.calls ++ [.request r] }
  | .step i => do
    let c ← s.calls[i]?
    let (q, next) ← c.step s.queue s.clock
    return s.follow i q next
  | .giveUp i =>
    match s.calls[i]? with
    | some (.receiving _ (.waiting _ _)) => some { s with calls := s.calls.eraseIdx i }
    | _ => none
  | .pending => some { s with queue := (s.queue.pending s.now).1 }
  | .inFlight => some { s with queue := (s.queue.inFlight s.now).1 }
  | .failNextReceives n => some { s with queue := s.queue.failNextReceives n }
  | .failSettlements on => some { s with queue := s.queue.failSettlements on }
  | .reorder locked =>
    if locked.Perm s.queue.locked then some { s with queue := { s.queue with locked := locked } }
    else none
  | .pass n => some { s with clock := s.clock.advanceTo (s.now + n) }

/-- Moves one after the other, if they can be made. -/
def run (s : Bustle) : List Move → Option Bustle
  | [] => some s
  | m :: rest => (s.move m).bind fun s' => s'.run rest

/-- The calls on both sides of the one at a place. -/
theorem exists_split {calls : List Call} {i : Nat} {c : Call} (here : calls[i]? = some c) :
    ∃ before after, calls = before ++ c :: after ∧ calls.eraseIdx i = before ++ after ∧
      ∀ c', calls.set i c' = before ++ c' :: after := by
  obtain ⟨within, rfl⟩ := List.getElem?_eq_some_iff.mp here
  refine ⟨calls.take i, calls.drop (i + 1), ?_, ?_, fun c' => ?_⟩
  · rw [List.getElem_cons_drop, List.take_append_drop]
  · exact List.eraseIdx_eq_take_drop_succ calls i
  · rw [List.set_eq_take_append_cons_drop, if_pos within]

/-- A step replaces a call by what is left of it. -/
theorem exists_follow {s : Bustle} {i : Nat} {c : Call} (here : s.calls[i]? = some c) :
    ∃ before after, s.calls = before ++ c :: after ∧ ∀ q next,
      s.follow i q next = { s with queue := q, calls := before ++ (next.calls ++ after) } := by
  obtain ⟨before, after, split, erased, set⟩ := exists_split here
  refine ⟨before, after, split, fun q next => ?_⟩
  cases next with
  | goes c' =>
      rw [follow, set]
      rfl
  | ends a =>
      rw [follow, erased]
      rfl

/-- Everyone who could do something has done it. -/
def Resting (s : Bustle) : Prop := ∀ c ∈ s.calls, c.idle s.queue s.clock = true

end Bustle

end Courier
