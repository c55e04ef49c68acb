import Courier.Queue

/-!
# A queue used step by step

Actions on one queue, one after the other, under a clock that moves only when an action waits.
While a receive waits, other actions may happen at set times after its beginning.
-/

namespace Courier

namespace Exchange

/-- An action that takes no time. -/
inductive Action where
  | send (message : Outgoing)
  | settle (token : LockToken) (how : Settling)
  | failNextReceives (count : Nat)
  | failSettlements (on : Bool)
  | close
  | completed
  | abandoned
  | deadLettered
  | pending
  | inFlight
  | name
  | describe

/-- One step: an action, a receive during which actions happen, or a while of nothing. -/
inductive Step where
  | act (action : Action)
  | receive (max : Nat) (wait lock : Duration) (during : List (Duration × Action))
  | advance (period : Duration)

/-- The answer to an action. -/
inductive Result where
  | done
  | text (s : String)
  | count (n : Nat)
  | settled (records : List Settled)
  | failed (fault : QueueFault)

/-- The answer to a step. -/
inductive Answer where
  | result (r : Result)
  | received (batch : Except QueueFault (List Delivery)) (waited : Nat) (during : List Result)

/-- What an observer notes after a step; the counts only if asked for. -/
structure Report where
  time : Nat
  answer : Answer
  counts : Option (Nat × Nat)

/-- A queue and the time. -/
structure State where
  queue : Queue
  clock : Clock := {}

/-- An action at the present instant. -/
def State.act (s : State) : Action → State × Result
  | .send m =>
    let (q, id) := s.queue.send m
    ({ s with queue := q }, .text id)
  | .settle token how =>
    let (q, r) := s.queue.settle s.clock.now token how
    ({ s with queue := q }, match r with
      | .ok () => .done
      | .error f => .failed f)
  | .failNextReceives n => ({ s with queue := s.queue.failNextReceives n }, .done)
  | .failSettlements on => ({ s with queue := s.queue.failSettlements on }, .done)
  | .close => ({ s with queue := s.queue.close }, .done)
  | .completed => (s, .settled s.queue.completed)
  | .abandoned => (s, .settled s.queue.abandoned)
  | .deadLettered => (s, .settled s.queue.deadLettered)
  | .pending =>
    let (q, n) := s.queue.pending s.clock.now
    ({ s with queue := q }, .count n)
  | .inFlight =>
    let (q, n) := s.queue.inFlight s.clock.now
    ({ s with queue := q }, .count n)
  | .name => (s, .text s.queue.name)
  | .describe => (s, .text s.queue.description)

/-- Performs the actions whose time has come; each action left keeps its place. -/
def State.actDue (s : State) :
    List (Nat × Nat × Action) → State × List (Nat × Nat × Action) × List (Nat × Result)
  | [] => (s, [], [])
  | (t, place, a) :: rest =>
    if s.clock.due t then
      let (s, r) := s.act a
      let (s, later, done) := s.actDue rest
      (s, later, (place, r) :: done)
    else
      let (s, later, done) := s.actDue rest
      (s, (t, place, a) :: later, done)

/-- When the next of some actions happens, or `t` if that is earlier. -/
def nextTime (clock : Clock) (later : List (Nat × Nat × Action)) (t : Nat) : Nat :=
  (later.map fun (due, _) => clock.alarm due).foldl min t

/-- Lets a receive wait until it is over; the actions that happen meanwhile are performed after
the receive has looked. -/
def State.wait : Nat → State → Receiving.Outcome → List (Nat × Nat × Action) →
    State × Receiving.Outcome × List (Nat × Nat × Action) × List (Nat × Result)
  | 0, s, o, later => (s, o, later, [])
  | fuel + 1, s, .waiting r, later =>
    let (q, o) := Receiving.resume s.queue s.clock r
    let s := { s with queue := q }
    match o with
    | .waiting r =>
      let (s, later, done) := s.actDue later
      let (s, o, later, more) :=
        if Receiving.roused s.queue s.clock r then State.wait fuel s (.waiting r) later
        else
          let next := nextTime s.clock later (s.clock.alarm r.wake)
          State.wait fuel { s with clock := s.clock.advanceTo next } (.waiting r) later
      (s, o, later, done ++ more)
    | o => (s, o, later, [])
  | _ + 1, s, o, later => (s, o, later, [])

/-- Performs the actions that were still to come when the receive was over. -/
def State.finish : Nat → State → List (Nat × Nat × Action) → State × List (Nat × Result)
  | _, s, [] => (s, [])
  | 0, s, _ :: _ => (s, [])
  | fuel + 1, s, (t, rest) :: later =>
    let next := nextTime s.clock later (s.clock.alarm t)
    let (s, left, done) :=
      State.actDue { s with clock := s.clock.advanceTo next } ((t, rest) :: later)
    let (s, more) := State.finish fuel s left
    (s, done ++ more)

/-- How many looks a receive is allowed. -/
def patience : Nat := 1000000

/-- Puts a result into a list sorted by place. -/
def insertByPlace (e : Nat × Result) : List (Nat × Result) → List (Nat × Result)
  | [] => [e]
  | x :: rest => if e.1 < x.1 then e :: x :: rest else x :: insertByPlace e rest

/-- One step, unless a receive breaks off. -/
def State.step (s : State) : Step → Except Overflow (State × Answer)
  | .act a =>
    let (s, r) := s.act a
    .ok (s, .result r)
  | .advance d =>
    .ok ({ s with clock := s.clock.advanceTo (s.clock.alarm (s.clock.now + d.nanoseconds)) },
      .result .done)
  | .receive max wait lock during =>
    let begun := s.clock.now
    let later := during.zipIdx.map fun ((after, a), place) => (begun + after.nanoseconds, place, a)
    let (q, o) := Receiving.start s.queue s.clock.now max wait lock
    let (s, o, later, done) := State.wait patience { s with queue := q } o later
    let waited := s.clock.now - begun
    let (s, more) := State.finish later.length s later
    let during := ((done ++ more).foldr insertByPlace []).map (·.2)
    match o with
    | .failed f => .ok (s, .received (.error f) waited during)
    | .batch ds => .ok (s, .received (.ok ds) waited during)
    | .overflow spill => .error spill.overflow
    | .waiting _ => .ok (s, .received (.ok []) waited during)

/-- The counts of a queue, if asked for: pending first, then in flight. -/
def State.counts (s : State) : Bool → State × Option (Nat × Nat)
  | false => (s, none)
  | true =>
    let (q, pending) := s.queue.pending s.clock.now
    let (q, inFlight) := q.inFlight s.clock.now
    ({ s with queue := q }, some (pending, inFlight))

/-- The reports of a sequence of steps and the queue at the end, or nothing when a receive breaks
off. -/
def State.run (counts : Bool) : State → List Step → Option (List Report × Queue)
  | s, [] => some ([], s.queue)
  | s, a :: rest => do
    let (s, answer) ← (s.step a).toOption
    let (s, seen) := s.counts counts
    let (reports, q) ← State.run counts s rest
    return (⟨s.clock.now, answer, seen⟩ :: reports, q)

/-- What breaks a sequence of steps off, if anything does. -/
def State.overflow? (counts : Bool) : State → List Step → Option Overflow
  | _, [] => none
  | s, a :: rest =>
    match s.step a with
    | .ok (s, _) => State.overflow? counts (s.counts counts).1 rest
    | .error o => some o

end Exchange

end Courier
