import Courier.Fault
import Courier.Text.Quoted
import Courier.Time.Clock

/-!
# Queues with locked deliveries

A queue hands messages out under locks. A delivered message is invisible until its delivery is
settled or its lock expires; an expired lock puts the message back at the end of the line. Every
call that looks at the locks first returns the messages whose locks have expired, so a lock counts
as held strictly before its expiry and no longer.

The messages of a batch are taken out of the line together and then locked one after the other.
Where one of them cannot be locked the receive breaks off: those before it are locked under tokens
that nobody has, and it and those after it are lost. Otherwise a message is always in one place:
ready, locked, completed or dead-lettered. The lists of settlements only grow.
-/

namespace Courier

/-- A message in a queue with the number of its deliveries so far. -/
structure Stored where
  message : Message
  deliveries : UInt32
  deriving DecidableEq

/-- A delivery that is locked: the serial number of its token and when the lock expires. -/
structure Locked where
  serial : Nat
  stored : Stored
  expiresAt : Nat
  deriving DecidableEq

/-- The record of a settlement. -/
structure Settled where
  id : String
  body : Bytes
  count : UInt32
  reason : Option String
  deriving DecidableEq

namespace Stored

/-- The number of deliveries that cannot grow. -/
def most : UInt32 := UInt32.ofNat (Nat.pow 2 32 - 1)

/-- A message delivered once more. -/
def again (s : Stored) : Stored := { s with deliveries := s.deliveries + 1 }

/-- The record of settling the latest delivery of a message. -/
def settled (s : Stored) (reason : Option String) : Settled :=
  ⟨s.message.id, s.message.body, s.deliveries, reason⟩

end Stored

/-- How a queue shows its lock tokens. -/
inductive TokenStyle where
  /-- By their number. -/
  | numbered
  /-- All by one word. -/
  | hidden
  deriving DecidableEq

/-- How a delivery is settled. -/
inductive Settling where
  | complete
  /-- Gives the message back, with the fault that was the cause. -/
  | abandon (fault : Option ProcessingFault)
  | deadLetter (reason : String)

namespace Settling

def disposition : Settling → Disposition
  | .complete => .completed
  | .abandon _ => .abandoned
  | .deadLetter _ => .deadLettered

end Settling

/-- A queue. -/
structure Queue where
  name : String
  /-- The messages that can be received, the next one first. -/
  ready : List Stored := []
  /-- The deliveries under lock, the latest last. -/
  locked : List Locked := []
  completed : List Settled := []
  abandoned : List Settled := []
  deadLettered : List Settled := []
  closed : Bool := false
  /-- The number of messages sent so far. -/
  sent : Nat := 0
  /-- The number of tokens issued so far. -/
  issued : Nat := 0
  /-- How often waiting receivers have been told to look again. -/
  arrivals : Nat := 0
  /-- How many of the next receives fail. -/
  failingReceives : Nat := 0
  /-- Whether settlements are refused. -/
  failingSettlements : Bool := false
  tokens : TokenStyle := .hidden

namespace Queue

/-- The text of a lock token. -/
def tokenText (q : Queue) : LockToken → String
  | .issued n =>
    match q.tokens with
    | .numbered => "T" ++ toString n
    | .hidden => "TOKEN"
  | .foreign text => text

/-- Adds a message at the end of the line and returns its id. -/
def send (q : Queue) (o : Outgoing) : Queue × String :=
  let id := q.name ++ "-" ++ toString (q.sent + 1)
  let stored : Stored := ⟨⟨id, o.body, o.contentType, o.properties⟩, o.priorDeliveries⟩
  ({ q with
      ready := q.ready ++ [stored]
      sent := q.sent + 1
      arrivals := q.arrivals + 1 }, id)

/-- Puts the messages whose locks have expired back into the line. -/
def reclaim (q : Queue) (now : Nat) : Queue :=
  { q with
    ready := q.ready ++ (q.locked.filter fun l => l.expiresAt ≤ now).map (·.stored)
    locked := q.locked.filter fun l => now < l.expiresAt }

/-- The earliest expiry of a lock. -/
def nextExpiry? (q : Queue) : Option Nat := (q.locked.map (·.expiresAt)).min?

/-- How many messages a receive of at most `max` takes: at least one is always asked for. -/
def batchSize (q : Queue) (max : Nat) : Nat := Nat.min (Nat.max max 1) q.ready.length

/-- Locks a message until an instant, if there is one, and its count can grow. -/
def lockOne (expiry? : Option Nat) (serial : Nat) (s : Stored) : Except Overflow Locked :=
  if s.deliveries = Stored.most then .error .count
  else
    match expiry? with
    | none => .error .instant
    | some t => .ok ⟨serial, s.again, t⟩

/-- Locks the messages of a batch one after the other, with tokens from `serial` on, and breaks off
at the first that cannot be locked. The second part is why, and what is not locked then. -/
def lockAll (expiry? : Option Nat) :
    Nat → List Stored → List Locked × Option (Overflow × List Stored)
  | _, [] => ([], none)
  | serial, s :: rest =>
    match lockOne expiry? serial s with
    | .error o => ([], some (o, s :: rest))
    | .ok l =>
      let (locks, left) := lockAll expiry? (serial + 1) rest
      (l :: locks, left)

/-- The delivery that a lock belongs to. -/
def deliveryOf (l : Locked) : Delivery := ⟨l.stored.message, l.stored.deliveries, .issued l.serial⟩

/-- What a receive leaves behind that breaks off: the deliveries that nobody gets and the messages
that are in no place any more. -/
structure Spill where
  overflow : Overflow
  strays : List Delivery := []
  lost : List Stored := []
  deriving DecidableEq

/-- The answer to one look for messages. -/
inductive Take where
  | failed (fault : QueueFault)
  | batch (deliveries : List Delivery)
  /-- A message could not be locked, and there is no answer. -/
  | overflow (spill : Spill)
  deriving DecidableEq

/-- Locks the first messages of the line, at most `max` of them, for `lock` from now. -/
def take (q : Queue) (now max : Nat) (lock : Duration) : Queue × Take :=
  if q.closed then (q, .failed .closed)
  else
    let q := q.reclaim now
    let n := q.batchSize max
    let (locks, left) := lockAll (Instant.plus? now lock) (q.issued + 1) (q.ready.take n)
    ({ q with
        ready := q.ready.drop n
        locked := q.locked ++ locks
        issued := q.issued + locks.length },
      match left with
      | none => .batch (locks.map deliveryOf)
      | some (o, lost) => .overflow ⟨o, locks.map deliveryOf, lost⟩)

/-- One look of a receive: fails while receives are made to fail, else takes messages. -/
def look (q : Queue) (now max : Nat) (lock : Duration) : Queue × Take :=
  match q.failingReceives with
  | n + 1 =>
    ({ q with failingReceives := n },
      .failed (.backend (.ofText ("receive failed on " ++ q.name))))
  | 0 => q.take now max lock

/-- The lock that a token names. -/
def lock? (q : Queue) : LockToken → Option Locked
  | .issued n => q.locked.find? fun l => l.serial == n
  | .foreign _ => none

/-- Releases the lock that a token names. -/
def unlock (q : Queue) (now : Nat) (token : LockToken) : Queue × Except QueueFault Stored :=
  let q := q.reclaim now
  match q.lock? token with
  | some l => ({ q with locked := q.locked.filter fun m => m.serial != l.serial }, .ok l.stored)
  | none => (q, .error (.lockLost (q.tokenText token)))

/-- What becomes of a message that is settled. -/
def record (q : Queue) (s : Stored) : Settling → Queue
  | .complete => { q with completed := q.completed ++ [s.settled none] }
  | .abandon fault =>
    { q with
      abandoned := q.abandoned ++ [s.settled (fault.map (·.message))]
      ready := q.ready ++ [s]
      arrivals := q.arrivals + 1 }
  | .deadLetter reason => { q with deadLettered := q.deadLettered ++ [s.settled (some reason)] }

/-- Settles the delivery that a token names. -/
def settle (q : Queue) (now : Nat) (token : LockToken) (how : Settling) :
    Queue × Except QueueFault Unit :=
  if q.failingSettlements then
    (q, .error (.backend (.ofText ("settlement rejected by " ++ q.name))))
  else
    match q.unlock now token with
    | (q, .ok s) => (q.record s how, .ok ())
    | (q, .error f) => (q, .error f)

/-- How many messages can be received. -/
def pending (q : Queue) (now : Nat) : Queue × Nat :=
  let q := q.reclaim now
  (q, q.ready.length)

/-- How many deliveries are locked. -/
def inFlight (q : Queue) (now : Nat) : Queue × Nat :=
  let q := q.reclaim now
  (q, q.locked.length)

/-- Ends receiving: everyone who waits is told. -/
def close (q : Queue) : Queue := { q with closed := true, arrivals := q.arrivals + 1 }

def failNextReceives (q : Queue) (count : Nat) : Queue := { q with failingReceives := count }

def failSettlements (q : Queue) (on : Bool) : Queue := { q with failingSettlements := on }

/-- How a queue describes itself; locks that have expired still count. -/
def description (q : Queue) : String :=
  "InMemoryTransport \x7b name: " ++ quoted q.name ++ ", pending: " ++ toString q.ready.length ++
    ", in_flight: " ++ toString q.locked.length ++ ", .. \x7d"

end Queue

/-- A receive that found nothing and waits: for how many messages and which lock, until when, the
count of arrivals it has seen, and when it looks again of itself. -/
structure Receiving where
  max : Nat
  lock : Duration
  deadline : Nat
  seen : Nat
  wake : Nat
  deriving DecidableEq

namespace Receiving

/-- What a receive has come to. -/
inductive Outcome where
  | failed (fault : QueueFault)
  /-- The messages received; none when the wait is over. -/
  | batch (deliveries : List Delivery)
  | overflow (spill : Queue.Spill)
  | waiting (r : Receiving)
  deriving DecidableEq

/-- Looks for messages. When there are none it waits for an arrival, for the expiry of a lock, or
for the end of the wait. -/
def look (q : Queue) (now max : Nat) (lock : Duration) (deadline : Nat) : Queue × Outcome :=
  match q.look now max lock with
  | (q, .failed f) => (q, .failed f)
  | (q, .overflow spill) => (q, .overflow spill)
  | (q, .batch []) =>
    let wake := match q.nextExpiry? with
      | some expiry => min expiry deadline
      | none => deadline
    (q, .waiting ⟨max, lock, deadline, q.arrivals, wake⟩)
  | (q, .batch ds) => (q, .batch ds)

/-- Begins to receive. -/
def start (q : Queue) (now max : Nat) (wait lock : Duration) : Queue × Outcome :=
  match Instant.plus? now wait with
  | some deadline => look q now max lock deadline
  | none => (q, .overflow { overflow := .instant })

/-- Whether a waiting receive has a reason to look again. -/
def roused (q : Queue) (clock : Clock) (r : Receiving) : Bool :=
  q.arrivals != r.seen || clock.due r.wake

/-- Goes on with a waiting receive: looks again after an arrival or when it is time to, and ends
when the time is up without an arrival. -/
def resume (q : Queue) (clock : Clock) (r : Receiving) : Queue × Outcome :=
  if q.arrivals != r.seen then look q clock.now r.max r.lock r.deadline
  else if clock.due r.wake then
    if r.deadline ≤ clock.now then (q, .batch [])
    else look q clock.now r.max r.lock r.deadline
  else (q, .waiting r)

end Receiving

end Courier
