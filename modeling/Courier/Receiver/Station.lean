import Courier.Handling.Site
import Courier.Handling.Stages
import Courier.Payload.Format
import Courier.Receiver.Build

/-!
# Receivers at work

A station is a receiver with its queue and its gate, the loops that receive, and the attempts to
handle deliveries. A loop receives as long as fewer attempts are in flight than its capacity; what
it receives it hands to attempts, and what cannot be read it dead-letters itself. Cancellation
comes before everything else that a loop could do. A loop that ends first waits for all of its
attempts.

A loop can also break off, where a receive does or where its capacity does not fit a word. Then its
attempts are aborted: they go no further and give up what they have, their slots, their places in
the queues of gates and in the count of attempts in flight.

Loops and attempts that have ended stay in their lists, so a station remembers what it has done.
`stepLoop` and `stepAttempt` are the only steps: each does as much as can be done without waiting,
and nothing where that is nothing.
-/

namespace Courier

/-- Where a receive loop stands. -/
inductive LoopPhase where
  /-- It has not run yet. -/
  | begun
  /-- It is about to look for room. -/
  | ready
  /-- As many attempts as may be are in flight. -/
  | full
  | receiving (r : Receiving)
  /-- It rests after a failure until an instant. -/
  | resting (dueAt : Nat)
  /-- It receives no more and waits for its attempts. -/
  | draining
  | ended
  /-- It broke off. -/
  | broken (o : Overflow)
  deriving DecidableEq

/-- A receive loop. -/
structure ReceiveLoop where
  token : CancelToken
  phase : LoopPhase := .begun
  /-- The number of attempts that the loop has not seen end. -/
  tracked : Nat := 0

namespace ReceiveLoop

def isOver (l : ReceiveLoop) : Bool :=
  match l.phase with
  | .ended => true
  | .broken _ => true
  | _ => false

end ReceiveLoop

/-- An attempt to handle a delivery, for the loop that received it. -/
structure Attempt where
  loop : Nat
  handling : Handling
  program : Service
  /-- The tickets that it was given, each with the number of the gate. -/
  tickets : List (Nat × Nat) := []
  /-- Whether its loop broke off before it came to its end. -/
  aborted : Bool := false

namespace Attempt

/-- Whether the handling has come to its end. -/
def isDone (a : Attempt) : Bool := a.program.result?.isSome

/-- Whether nothing more becomes of the attempt. -/
def isOver (a : Attempt) : Bool := a.isDone || a.aborted

/-- What is told of an attempt that is aborted after it has begun. -/
def span? (a : Attempt) : Option Span :=
  let ctx := a.handling.context
  let correlationId :=
    (ctx.delivery.message.properties.get? Properties.correlationId).getD ctx.messageId
  match a.program with
  | .await _ _ => some ⟨ctx.receiver, ctx.messageId, ctx.count, correlationId, none⟩
  | _ => none

end Attempt

/-- A receiver at work. The first gate of the premises is the receiver's. -/
structure Station where
  receiver : Receiver
  format : Format := .json
  schema : Schema
  /-- The receiver's own stages and the processor. -/
  own : List Stage := []
  processor : Processor
  premises : Premises
  /-- The loop that was started and not stopped yet. -/
  running : Option Nat := none
  loops : List ReceiveLoop := []
  attempts : List Attempt := []

namespace Station

/-- A receiver that has not been started. -/
def ofReceiver (r : Receiver) (schema : Schema) (queue : Queue) (registry : Registry)
    (messageType : String) (processor : Processor) : Station :=
  { receiver := r
    schema := schema
    processor := processor
    premises :=
      { queue := queue
        gates := [.ofCapacity r.slots]
        registry := registry
        messageType := messageType } }

def withQueue (s : Station) (q : Queue) : Station :=
  { s with premises := { s.premises with queue := q } }

def gate (s : Station) : Gate := s.premises.gate 0

def closeGate (s : Station) : Station := { s with premises := s.premises.setGate 0 s.gate.close }

def setLoop (s : Station) (i : Nat) (l : ReceiveLoop) : Station :=
  { s with loops := s.loops.set i l }

/-- How many attempts of a loop have not ended. -/
def unfinished (s : Station) (i : Nat) : Nat :=
  (s.attempts.filter fun a => a.loop == i && !a.isOver).length

/-! ## Starting and stopping -/

/-- Starts a loop below a token, unless the last one started was not stopped. -/
def start (a : Ambient) (s : Station) (parent : CancelToken) :
    Except Cause (Ambient × Station) :=
  match s.running with
  | some _ => .error (.ofText ("receiver " ++ s.receiver.name ++ " is already started"))
  | none =>
    let (a, token) := a.child parent
    .ok (a, { s with loops := s.loops ++ [{ token := token }], running := some s.loops.length })

/-- Cancels the loop that was started; who stops waits for that loop to end. -/
def stop (a : Ambient) (s : Station) : Ambient × Station × Option Nat :=
  match s.running with
  | none => (a, s, none)
  | some i =>
    match s.loops[i]? with
    | some l => (a.cancel l.token, { s with running := none }, some i)
    | none => (a, { s with running := none }, none)

/-- How a loop ended, once it has. -/
def loopResult? (s : Station) (i : Nat) : Option (Except Cause Unit) :=
  match s.loops[i]? with
  | none => some (.ok ())
  | some l =>
    match l.phase with
    | .ended => some (.ok ())
    | .broken o =>
      some (.error (.ofText ("receiver " ++ s.receiver.name ++ " loop failed: " ++ o.message)))
    | _ => none

/-! ## Deliveries -/

/-- The payload of a message that is labelled right and can be read. -/
def decode (s : Station) (m : Message) : Except CodecFault Payload := do
  s.format.checkContentType m.contentType
  s.format.decode s.schema m.body

/-- Begins to handle a delivery. -/
def dispatch (a : Ambient) (s : Station) (i : Nat) (l : ReceiveLoop) (d : Delivery)
    (payload : Payload) : Ambient × Station :=
  let (a, token) := a.child l.token
  let context : Context :=
    ⟨s.receiver.name, d, payload.toValue, s.receiver.settings.deadLetterDeliveryLimit⟩
  let attempt : Attempt :=
    { loop := i
      handling := .start context token
      program := handle 0 s.own s.processor context }
  ({ a with controller := a.controller.enter }, { s with attempts := s.attempts ++ [attempt] })

/-- Why a message that cannot be read is dead-lettered. -/
def unreadableReason (f : CodecFault) : String := "deserialization failed: " ++ f.message

/-- Dead-letters a delivery that cannot be read. -/
def reject (a : Ambient) (s : Station) (d : Delivery) (f : CodecFault) : Ambient × Station :=
  let name := s.receiver.name
  let a := (a.note (.undecodable name d.message.id f d.message.body)).count (.deadLettered name)
  match s.premises.queue.settle a.now d.token (.deadLetter (unreadableReason f)) with
  | (q, .ok ()) => (a, s.withQueue q)
  | (q, .error e) => (a.note (.undecodableKept name d.message.id e), s.withQueue q)

/-- Hands out or rejects each delivery of a batch; the last part is how many were handed out. -/
def acceptAll (i : Nat) (l : ReceiveLoop) :
    Ambient → Station → List Delivery → Ambient × Station × Nat
  | a, s, [] => (a, s, 0)
  | a, s, d :: rest =>
    match s.decode d.message with
    | .ok payload =>
      let (a, s) := s.dispatch a i l d payload
      let (a, s, n) := acceptAll i l a s rest
      (a, s, n + 1)
    | .error f =>
      let (a, s) := s.reject a d f
      acceptAll i l a s rest

/-! ## Steps -/

/-- The loop receives no more. -/
def drain (a : Ambient) (s : Station) (i : Nat) (l : ReceiveLoop) : Ambient × Station :=
  (a.note (.draining s.receiver.name l.tracked), s.setLoop i { l with phase := .draining })

/-- Aborts an attempt. -/
def abort (a : Ambient) (s : Station) (k : Nat) : Ambient × Station :=
  match s.attempts[k]? with
  | none => (a, s)
  | some t =>
    let a := match t.span? with
      | some span => { a with telemetry := a.telemetry.span span }
      | none => a
    ({ a with controller := a.controller.leave },
      { s with
        premises := s.premises.surrender t.tickets
        attempts := s.attempts.set k { t with aborted := true } })

def abortAll : Ambient → Station → List Nat → Ambient × Station
  | a, s, [] => (a, s)
  | a, s, k :: rest =>
    let (a, s) := abort a s k
    abortAll a s rest

/-- The places of the attempts of a loop that are not over. -/
def underway (s : Station) (i : Nat) : List Nat :=
  (List.range s.attempts.length).filter fun k =>
    (s.attempts[k]?).any fun t => t.loop == i && !t.isOver

/-- The loop breaks off, and its attempts are aborted. -/
def breakOff (a : Ambient) (s : Station) (i : Nat) (l : ReceiveLoop) (o : Overflow) :
    Ambient × Station :=
  let (a, s) := abortAll a s (s.underway i)
  (a, s.setLoop i { l with phase := .broken o })

/-- What a loop does with the outcome of a look into its queue. -/
def receive (a : Ambient) (s : Station) (i : Nat) (l : ReceiveLoop) :
    Queue × Receiving.Outcome → Ambient × Station
  | (q, .waiting r) => (a, (s.withQueue q).setLoop i { l with phase := .receiving r })
  | (q, .batch deliveries) =>
    let (a, s, n) := acceptAll i l a (s.withQueue q) deliveries
    (a, s.setLoop i { l with phase := .ready, tracked := l.tracked + n })
  | (q, .failed .closed) => drain (a.note (.queueClosed s.receiver.name)) (s.withQueue q) i l
  | (q, .failed f) =>
    let backoff := s.receiver.config.receiveErrorBackoff
    (a.note (.receiveFailed s.receiver.name f backoff),
      (s.withQueue q).setLoop i { l with phase := .resting (a.now + backoff.nanoseconds) })
  | (q, .overflow spill) => breakOff a (s.withQueue q) i l spill.overflow

/-- How many attempts a loop may have in flight. -/
def capacity (s : Station) : Nat := (s.receiver.settings.inFlightCapacity?.getD 0).toNat

/-- A loop looks for room and, where there is some, begins to receive. -/
def seek (a : Ambient) (s : Station) (i : Nat) (l : ReceiveLoop) : Ambient × Station :=
  let inFlight := s.unfinished i
  let l := { l with tracked := inFlight }
  if s.capacity ≤ inFlight then (a, s.setLoop i { l with phase := .full })
  else if a.isCancelled l.token then drain a s i l
  else
    receive a s i l (Receiving.start s.premises.queue a.now (s.capacity - inFlight)
      s.receiver.config.receiveWait s.receiver.settings.lockTimeout)

/-- A step of a loop, if it need not wait. -/
def stepLoop (a : Ambient) (s : Station) (i : Nat) : Option (Ambient × Station) :=
  match s.loops[i]? with
  | none => none
  | some l =>
    match l.phase with
    | .begun =>
      let settings := s.receiver.settings
      match settings.inFlightCapacity? with
      | none => some (breakOff a s i l .count)
      | some _ =>
        some
          (a.note (.loopStarted s.receiver.name s.premises.queue.name s.receiver.processor
            settings.maxConcurrentCalls settings.prefetchCount),
           s.setLoop i { l with phase := .ready })
    | .ready => some (seek a s i l)
    | .full =>
      if a.isCancelled l.token then some (drain a s i l)
      else if s.unfinished i < s.capacity then some (a, s.setLoop i { l with phase := .ready })
      else none
    | .receiving r =>
      if a.isCancelled l.token then some (drain a s i l)
      else if Receiving.roused s.premises.queue a.clock r then
        some (receive a s i l (Receiving.resume s.premises.queue a.clock r))
      else none
    | .resting t =>
      if a.isCancelled l.token then some (drain a s i l)
      else if a.clock.due t then some (a, s.setLoop i { l with phase := .ready })
      else none
    | .draining =>
      if s.unfinished i = 0 then
        some (a.note (.loopStopped s.receiver.name), s.setLoop i { l with phase := .ended })
      else none
    | .ended => none
    | .broken _ => none

/-- All that an attempt can reach. -/
def site (a : Ambient) (s : Station) (t : Attempt) : Site := ⟨a, s.premises, t.handling⟩

/-- A step of an attempt, if it need not wait. An attempt that ends is no longer in flight. -/
def stepAttempt (a : Ambient) (s : Station) (k : Nat) : Option (Ambient × Station) :=
  match s.attempts[k]? with
  | none => none
  | some t =>
    if t.aborted then none
    else if t.program.canResume (s.site a t) then
      let (site, program) := t.program.resume (s.site a t)
      let t : Attempt :=
        { t with
          handling := site.handling
          program := program
          tickets := t.tickets ++ s.premises.ticketsSince site.premises }
      let a := site.ambient
      let a := if t.isDone then { a with controller := a.controller.leave } else a
      some (a, { s with premises := site.premises, attempts := s.attempts.set k t })
    else none

/-- The instants for which loops and attempts wait. -/
def wakes (s : Station) : List Nat :=
  (s.loops.filterMap fun l =>
    match l.phase with
    | .receiving r => some r.wake
    | .resting t => some t
    | _ => none) ++
    (s.attempts.filter fun t => !t.aborted).filterMap (·.program.wake?)

/-- How a station describes itself. -/
def description (s : Station) : String :=
  let settings := s.receiver.settings
  "ChannelReceiver \x7b name: " ++ quoted s.receiver.name ++
    ", processor: " ++ quoted s.receiver.processor ++
    ", transport: " ++ quoted s.premises.queue.name ++
    ", settings: ProcessingSettings \x7b max_concurrent_calls: " ++
    toString settings.maxConcurrentCalls ++
    ", prefetch_count: " ++ toString settings.prefetchCount ++
    ", lock_timeout: " ++ settings.lockTimeout.text ++
    ", dead_letter_delivery_limit: " ++ toString settings.deadLetterDeliveryLimit ++
    " \x7d, .. \x7d"

end Station

end Courier
