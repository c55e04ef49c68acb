import Courier.Bench.Script
import Courier.Handling.Site

/-!
# Deliveries handled one by one

A message is sent to a queue, received and handled at once, while the clock moves on only when the
handling has to wait. Whatever falls back into the queue is locked away before the next message is
sent.
-/

namespace Courier

namespace Rehearsal

/-- Why a rehearsal cannot go on. -/
inductive Breakdown where
  /-- A message could not be locked. -/
  | overflow (o : Overflow)
  /-- The handling waits for what will never happen. -/
  | stuck
  /-- A script broke off where nothing contains it. -/
  | panicked (text : Option String)
  deriving DecidableEq

/-- A message and how it is handled. -/
structure Parcel where
  message : Outgoing
  receiver : String
  payload : Value
  limit : UInt32
  lock : Duration
  /-- Whether the handling is cancelled from the start. -/
  cancelled : Bool := false
  /-- How long before the handling is cancelled, counted from before the message is sent. -/
  cancelAfter : Option Duration := none
  /-- Whether the queue refuses settlements meanwhile. -/
  failSettlements : Bool := false
  /-- How long the delivery lies around before it is handled. -/
  age : Duration := .zero

/-- What an observer notes after a message. -/
structure Report where
  time : Nat
  verdict : Verdict ProcessingFault
  disposition : Option Disposition
  available : Nat
  pending : Nat
  inFlight : Nat

/-- Moves the clock on and cancels the handling if it is time to. -/
def moveTo (cancelAt : Option Nat) (s : Site) (t : Nat) : Site :=
  let a := { s.ambient with clock := s.ambient.clock.advanceTo t }
  match cancelAt with
  | some c => s.withAmbient (if a.clock.due c then a.cancel s.handling.token else a)
  | none => s.withAmbient a

/-- When something happens next: what the program waits for, or the cancellation. -/
def nextTime? {α : Type} (cancelAt : Option Nat) (s : Site) (p : Program α) : Option Nat :=
  let c := (cancelAt.filter fun _ => !s.isCancelled).map s.ambient.clock.alarm
  let w := p.wake?.map s.ambient.clock.alarm
  match c, w with
  | some c, some w => some (min c w)
  | some c, none => some c
  | none, w => w

/-- Runs a program to its end while time passes. -/
def run {α : Type} (cancelAt : Option Nat) : Nat → Site → Program α → Site × Option α
  | 0, s, _ => (s, none)
  | fuel + 1, s, p =>
    match p.resume s with
    | (s, .done a) => (s, some a)
    | (s, rest) =>
      match nextTime? cancelAt s rest with
      | some t => run cancelAt fuel (moveTo cancelAt s t) rest
      | none => (s, none)

/-- How many waits a program is allowed. -/
def patience : Nat := 1000000

/-- Sends and receives the message of a parcel. -/
def deliver (a : Ambient) (p : Premises) (parcel : Parcel) : Except Breakdown Site :=
  let (cs, token) := a.cancellations.root
  let a := { a with cancellations := if parcel.cancelled then cs.cancel token else cs }
  let (q, _) := p.queue.send parcel.message
  match q.take a.now 1 parcel.lock with
  | (q, .batch (delivery :: _)) =>
    let context : Context := ⟨parcel.receiver, delivery, parcel.payload, parcel.limit⟩
    .ok ⟨a, { p with queue := q }, .start context token⟩
  | (_, .overflow spill) => .error (.overflow spill.overflow)
  | _ => .error .stuck

/-- Runs the program of a parcel from the moment at which its message is sent. -/
def runParcel {α : Type} (program : Context → Program α) (a : Ambient) (p : Premises)
    (parcel : Parcel) : Except Breakdown (Site × α) := do
  let cancelAt := parcel.cancelAfter.map fun d => a.now + d.nanoseconds
  let s ← deliver a p parcel
  let s := s.withQueue (s.premises.queue.failSettlements parcel.failSettlements)
  let aged : Program α :=
    if parcel.age.isZero then program s.handling.context
    else (Program.sleep parcel.age).bind fun _ => program s.handling.context
  match run cancelAt patience s aged with
  | (s, some v) => .ok (s.withQueue (s.premises.queue.failSettlements false), v)
  | (_, none) => .error .stuck

/-- The lock under which messages are put away. -/
def storage : Duration := .ofSeconds (Nat.pow 2 30)

/-- Locks away whatever can be received. -/
def putAway (now : Nat) (q : Queue) : Except Breakdown Queue :=
  let (q, n) := q.pending now
  if n = 0 then .ok q
  else match q.take now n storage with
    | (_, .overflow spill) => .error (.overflow spill.overflow)
    | (q, _) => .ok q

/-- Handles a parcel and reports. -/
def step (service : Context → Service) (a : Ambient) (p : Premises) (parcel : Parcel) :
    Except Breakdown (Ambient × Premises × Report) := do
  let (s, verdict) ← runParcel service a p parcel
  let now := s.ambient.now
  let (q, pending) := s.premises.queue.pending now
  let (q, inFlight) := q.inFlight now
  let report : Report :=
    { time := now
      verdict := verdict
      disposition := s.disposition
      available := (s.premises.gate 0).free
      pending := pending
      inFlight := inFlight }
  return (s.ambient, { s.premises with queue := ← putAway now q }, report)

/-- Handles parcels one after the other. -/
def runAll (service : Context → Service) (a : Ambient) (p : Premises) :
    List Parcel → Except Breakdown (Ambient × Premises × List Report)
  | [] => .ok (a, p, [])
  | parcel :: rest => do
    let (a, p, report) ← step service a p parcel
    let (a, p, reports) ← runAll service a p rest
    return (a, p, report :: reports)

/-- What a script run on a delivery leaves behind. -/
structure Aftermath where
  verdict : Verdict Cause
  site : Site
  pending : Nat
  inFlight : Nat

/-- Runs a script on a delivery, outside of any stage. -/
def rehearse (p : Premises) (parcel : Parcel) (script : List Script.Step) :
    Except Breakdown Aftermath := do
  let (s, verdict) ← runParcel (fun _ => Script.run script) {} p parcel
  let (q, pending) := s.premises.queue.pending s.ambient.now
  let (q, inFlight) := q.inFlight s.ambient.now
  match verdict with
  | .panicked text => throw (.panicked text)
  | verdict => return ⟨verdict, s.withQueue q, pending, inFlight⟩

/-- A gate some of whose slots are held for good, and which may then be closed. -/
def preparedGate (capacity held : Nat) (closed : Bool) : Gate :=
  let g := (List.range held).foldl (fun g _ => g.request.1) (Gate.ofCapacity capacity)
  if closed then g.close else g

end Rehearsal

end Courier
