import Courier.Plant.Run

/-!
# Shifts

What the benches on plants have in common: actions at set times, actions on the queue of a station
and on the store of leases, the answers to actions, and what an observer notes of a queue. Before an
action the plant runs until the time of the action, and after it until nothing can take a step.
-/

namespace Courier

namespace Shift

/-- What someone outside does with a queue. -/
inductive QueueAction where
  | send (message : Outgoing)
  | failNextReceives (count : Nat)
  | failSettlements (on : Bool)
  | close

/-- What someone outside does with the store of leases. -/
inductive StoreAction where
  | revoke (lockId : String)
  | failNextRenewals (count : Nat)
  | unavailable (on : Bool)
  | prepare
  /-- Takes a lease behind the backs of all others. -/
  | steal (lockId : String) (period : Duration)

/-- The answer to an action. -/
inductive Result where
  | done
  | text (s : String)
  | found (b : Bool)
  | names (l : List String)
  | config (instanceId : String) (drainTimeout : Duration)
  | failed (cause : Cause)
  | lockFailed (fault : LockFault)
  | hostFailed (fault : HostFault)
  /-- A host was shut down. -/
  | closed (drained : Bool) (waited : Nat)
  /-- The action broke off. -/
  | broken (o : Overflow)

namespace Result

/-- What broke an action off, if anything did. -/
def overflow? : Result → Option Overflow
  | .broken o => some o
  | _ => none

def ofAnswer : Except Cause Unit → Result
  | .ok () => .done
  | .error cause => .failed cause

end Result

/-- Acts on the queue of a station; sending answers with the id of the message. -/
def onQueue (p : Plant) (station : Nat) (act : QueueAction) : Plant × Result :=
  match p.stations[station]? with
  | none => (p, .done)
  | some s =>
    let q := s.premises.queue
    let (q, r) : Queue × Result := match act with
      | .send message => let (q, id) := q.send message; (q, .text id)
      | .failNextReceives count => (q.failNextReceives count, .done)
      | .failSettlements on => (q.failSettlements on, .done)
      | .close => (q.close, .done)
    (p.setStation station (s.withQueue q), r)

def withStore (p : Plant) (s : LeaseStore) : Plant :=
  { p with locks := { p.locks with store := s } }

/-- Acts on the store of leases; stealing answers whether there was a lease to be had. -/
def onStore (p : Plant) (act : StoreAction) : Plant × Result :=
  let s := p.locks.store
  match act with
  | .revoke id => (withStore p (s.revoke id), .done)
  | .failNextRenewals n => (withStore p (s.failNextRenewals n), .done)
  | .unavailable on => (withStore p (s.setAvailable (!on)), .done)
  | .prepare =>
    (p, match s.prepare with
      | .ok () => .done
      | .error f => .lockFailed f)
  | .steal id period =>
    let (s, r) := s.acquire p.now id period
    (withStore p s, match r with
      | .ok lease => .found lease.isSome
      | .error (.fault f) => .lockFailed f
      | .error (.overflow o) => .broken o)

/-- Which locks are held by a live lease. -/
def held (p : Plant) (lockIds : List String) : List Bool :=
  lockIds.map fun id => (p.locks.store.holder? p.now id).isSome

/-- What an observer notes of a queue. -/
structure Counts where
  pending : Nat
  inFlight : Nat
  completed : Nat
  abandoned : Nat
  deadLettered : Nat

/-- Looks at the queue of a station, which puts back what is no longer locked. -/
def count (p : Plant) (station : Nat) : Plant × Counts :=
  match p.stations[station]? with
  | none => (p, ⟨0, 0, 0, 0, 0⟩)
  | some s =>
    let (q, pending) := s.premises.queue.pending p.now
    let (q, inFlight) := q.inFlight p.now
    (p.setStation station (s.withQueue q),
      ⟨pending, inFlight, q.completed.length, q.abandoned.length, q.deadLettered.length⟩)

/-- Looks at the queues of some stations, one after the other. -/
def countAll (p : Plant) : List Nat → Plant × List Counts
  | [] => (p, [])
  | i :: rest =>
    let (p, c) := count p i
    let (p, cs) := countAll p rest
    (p, c :: cs)

/-! ## What is left at the end -/

/-- The entries of an author by time, message and delivery. -/
def entries (p : Plant) (author : Nat) : List Entry :=
  let le (a b : Entry) : Bool :=
    if a.time != b.time then a.time < b.time
    else if a.messageId != b.messageId then a.messageId < b.messageId
    else a.count ≤ b.count
  (p.ambient.journal.reverse.filter fun e => e.author == author).mergeSort le

/-- Settlements by message and delivery. -/
def sortSettled (l : List Settled) : List Settled :=
  l.mergeSort fun a b => if a.id != b.id then a.id < b.id else a.count ≤ b.count

/-- What doubles did by time and name. -/
def sortPlays (p : Plant) (l : List Play) : List Play :=
  let name (e : Play) : String := p.partName (.double e.double)
  l.reverse.mergeSort fun a b => if a.time != b.time then a.time < b.time else !(name b < name a)

/-! ## The course of a shift -/

/-- Lets the plant run until it is time for an action. -/
def await (p : Plant) (time : Nat) : Plant :=
  p.runUntil (max time p.now) Plant.patience

/-- Lets everything go on after an action. -/
def rest (p : Plant) : Plant := p.settle Plant.patience

/-- Steps one after the other, and what each of them reports. -/
def steps {σ α β : Type} (step : σ → α → σ × β) : σ → List α → σ × List β
  | s, [] => (s, [])
  | s, a :: rest =>
    let (s, b) := step s a
    let (s, bs) := steps step s rest
    (s, b :: bs)

/-- An empty plant whose controller has a token of its own. -/
def emptyPlant : Plant :=
  let (cs, token) := ({} : Cancellations).root
  { ambient := { cancellations := cs, controller := { token := token } } }

/-- A new token that descends from none. -/
def rootToken (p : Plant) : Plant × CancelToken :=
  let (cs, token) := p.ambient.cancellations.root
  (p.withAmbient { p.ambient with cancellations := cs }, token)

/-- Waits until a call to a part is answered. -/
def complete (p : Plant) (call : Call) : Plant × Result :=
  match p.await (.calling call) with
  | (p, .called answer _) => (p, .ofAnswer answer)
  | (p, _) => (p, .done)

/-- Starts a part and waits until it has started. -/
def start (p : Plant) (part : Part) (token : CancelToken) : Plant × Result :=
  let (p, call) := p.beginStart part token
  complete p call

/-- Stops a part and waits until it has stopped. -/
def stop (p : Plant) (part : Part) : Plant × Result :=
  let (p, call) := p.beginStop part
  complete p call

end Shift

end Courier
