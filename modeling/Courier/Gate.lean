import Courier.Fault

/-!
# Admission gates

A gate lets a fixed number of callers in at once. Who finds no free slot waits, and slots are
handed to the waiting in the order of their requests. A handed slot belongs to the one it was
handed to, but a waiter that was cancelled, or one that finds the gate closed, takes no slot: the
slot goes on to the next.

Requests are told apart by tickets. Every slot is free, handed to a waiter that has not taken it
yet, or held.
-/

namespace Courier

/-- A gate. -/
structure Gate where
  capacity : Nat
  /-- How many slots no one has. -/
  free : Nat
  /-- Who waits, in the order of the requests. -/
  waiting : List Nat := []
  /-- Who was handed a slot and has not taken it yet. -/
  granted : List Nat := []
  /-- Who holds a slot. -/
  holding : List Nat := []
  closed : Bool := false
  /-- The number of requests made so far. -/
  issued : Nat := 0

namespace Gate

/-- A gate with all its slots free. -/
def ofCapacity (n : Nat) : Gate := { capacity := n, free := n }

/-- The answer to a request. -/
inductive Entry where
  | refused
  /-- The caller holds a slot under this ticket. -/
  | admitted (ticket : Nat)
  /-- The caller waits under this ticket. -/
  | queued (ticket : Nat)
  deriving DecidableEq

/-- Hands a slot that has become free to the first in the queue. -/
def passOn (g : Gate) : Gate :=
  match g.waiting with
  | next :: rest => { g with waiting := rest, granted := g.granted ++ [next] }
  | [] => { g with free := g.free + 1 }

/-- Asks for a slot. -/
def request (g : Gate) : Gate × Entry :=
  if g.closed then (g, .refused)
  else
    let ticket := g.issued
    match g.free with
    | n + 1 =>
      ({ g with free := n, holding := g.holding ++ [ticket], issued := ticket + 1 },
        .admitted ticket)
    | 0 => ({ g with waiting := g.waiting ++ [ticket], issued := ticket + 1 }, .queued ticket)

/-- Whether there is news for a waiting ticket. -/
def decided (g : Gate) (ticket : Nat) : Bool := g.closed || g.granted.contains ticket

/-- Takes a waiting ticket back; a slot it was handed goes on to the next. -/
def withdraw (g : Gate) (ticket : Nat) : Gate :=
  if g.granted.contains ticket then
    passOn { g with granted := g.granted.erase ticket }
  else { g with waiting := g.waiting.erase ticket }

/-- What becomes of a waiting ticket: cancellation comes before the closing of the gate, and both
before a slot. Nothing comes of it as long as it has to wait. -/
def resume (g : Gate) (ticket : Nat) (cancelled : Bool) : Gate × Option (Except GateFault Unit) :=
  if cancelled then (g.withdraw ticket, some (.error .cancelled))
  else if g.closed then (g.withdraw ticket, some (.error .closed))
  else if g.granted.contains ticket then
    ({ g with granted := g.granted.erase ticket, holding := g.holding ++ [ticket] }, some (.ok ()))
  else (g, none)

/-- Gives a held slot back. -/
def release (g : Gate) (ticket : Nat) : Gate :=
  if g.holding.contains ticket then passOn { g with holding := g.holding.erase ticket } else g

/-- Gives up whatever a ticket stands for, a place in the queue or a slot. -/
def surrender (g : Gate) (ticket : Nat) : Gate := (g.withdraw ticket).release ticket

/-- Closes the gate: no one gets in any more, and the queue is dissolved. Slots that are held stay
held. -/
def close (g : Gate) : Gate := { g with closed := true, waiting := [] }

@[simp] theorem ofCapacity_capacity (n : Nat) : (ofCapacity n).capacity = n := rfl

@[simp] theorem ofCapacity_free (n : Nat) : (ofCapacity n).free = n := rfl

@[simp] theorem close_closed (g : Gate) : g.close.closed = true := rfl

@[simp] theorem close_holding (g : Gate) : g.close.holding = g.holding := rfl

end Gate

end Courier
