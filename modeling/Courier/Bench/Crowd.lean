import Courier.Gate

/-!
# A crowd at a gate

Numbered callers ask a gate for slots, each with a cancellation of its own. After every action all
callers that can go on do so, in the order in which they asked, until everyone left has to wait.
-/

namespace Courier

namespace Crowd

/-- Where a caller stands. -/
inductive Standing where
  | asking
  | waiting (ticket : Nat)
  | holding (ticket : Nat)
  | failed (fault : GateFault)
  | gone
  deriving DecidableEq

/-- A caller. -/
structure Caller where
  name : Nat
  cancelled : Bool := false
  standing : Standing := .asking

/-- One thing that happens to callers and gate. -/
inductive Action where
  /-- Callers from a number on ask, in order; some were cancelled before they ask. -/
  | acquire (first count : Nat) (cancelled : Bool)
  /-- Callers that hold a slot give it back. -/
  | release (first count : Nat)
  | cancel (first count : Nat)
  | close
  | look

/-- What an action led to. -/
structure Report where
  /-- Who was admitted, in order. -/
  admitted : List Nat
  /-- Who failed, in the order of the names. -/
  failed : List (Nat × GateFault)
  available : Nat
  capacity : Nat
  holding : Nat

end Crowd

/-- A gate and its callers in the order in which they asked. -/
structure Crowd where
  gate : Gate
  callers : List Crowd.Caller := []

namespace Crowd

/-- The caller goes on as far as it can. -/
def Caller.step (g : Gate) (c : Caller) : Gate × Caller :=
  match c.standing with
  | .asking =>
    if c.cancelled then (g, { c with standing := .failed .cancelled })
    else match g.request with
      | (g, .refused) => (g, { c with standing := .failed .closed })
      | (g, .admitted t) => (g, { c with standing := .holding t })
      | (g, .queued t) => (g, { c with standing := .waiting t })
  | .waiting t =>
    match g.resume t c.cancelled with
    | (g, some (.ok ())) => (g, { c with standing := .holding t })
    | (g, some (.error f)) => (g, { c with standing := .failed f })
    | (g, none) => (g, c)
  | _ => (g, c)

/-- Everyone goes on once. The names of the admitted are collected in order. -/
def pass (g : Gate) : List Caller → Gate × List Caller × List Nat × List (Nat × GateFault)
  | [] => (g, [], [], [])
  | c :: rest =>
    let (g, moved) := c.step g
    let (g, rest, admitted, failed) := pass g rest
    let isNew := moved.standing != c.standing
    match moved.standing with
    | .holding _ => (g, moved :: rest, if isNew then c.name :: admitted else admitted, failed)
    | .failed f => (g, moved :: rest, admitted, if isNew then (c.name, f) :: failed else failed)
    | _ => (g, moved :: rest, admitted, failed)

/-- Everyone goes on until nobody can. -/
def settle : Nat → Crowd → Crowd × List Nat × List (Nat × GateFault)
  | 0, s => (s, [], [])
  | rounds + 1, s =>
    let (g, callers, admitted, failed) := pass s.gate s.callers
    let (s, moreAdmitted, moreFailed) := settle rounds ⟨g, callers⟩
    (s, admitted ++ moreAdmitted, failed ++ moreFailed)

/-- Whether a name is one of `count` names from `first` on. -/
def within (first count name : Nat) : Bool := first ≤ name && name < first + count

/-- Gives back the slots of the named callers, in the order of their names. -/
def releaseAll (s : Crowd) : List Nat → Crowd
  | [] => s
  | name :: rest =>
    let held := s.callers.find? fun c =>
      c.name == name && match c.standing with | .holding _ => true | _ => false
    match held with
    | some ⟨_, _, .holding t⟩ =>
      releaseAll
        { gate := s.gate.release t
          callers := s.callers.map fun c =>
            if c.standing == .holding t then { c with standing := .gone } else c }
        rest
    | _ => releaseAll s rest

def act (s : Crowd) : Action → Crowd
  | .acquire first count cancelled =>
    { s with callers := s.callers ++ (List.range' first count).map fun n =>
        { name := n, cancelled := cancelled } }
  | .release first count => s.releaseAll (List.range' first count)
  | .cancel first count =>
    { s with callers := s.callers.map fun c =>
        if within first count c.name then { c with cancelled := true } else c }
  | .close => { s with gate := s.gate.close }
  | .look => s

/-- Puts an entry into a list sorted by name. -/
def insertByName (e : Nat × GateFault) : List (Nat × GateFault) → List (Nat × GateFault)
  | [] => [e]
  | x :: rest => if e.1 < x.1 then e :: x :: rest else x :: insertByName e rest

/-- An action, and what it leads to when everyone has gone on. -/
def step (s : Crowd) (a : Action) : Crowd × Report :=
  let s := s.act a
  let (s, admitted, failed) := s.settle (s.callers.length + 1)
  (s, { admitted := admitted
        failed := failed.foldr insertByName []
        available := s.gate.free
        capacity := s.gate.capacity
        holding := s.gate.holding.length })

/-- The reports of a sequence of actions on a gate. -/
def run (capacity : Nat) (actions : List Action) : List Report :=
  (actions.foldl (fun (s, reports) a => let (s, r) := step s a; (s, r :: reports))
    (({ gate := .ofCapacity capacity } : Crowd), [])).2.reverse

end Crowd

end Courier
