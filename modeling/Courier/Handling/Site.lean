import Courier.Ambient
import Courier.Handling.Program
import Courier.Registry

/-!
# Where programs run

A site is all that the handling of one delivery can reach: the surroundings, what it shares with
the other deliveries of its receiver, and what is its own. `Site.perform` says what each call does
and answers, `Program.resume` runs a program until it has to wait.
-/

namespace Courier

/-- What the deliveries of one receiver share. -/
structure Premises where
  queue : Queue
  gates : List Gate := []
  registry : Registry := {}
  /-- The name of the type of the messages. -/
  messageType : String := ""
  /-- The number under which the journal is written. -/
  author : Nat := 0

namespace Premises

/-- The gate of a number; where there is none, one that lets nobody in. -/
def gate (p : Premises) (i : Nat) : Gate := p.gates[i]?.getD (.ofCapacity 0)

def setGate (p : Premises) (i : Nat) (g : Gate) : Premises := { p with gates := p.gates.set i g }

/-- The tickets that the gates have issued since, each with the number of its gate. -/
def ticketsSince (before p : Premises) : List (Nat × Nat) :=
  (List.range p.gates.length).flatMap fun i =>
    (List.range' (before.gate i).issued ((p.gate i).issued - (before.gate i).issued)).map (i, ·)

/-- Gives up tickets, each at the gate of its number. -/
def surrender (p : Premises) : List (Nat × Nat) → Premises
  | [] => p
  | (i, ticket) :: rest => (p.setGate i ((p.gate i).surrender ticket)).surrender rest

end Premises

/-- All that the handling of one delivery can reach. -/
structure Site where
  ambient : Ambient
  premises : Premises
  handling : Handling

namespace Site

def isCancelled (s : Site) : Bool := s.ambient.isCancelled s.handling.token

def disposition (s : Site) : Option Disposition := s.handling.settlement.disposition

def withQueue (s : Site) (q : Queue) : Site := { s with premises := { s.premises with queue := q } }

def withGate (s : Site) (i : Nat) (g : Gate) : Site :=
  { s with premises := s.premises.setGate i g }

def withAmbient (s : Site) (a : Ambient) : Site := { s with ambient := a }

def withProperties (s : Site) (p : Properties) : Site :=
  { s with handling := { s.handling with properties := p } }

/-- Claims the settlement of the delivery and, if the claim is the first, settles it with the
queue. -/
def settle (s : Site) (how : Settling) : Site × Except SettlementFault Unit :=
  match s.handling.settlement.claim how with
  | .error f => (s, .error f)
  | .ok claimed =>
    let (q, r) := s.premises.queue.settle s.ambient.now s.handling.context.delivery.token how
    ({ s.withQueue q with handling := { s.handling with settlement := claimed } },
      match r with
      | .ok () => .ok ()
      | .error f => .error (.queue f))

/-- Takes the slot that a ticket has waited for. A ticket without news is refused. -/
def enter (s : Site) (gate ticket : Nat) : Site × Except GateFault Unit :=
  match (s.premises.gate gate).resume ticket s.isCancelled with
  | (g, some r) => (s.withGate gate g, r)
  | (g, none) => (s.withGate gate (g.withdraw ticket), .error .closed)

/-- Adds an entry to the journal. -/
def journal (s : Site) (act : String) (finding : Finding) : Site :=
  s.withAmbient (s.ambient.write
    { author := s.premises.author
      messageId := s.handling.context.messageId
      count := s.handling.context.count
      act := act
      finding := finding
      time := s.ambient.now })

/-- What a call does, and its answer. -/
def perform (s : Site) : (e : Effect) → Site × e.Answer
  | .now => (s, s.ambient.now)
  | .settle how => s.settle how
  | .disposition => (s, s.disposition)
  | .isCancelled => (s, s.isCancelled)
  | .cancel => (s.withAmbient (s.ambient.cancel s.handling.token), ())
  | .request i =>
    let (g, entry) := (s.premises.gate i).request
    (s.withGate i g, entry)
  | .enter i ticket => s.enter i ticket
  | .leave i ticket => (s.withGate i ((s.premises.gate i).release ticket), ())
  | .resolve => (s, s.premises.registry.resolve s.premises.messageType s.handling.scope)
  | .invoke => ({ s with handling := { s.handling with invoked := true } }, ())
  | .property key => (s, s.handling.properties.get? key)
  | .setProperty key value =>
    (s.withProperties (s.handling.properties.insert key value), s.handling.properties.get? key)
  | .eraseProperty key =>
    (s.withProperties (s.handling.properties.erase key), s.handling.properties.get? key)
  | .service type => (s, s.handling.scope.get? s.premises.registry.shared type)
  | .addService type v =>
    ({ s with handling := { s.handling with scope := s.handling.scope.insert type v } }, ())
  | .send message =>
    let (q, id) := s.premises.queue.send message
    (s.withQueue q, id)
  | .failSettlements on => (s.withQueue (s.premises.queue.failSettlements on), ())
  | .snapshot => (s, s.handling.snapshot s.ambient.cancellations)
  | .describeSettlement => (s, s.handling.settlementDescription s.premises.queue)
  | .journal act finding => (s.journal act finding, ())
  | .note n => (s.withAmbient (s.ambient.note n), ())
  | .count m => (s.withAmbient (s.ambient.count m), ())
  | .span sp =>
    (s.withAmbient { s.ambient with telemetry := s.ambient.telemetry.span sp }, ())

/-- Whether a pause is over. -/
def ready (s : Site) : Pause → Bool
  | .until t => s.ambient.clock.due t
  | .cancelled => s.isCancelled
  | .slot i ticket => s.isCancelled || (s.premises.gate i).decided ticket

end Site

namespace Program

variable {α : Type}

/-- Runs a program until it ends or has to wait. -/
def resume : Program α → Site → Site × Program α
  | .done a, s => (s, .done a)
  | .call e rest, s =>
    let (s, answer) := s.perform e
    (rest answer).resume s
  | .await p rest, s => if s.ready p then rest.resume s else (s, .await p rest)

/-- Whether a program would go on at a site. -/
def canResume (s : Site) : Program α → Bool
  | .done _ => false
  | .call _ _ => true
  | .await p _ => s.ready p

/-- The instant for which a program waits, if it waits for one. -/
def wake? : Program α → Option Nat
  | .await (.until t) _ => some t
  | _ => none

/-- The result of a program that has ended. -/
def result? : Program α → Option α
  | .done a => some a
  | _ => none

end Program

end Courier
