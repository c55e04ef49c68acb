import Courier.Gate
import Courier.Handling.Context
import Courier.Telemetry

/-!
# Programs

The handling of a delivery is a program: a tree of calls, each of which is followed by what the
program does for every answer, and of pauses. What a call does is not said here; a program only
says what is called for. So stages can be put around programs that nobody has seen, and the same
program can run wherever its calls are answered.
-/

namespace Courier

/-- What the handling of a delivery can call for. Gates are given by their numbers. -/
inductive Effect where
  /-- The present instant. -/
  | now
  | settle (how : Settling)
  /-- How the settlement has been claimed. -/
  | disposition
  /-- Whether the handling is cancelled. -/
  | isCancelled
  /-- Cancels the handling. -/
  | cancel
  /-- Asks for a slot of a gate. -/
  | request (gate : Nat)
  /-- Takes the slot that was waited for. -/
  | enter (gate ticket : Nat)
  /-- Gives a slot back. -/
  | leave (gate ticket : Nat)
  /-- Makes the processor. -/
  | resolve
  /-- Hands the delivery to the processor. -/
  | invoke
  | property (key : String)
  | setProperty (key value : String)
  | eraseProperty (key : String)
  | service (type : String)
  | addService (type : String) (value : Value)
  /-- Sends a message to the queue that the delivery came from. -/
  | send (message : Outgoing)
  | failSettlements (on : Bool)
  | snapshot
  | describeSettlement
  /-- Writes an entry into the journal. -/
  | journal (act : String) (finding : Finding)
  | note (n : Note)
  | count (m : Meter)
  | span (s : Span)

/-- What a call is answered with. -/
@[reducible] def Effect.Answer : Effect → Type
  | .now => Nat
  | .settle _ => Except SettlementFault Unit
  | .disposition => Option Disposition
  | .isCancelled => Bool
  | .request _ => Gate.Entry
  | .enter _ _ => Except GateFault Unit
  | .resolve => Except ProcessingFault Unit
  | .property _ => Option String
  | .setProperty _ _ => Option String
  | .eraseProperty _ => Option String
  | .service _ => Option Value
  | .send _ => String
  | .snapshot => Snapshot
  | .describeSettlement => String
  | _ => Unit

/-- What a program can wait for. -/
inductive Pause where
  /-- An instant. -/
  | until (t : Nat)
  /-- The cancellation of the handling. -/
  | cancelled
  /-- News for a ticket at a gate, or the cancellation of the handling. -/
  | slot (gate ticket : Nat)
  deriving DecidableEq

/-- A tree of calls and pauses that ends in results. -/
inductive Program (α : Type) where
  | done (a : α)
  | call (e : Effect) (rest : e.Answer → Program α)
  | await (p : Pause) (rest : Program α)

namespace Program

variable {α β : Type}

/-- Goes on with another program after each result. -/
def bind : Program α → (α → Program β) → Program β
  | .done a, f => f a
  | .call e rest, f => .call e fun answer => (rest answer).bind f
  | .await p rest, f => .await p (rest.bind f)

instance : Monad Program where
  pure := .done
  bind := bind

@[simp] theorem done_bind (a : α) (f : α → Program β) : (Program.done a).bind f = f a := rfl

@[simp] theorem call_bind (e : Effect) (rest : e.Answer → Program α) (f : α → Program β) :
    (Program.call e rest).bind f = .call e fun answer => (rest answer).bind f := rfl

@[simp] theorem await_bind (p : Pause) (rest : Program α) (f : α → Program β) :
    (Program.await p rest).bind f = .await p (rest.bind f) := rfl

@[simp] theorem bind_done (x : Program α) : x.bind .done = x := by
  induction x with
  | done a => rfl
  | call e rest ih => simp [ih]
  | await p rest ih => simp [ih]

theorem bind_assoc {γ : Type} (x : Program α) (f : α → Program β) (g : β → Program γ) :
    (x.bind f).bind g = x.bind fun a => (f a).bind g := by
  induction x with
  | done a => rfl
  | call e rest ih => simp [ih]
  | await p rest ih => simp [ih]

/-- The program that makes one call and ends with the answer. -/
def perform (e : Effect) : Program e.Answer := .call e .done

def pause (p : Pause) : Program Unit := .await p (.done ())

/-- Waits for a while. -/
def sleep (d : Duration) : Program Unit :=
  .call .now fun (t : Nat) => .await (.until (t + d.nanoseconds)) (.done ())

end Program

end Courier
