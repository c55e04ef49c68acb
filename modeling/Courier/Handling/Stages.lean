import Courier.Handling.Program

/-!
# Stages

A service handles a delivery and comes to a verdict. A stage is put around a service; of a list of
stages the first is the innermost. The stages that are around every processor are, from the inside
out: admission through a gate, giving up messages that were delivered too often, telling about the
handling, and containing faults, which abandons the delivery after any fault, a panic included, and
after a success that settled nothing.
-/

namespace Courier

/-- How handling came out. -/
inductive Verdict (ε : Type) where
  | passed
  | failed (fault : ε)
  /-- It broke off, with a text or with something that is none. -/
  | panicked (text : Option String)
  deriving DecidableEq

namespace Verdict

/-- The same verdict with another view of its fault. -/
def mapFault {ε δ : Type} (f : ε → δ) : Verdict ε → Verdict δ
  | .passed => .passed
  | .failed e => .failed (f e)
  | .panicked text => .panicked text

end Verdict

/-- The handling of one delivery. -/
abbrev Service := Program (Verdict ProcessingFault)

/-- What handles the messages of a type. -/
abbrev Processor := Context → Program (Verdict Cause)

/-- What is put around a service, for each delivery. -/
abbrev Stage := Context → Service → Service

open Program (perform pause)

/-- Settles the delivery; a settlement that fails is the fault. -/
def Service.settling (how : Settling) : Service := do
  match ← perform (.settle how) with
  | .ok () => return .passed
  | .error f => return .failed (.settlement f)

/-- Makes the processor and lets it handle the delivery. What it has not settled itself is
completed after it has passed. -/
def Processor.service (p : Processor) (ctx : Context) : Service := do
  match ← perform .resolve with
  | .error f => return .failed f
  | .ok () =>
    perform .invoke
    match ← p ctx with
    | .failed cause => return .failed (.processor cause)
    | .panicked text => return .panicked text
    | .passed =>
      match ← perform .disposition with
      | some _ => return .passed
      | none => Service.settling .complete

namespace Stage

/-- Lets a service run while it holds a slot. -/
def whileHolding (gate ticket : Nat) (inner : Service) : Service := do
  let verdict ← inner
  perform (.leave gate ticket)
  return verdict

/-- Admission through a gate. Who is cancelled while waiting gets no slot. -/
def throttle (gate : Nat) : Stage := fun _ inner => do
  if ← perform .isCancelled then return .failed .cancelled
  match ← perform (.request gate) with
  | .refused => return .failed .gateClosed
  | .admitted ticket => whileHolding gate ticket inner
  | .queued ticket =>
    pause (.slot gate ticket)
    match ← perform (.enter gate ticket) with
    | .error f => return .failed f.toProcessing
    | .ok () => whileHolding gate ticket inner

/-- Why a message that was delivered too often is given up. -/
def limitReason (count limit : UInt32) : String :=
  "delivery count " ++ toString count ++ " exceeded limit " ++ toString limit

/-- Gives up messages that were delivered too often. -/
def limitDeliveries : Stage := fun ctx inner => do
  if ctx.count ≤ ctx.limit then inner
  else
    perform (.note (.overDelivered ctx.receiver ctx.messageId ctx.count ctx.limit))
    perform (.count (.deadLettered ctx.receiver))
    Service.settling (.deadLetter (limitReason ctx.count ctx.limit))

/-- The word for what became of a delivery. -/
def outcome (verdict : Verdict ProcessingFault) (disposition : Option Disposition) : String :=
  match verdict with
  | .passed =>
    match disposition with
    | some d => d.label
    | none => "unsettled"
  | _ => "failed"

/-- Sees to it that the delivery belongs to a conversation, its own if to no other. -/
def correlate (ctx : Context) : Program String := do
  match ← perform (.property Properties.correlationId) with
  | some id => return id
  | none =>
    let _ ← perform (.setProperty Properties.correlationId ctx.messageId)
    return ctx.messageId

/-- Counts and tells how the handling came out. Of handling that broke off only the span is
told. -/
def instrument : Stage := fun ctx inner => do
  let correlationId ← correlate ctx
  let span (outcome : Option String) : Span :=
    ⟨ctx.receiver, ctx.messageId, ctx.count, correlationId, outcome⟩
  match ← inner with
  | .panicked text =>
    perform (.span (span none))
    return .panicked text
  | verdict =>
    let word := outcome verdict (← perform .disposition)
    perform (.note (.handled word))
    perform (.count (.handled ctx.receiver word))
    perform (.count (.handlingTime ctx.receiver))
    perform (.span (span (some word)))
    return verdict

/-- The text of a panic. -/
def panicText (text : Option String) : String := text.getD "non-string panic payload"

/-- What is told of a fault. -/
def faultNote (ctx : Context) (fault : ProcessingFault) : Note :=
  match fault with
  | .cancelled => .notProcessed ctx.receiver ctx.messageId fault
  | .gateClosed => .notProcessed ctx.receiver ctx.messageId fault
  | _ => .processingFailed ctx.receiver ctx.messageId fault ctx.body

/-- Abandons the delivery after a fault. -/
def giveBack (ctx : Context) (fault : ProcessingFault) : Service := do
  perform (.note (faultNote ctx fault))
  match ← perform (.settle (.abandon (some fault))) with
  | .ok () => return .passed
  | .error (.alreadySettled previous _) =>
    perform (.note (.faultAfterSettlement ctx.receiver ctx.messageId previous))
    return .passed
  | .error f =>
    perform (.note (.notAbandoned ctx.receiver ctx.messageId f))
    return .passed

/-- Lets no fault out. -/
def containFaults : Stage := fun ctx inner => do
  match ← inner with
  | .passed =>
    match ← perform .disposition with
    | some _ => return .passed
    | none => giveBack ctx .unsettled
  | .failed fault => giveBack ctx fault
  | .panicked text => giveBack ctx (.panicked (panicText text))

end Stage

/-- A service inside a list of stages, the first of which is the innermost. -/
def compose (stages : List Stage) (ctx : Context) (terminal : Service) : Service :=
  stages.foldl (fun inner stage => stage ctx inner) terminal

@[simp] theorem compose_nil (ctx : Context) (terminal : Service) :
    compose [] ctx terminal = terminal := rfl

@[simp] theorem compose_cons (stage : Stage) (rest : List Stage) (ctx : Context)
    (terminal : Service) :
    compose (stage :: rest) ctx terminal = compose rest ctx (stage ctx terminal) := rfl

@[simp] theorem compose_append (first second : List Stage) (ctx : Context) (terminal : Service) :
    compose (first ++ second) ctx terminal = compose second ctx (compose first ctx terminal) := by
  simp [compose]

/-- The stages around the stages of a receiver's own. -/
def standardStages (gate : Nat) : List Stage :=
  [Stage.throttle gate, Stage.limitDeliveries, Stage.instrument, Stage.containFaults]

/-- How a receiver handles a delivery: the processor, the receiver's own stages around it, and the
standard stages around them. -/
def handle (gate : Nat) (own : List Stage) (p : Processor) (ctx : Context) : Service :=
  compose (own ++ standardStages gate) ctx (p.service ctx)

end Courier
