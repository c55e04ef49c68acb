import Courier.Handling.Stages

/-!
# Scripts

A script is a list of steps that a processor goes through, one script for each delivery of a
message. Most steps leave an entry in the journal. Scripted stages do one thing each around the
service inside.
-/

namespace Courier

open Program (perform pause)

namespace Script

/-- One step of a script. -/
inductive Step where
  /-- Settles the delivery; a failure ends the script if the step is strict. -/
  | settle (how : Settling) (strict : Bool)
  | sleep (period : Duration)
  | fail (cause : Cause)
  | panic (text : Option String)
  | waitCancelled
  | cancel
  | info
  | set (key value : String)
  | remove (key : String)
  | get (key : String)
  | service (type : String)
  | addService (type : String) (value : Value)
  | failSettlements (on : Bool)
  | send (message : Outgoing)
  | describe

/-- The word under which a settlement is journalled. -/
def settlingWord : Settling → String
  | .complete => "complete"
  | .abandon _ => "abandon"
  | .deadLetter _ => "dead_letter"

/-- What is journalled of a settlement. -/
def settlingFinding : Except SettlementFault Unit → Finding
  | .ok () => .done
  | .error f => .refused f

/-- One step, with the verdict if it ends the script. -/
def Step.run : Step → Program (Option (Verdict Cause))
  | .settle how strict => do
    let answer ← perform (.settle how)
    perform (.journal (settlingWord how) (settlingFinding answer))
    match answer with
    | .ok () => return none
    | .error f => return if strict then some (.failed f.cause) else none
  | .sleep period => do
    Program.sleep period
    return none
  | .fail cause => return some (.failed cause)
  | .panic text => return some (.panicked text)
  | .waitCancelled => do
    pause .cancelled
    perform (.journal "wait_cancel" (.text "cancelled"))
    return none
  | .cancel => do
    perform .cancel
    return none
  | .info => do
    let snapshot ← perform .snapshot
    perform (.journal "info" (.snapshot snapshot))
    return none
  | .set key value => do
    let old ← perform (.setProperty key value)
    perform (.journal "set" (.property old))
    return none
  | .remove key => do
    let old ← perform (.eraseProperty key)
    perform (.journal "remove" (.property old))
    return none
  | .get key => do
    let value ← perform (.property key)
    perform (.journal "get" (.property value))
    return none
  | .service type => do
    let value ← perform (.service type)
    perform (.journal "scope_get" (.service value))
    return none
  | .addService type value => do
    perform (.addService type value)
    perform (.journal "scope_insert" .done)
    return none
  | .failSettlements on => do
    perform (.failSettlements on)
    return none
  | .send message => do
    let id ← perform (.send message)
    perform (.journal "send" (.text id))
    return none
  | .describe => do
    let text ← perform .describeSettlement
    perform (.journal "debug" (.text text))
    return none

/-- The steps one after the other, up to the first that ends the script. -/
def run : List Step → Program (Verdict Cause)
  | [] => return .passed
  | step :: rest => do
    match ← step.run with
    | some verdict => return verdict
    | none => run rest

end Script

/-- The scripts of a processor: for message ids, and for all other messages, a script for each
delivery. -/
structure Scripts where
  byId : List (String × List (List Script.Step)) := []
  others : List (List Script.Step) := []

namespace Scripts

/-- The script of the `count`-th delivery of a message; the last script serves all later ones. -/
def find (s : Scripts) (messageId : String) (count : UInt32) : List Script.Step :=
  let scripts := (s.byId.lookup messageId).getD s.others
  match scripts[count.toNat - 1]? with
  | some script => script
  | none => scripts.getLast?.getD []

/-- What is journalled at the end. -/
def ending : Verdict Cause → Option Finding
  | .passed => some .done
  | .failed cause => some (.text cause.text)
  | .panicked _ => none

/-- The processor that goes through the scripts. -/
def processor (s : Scripts) : Processor := fun ctx => do
  perform (.journal "start" (.payload ctx.payload))
  let verdict ← Script.run (s.find ctx.messageId ctx.count)
  match ending verdict with
  | some finding =>
    perform (.journal "end" finding)
    return verdict
  | none => return verdict

end Scripts

/-- A stage that does one thing. -/
inductive ScriptedStage where
  /-- Journals before and after the service. -/
  | record (name : String)
  /-- Passes whatever the service comes to. -/
  | swallow
  /-- Passes without the service. -/
  | skip
  | failBefore (fault : ProcessingFault)
  | failAfter (fault : ProcessingFault)
  | panic (text : String)
  /-- Settles the delivery, and then passes or goes on. -/
  | settleBefore (how : Settling) (goOn : Bool)
  | set (key value : String)
  | sleep (period : Duration)

namespace ScriptedStage

/-- What a recording stage writes after the service, nothing after a panic. -/
def afterword (name : String) : Verdict ProcessingFault → Option String
  | .passed => some (name ++ " after ok")
  | .failed fault => some (name ++ " after " ++ fault.kind)
  | .panicked _ => none

def stage : ScriptedStage → Stage
  | .record name => fun _ inner => do
    perform (.journal "stage" (.text (name ++ " before")))
    let verdict ← inner
    match afterword name verdict with
    | some text =>
      perform (.journal "stage" (.text text))
      return verdict
    | none => return verdict
  | .swallow => fun _ inner => do
    match ← inner with
    | .failed _ => return .passed
    | verdict => return verdict
  | .skip => fun _ _ => return .passed
  | .failBefore fault => fun _ _ => return .failed fault
  | .failAfter fault => fun _ inner => do
    match ← inner with
    | .passed => return .failed fault
    | verdict => return verdict
  | .panic text => fun _ _ => return .panicked (some text)
  | .settleBefore how goOn => fun _ inner => do
    match ← perform (.settle how) with
    | .error f => return .failed (.settlement f)
    | .ok () => if goOn then inner else return .passed
  | .set key value => fun _ inner => do
    let _ ← perform (.setProperty key value)
    inner
  | .sleep period => fun _ inner => do
    Program.sleep period
    inner

end ScriptedStage

end Courier
