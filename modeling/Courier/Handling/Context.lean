import Courier.Cancellation
import Courier.Payload.Description
import Courier.Queue
import Courier.Services
import Courier.Text.Quoted

/-!
# Deliveries being handled

A context is what is known of a delivery from the start. A settlement is the record of who settles
it: the first to claim it does, and every later claim fails, naming the first one. A claim stands
even when the queue then refuses the settlement.
-/

namespace Courier

/-- What is known of a delivery while it is handled. -/
structure Context where
  receiver : String
  delivery : Delivery
  payload : Value
  /-- After how many deliveries the message is given up. -/
  limit : UInt32

namespace Context

def messageId (c : Context) : String := c.delivery.message.id

def body (c : Context) : Bytes := c.delivery.message.body

def count (c : Context) : UInt32 := c.delivery.count

end Context

/-- Who has claimed to settle a delivery, and how. -/
structure Settlement where
  claimed : Option Settling := none

namespace Settlement

def disposition (s : Settlement) : Option Disposition := s.claimed.map (·.disposition)

/-- Claims the settlement; only the first claim succeeds. -/
def claim (s : Settlement) (how : Settling) : Except SettlementFault Settlement :=
  match s.claimed with
  | some first => .error (.alreadySettled first.disposition how.disposition)
  | none => .ok ⟨some how⟩

@[simp] theorem claim_new (how : Settling) : claim {} how = .ok ⟨some how⟩ := rfl

@[simp] theorem claim_claimed (first how : Settling) :
    claim ⟨some first⟩ how = .error (.alreadySettled first.disposition how.disposition) := rfl

end Settlement

/-- A delivery with what the handling of it has changed so far. -/
structure Handling where
  context : Context
  /-- Cancelled when the handling is to be given up. -/
  token : CancelToken
  properties : Properties
  settlement : Settlement := {}
  scope : Scope := {}
  /-- Whether the delivery has been handed to its processor. -/
  invoked : Bool := false

namespace Handling

/-- The handling of a delivery at its beginning. -/
def start (context : Context) (token : CancelToken) : Handling :=
  { context := context, token := token, properties := context.delivery.message.properties }

end Handling

/-- What a processor can see of the delivery that it handles. -/
structure Snapshot where
  context : Context
  properties : Properties
  cancelled : Bool
  disposition : Option Disposition

namespace Handling

def snapshot (h : Handling) (cs : Cancellations) : Snapshot :=
  { context := h.context
    properties := h.properties
    cancelled := cs.isCancelled h.token
    disposition := h.settlement.disposition }

end Handling

/-- What an entry of a journal tells. -/
inductive Finding where
  | done
  | refused (fault : SettlementFault)
  | text (s : String)
  | payload (v : Value)
  | property (v : Option String)
  | service (v : Option Value)
  | snapshot (s : Snapshot)

/-- An entry of the journal that processors and stages keep. -/
structure Entry where
  /-- The number of the one who wrote it. -/
  author : Nat
  messageId : String
  count : UInt32
  act : String
  finding : Finding
  time : Nat

/-! ## Descriptions -/

namespace Disposition

/-- The name of a disposition in descriptions. -/
def name : Disposition → String
  | .completed => "Completed"
  | .abandoned => "Abandoned"
  | .deadLettered => "DeadLettered"

end Disposition

namespace Handling

/-- How the settlement of a delivery describes itself. -/
def settlementDescription (h : Handling) (q : Queue) : String :=
  let disposition := match h.settlement.disposition with
    | some d => "Some(" ++ d.name ++ ")"
    | none => "None"
  "Settlement \x7b transport: " ++ quoted q.name ++ ", lock_token: LockToken(" ++
    quoted (q.tokenText h.context.delivery.token) ++ "), disposition: " ++ disposition ++ " \x7d"

/-- How a delivery being handled describes itself. -/
def description (h : Handling) (q : Queue) : String :=
  let properties := ", ".intercalate (h.properties.entries.map fun (k, v) =>
    quoted k ++ ": " ++ quoted v)
  "MessageContext \x7b receiver: " ++ quoted h.context.receiver ++
    ", message_id: " ++ quoted h.context.messageId ++
    ", payload: " ++ h.context.payload.description ++
    ", delivery_count: " ++ toString h.context.count ++
    ", dead_letter_limit: " ++ toString h.context.limit ++
    ", properties: MessageProperties(\x7b" ++ properties ++ "\x7d)" ++
    ", settlement: " ++ h.settlementDescription q ++ ", .. \x7d"

end Handling

end Courier
