import Courier.Saga.Typed
import Courier.View.Basic

/-!
# Views of sagas

The records of saga stores.
-/

namespace Courier

namespace View

def payload (p : Payload) : Value := p.toValue

def sagaKey (k : SagaKey) : Value := .list [.text k.partition, .text k.id]

def sagaRecord (r : SagaRecord) : Value := .record
  [("key", sagaKey r.key), ("state", octets r.state), ("version", number r.version.toNat)]

def saga (s : Saga) : Value := .record
  [("key", sagaKey s.key), ("state", payload s.state), ("version", number s.version.toNat)]

/-- The fault of a saga that could not be saved, and the saga as it is still held. -/
def unsaved (f : SagaFault) (s : Saga) : Value :=
  .record [("failed", fault f), ("held", saga s)]

end View

end Courier
