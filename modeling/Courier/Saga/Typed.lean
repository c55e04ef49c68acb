import Courier.Payload.Format
import Courier.Saga.Store

/-!
# Sagas with typed state

A typed store reads and writes the states of a saga store as payloads of one shape in one format.
A saga in hand carries the version it was read at; saving it writes its state back under that
version and moves the version on.
-/

namespace Courier

/-- A saga in hand: its state and the version it was read or written at. -/
structure Saga where
  key : SagaKey
  state : Payload
  version : UInt64
  deriving Inhabited

/-- How the states of a saga store are to be read. -/
structure TypedSagas where
  format : Format
  schema : Schema

namespace TypedSagas

/-- Begins a saga under a key that is free. -/
def start (t : TypedSagas) (store : SagaStore) (key : SagaKey) (state : Payload) :
    SagaStore × Except SagaFault Saga :=
  let (store, made) := store.create key (t.format.encode state)
  (store, made.map fun r => ⟨r.key, state, r.version⟩)

/-- Reads the saga of a key. -/
def load (t : TypedSagas) (store : SagaStore) (key : SagaKey) : Except SagaFault Saga :=
  match store.get key with
  | .error f => .error f
  | .ok r =>
    match t.format.decode t.schema r.state with
    | .ok state => .ok ⟨r.key, state, r.version⟩
    | .error f => .error (.serialization f)

/-- Writes a saga back. The saga in hand moves on only if it was written. -/
def save (t : TypedSagas) (store : SagaStore) (saga : Saga) :
    SagaStore × Saga × Except SagaFault Unit :=
  match store.update saga.key (t.format.encode saga.state) saga.version with
  | (store, .ok r) => (store, { saga with version := r.version }, .ok ())
  | (store, .error f) => (store, saga, .error f)

/-- Removes the record of a saga. -/
def finish (_ : TypedSagas) (store : SagaStore) (key : SagaKey) :
    SagaStore × Except SagaFault Unit :=
  store.delete key

end TypedSagas

end Courier
