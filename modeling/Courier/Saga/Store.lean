import Courier.Fault

/-!
# Saga records

A store keeps the state of long-running work as octets, one record for each key. A record starts
at version 1 and every change raises the version by one; a change names the version it was made
from and is refused when the record has moved on. While the store is unavailable every call fails
and nothing changes.
-/

namespace Courier

/-- The state of one saga. -/
structure SagaRecord where
  key : SagaKey
  state : Bytes
  version : UInt64
  deriving DecidableEq

/-- The records of a store, one for each key. -/
structure SagaStore where
  records : List SagaRecord := []
  available : Bool := true

namespace SagaStore

/-- The record of a key. -/
def find? (s : SagaStore) (key : SagaKey) : Option SagaRecord :=
  s.records.find? fun r => r.key == key

def size (s : SagaStore) : Nat := s.records.length

def isEmpty (s : SagaStore) : Bool := s.records.isEmpty

def setAvailable (s : SagaStore) (available : Bool) : SagaStore :=
  { s with available := available }

/-- What every call of an unavailable store fails with. -/
def outage : SagaFault := .storage (.ofText "saga store unreachable")

/-- The store with one record more, or with the record of the same key replaced. -/
def put (s : SagaStore) (r : SagaRecord) : SagaStore :=
  { s with records := r :: s.records.filter fun old => old.key != r.key }

/-- Adds a record at version 1 under a key that is free. -/
def create (s : SagaStore) (key : SagaKey) (state : Bytes) :
    SagaStore × Except SagaFault SagaRecord :=
  if !s.available then (s, .error outage)
  else match s.find? key with
    | some _ => (s, .error (.alreadyExists key))
    | none =>
      let r := ⟨key, state, 1⟩
      (s.put r, .ok r)

/-- The record of a key. -/
def get (s : SagaStore) (key : SagaKey) : Except SagaFault SagaRecord :=
  if !s.available then .error outage
  else match s.find? key with
    | some r => .ok r
    | none => .error (.notFound key)

/-- Replaces the state of a record that is still at the expected version. -/
def update (s : SagaStore) (key : SagaKey) (state : Bytes) (expected : UInt64) :
    SagaStore × Except SagaFault SagaRecord :=
  if !s.available then (s, .error outage)
  else match s.find? key with
    | none => (s, .error (.notFound key))
    | some old =>
      if old.version = expected then
        let r := ⟨key, state, old.version + 1⟩
        (s.put r, .ok r)
      else (s, .error (.versionMismatch key expected old.version))

/-- Removes the record of a key if there is one. -/
def delete (s : SagaStore) (key : SagaKey) : SagaStore × Except SagaFault Unit :=
  if !s.available then (s, .error outage)
  else ({ s with records := s.records.filter fun r => r.key != key }, .ok ())

end SagaStore

end Courier
