import Courier.Proofs.Saga.Lives

/-!
# Calls of a saga store that fail

A store of sagas is called as it is, or by way of what reads and writes typed states. A typed call
comes down to one call of the store itself (`bare`): it has the same aim and the same key, and it
differs in what it is answered with. A state of any shape can be written down in any format, so that
what a typed call adds to the reasons to fail is a stored state that cannot be read.

`Refuses` lists the reasons for which a call fails, each with the fault it is reported as. They
exclude one another. A call with none of these reasons succeeds; a call with one of them leaves the
store, and the saga that was to be saved, as they were (`Classified`).
-/

namespace Courier

/-- A call of a store of sagas, made to the store itself or by way of what reads its states. -/
inductive SagaCall where
  | create (key : SagaKey) (state : Bytes)
  | get (key : SagaKey)
  | update (key : SagaKey) (state : Bytes) (expected : UInt64)
  | delete (key : SagaKey)
  | start (t : TypedSagas) (key : SagaKey) (state : Payload)
  | load (t : TypedSagas) (key : SagaKey)
  | save (t : TypedSagas) (saga : Saga)
  | finish (t : TypedSagas) (key : SagaKey)

namespace SagaStore

/-- The record of the key is there and is told, or the call fails. -/
theorem get_cases (s : SagaStore) (key : SagaKey) :
    (∃ r, s.available = true ∧ s.find? key = some r ∧ s.get key = .ok r) ∨
      (s.available = false ∧ s.get key = .error outage) ∨
      (s.available = true ∧ s.find? key = none ∧ s.get key = .error (.notFound key)) := by
  unfold get
  cases available : s.available with
  | false => exact .inr (.inl ⟨rfl, rfl⟩)
  | true =>
      cases found : s.find? key with
      | some r => exact .inl ⟨r, rfl, rfl, rfl⟩
      | none => exact .inr (.inr ⟨rfl, rfl, rfl⟩)

theorem available_delete (s : SagaStore) (key : SagaKey) :
    (s.delete key).1.available = s.available := by
  unfold delete
  split <;> rfl

end SagaStore

namespace SagaCall

/-- What a call is made for. -/
inductive Aim where
  | begin
  | read
  | write (expected : UInt64)
  | remove

/-- What a call that succeeds is answered with. -/
inductive Answer where
  | record (r : SagaRecord)
  | saga (saga : Saga)
  | done

/-- The store after a call, the saga that was to be saved, and the answer. -/
structure Outcome where
  store : SagaStore
  held : Option Saga
  answer : Except SagaFault Answer

def key : SagaCall → SagaKey
  | .create key _ | .get key | .update key _ _ | .delete key => key
  | .start _ key _ | .load _ key | .finish _ key => key
  | .save _ saga => saga.key

def aim : SagaCall → Aim
  | .create _ _ | .start _ _ _ => .begin
  | .get _ | .load _ _ => .read
  | .update _ _ expected => .write expected
  | .save _ saga => .write saga.version
  | .delete _ | .finish _ _ => .remove

/-- The saga that whoever saves it has in hand. -/
def held : SagaCall → Option Saga
  | .save _ saga => some saga
  | _ => none

/-- The call of the store itself that a call comes down to. -/
def bare : SagaCall → SagaCall
  | .start t key state => .create key (t.format.encode state)
  | .load _ key => .get key
  | .save t saga => .update saga.key (t.format.encode saga.state) saga.version
  | .finish _ key => .delete key
  | call => call

def perform (s : SagaStore) : SagaCall → Outcome
  | .create key state =>
    let (s', made) := s.create key state
    ⟨s', none, made.map .record⟩
  | .get key => ⟨s, none, (s.get key).map .record⟩
  | .update key state expected =>
    let (s', written) := s.update key state expected
    ⟨s', none, written.map .record⟩
  | .delete key =>
    let (s', removed) := s.delete key
    ⟨s', none, removed.map fun _ => .done⟩
  | .start t key state =>
    let (s', begun) := t.start s key state
    ⟨s', none, begun.map .saga⟩
  | .load t key => ⟨s, none, (t.load s key).map .saga⟩
  | .save t saga =>
    let (s', saga', saved) := t.save s saga
    ⟨s', some saga', saved.map fun _ => .done⟩
  | .finish t key =>
    let (s', removed) := t.finish s key
    ⟨s', none, removed.map fun _ => .done⟩

@[simp] theorem key_bare (call : SagaCall) : call.bare.key = call.key := by
  cases call <;> rfl

@[simp] theorem aim_bare (call : SagaCall) : call.bare.aim = call.aim := by
  cases call <;> rfl

variable {s : SagaStore} {call : SagaCall}

/-! ## Reasons to fail -/

/-- Why a call fails, and what the failure is reported as. -/
inductive Refuses (s : SagaStore) (call : SagaCall) : SagaFault → Prop
  | unavailable (out : s.available = false) : Refuses s call SagaStore.outage
  | taken {r : SagaRecord} (available : s.available = true) (aim : call.aim = .begin)
      (found : s.find? call.key = some r) : Refuses s call (.alreadyExists call.key)
  | missing (available : s.available = true)
      (aim : call.aim = .read ∨ ∃ expected, call.aim = .write expected)
      (absent : s.find? call.key = none) : Refuses s call (.notFound call.key)
  | stale {r : SagaRecord} {expected : UInt64} (available : s.available = true)
      (aim : call.aim = .write expected) (found : s.find? call.key = some r)
      (moved : r.version ≠ expected) :
      Refuses s call (.versionMismatch call.key expected r.version)
  | unreadable {t : TypedSagas} {r : SagaRecord} {f : CodecFault} (available : s.available = true)
      (typed : call = .load t call.key) (found : s.find? call.key = some r)
      (unread : t.format.decode t.schema r.state = .error f) : Refuses s call (.serialization f)

/-- A call fails, and nothing has changed. -/
def Fails (s : SagaStore) (call : SagaCall) (f : SagaFault) : Prop :=
  perform s call = ⟨s, call.held, .error f⟩

/-- A call succeeds, and at other keys than its own there is what there was. -/
structure Succeeds (s : SagaStore) (call : SagaCall) : Prop where
  answered : ∃ answer, (perform s call).answer = .ok answer
  others : ∀ other, other ≠ call.key → (perform s call).store.find? other = s.find? other
  available : (perform s call).store.available = s.available

/-- There is a reason for a call to fail, or it succeeds. -/
def Settles (s : SagaStore) (call : SagaCall) : Prop :=
  (∃ f, Refuses s call f) ∨ Succeeds s call

theorem fails_of_unavailable (out : s.available = false) : Fails s call SagaStore.outage := by
  have unread (key : SagaKey) : s.get key = .error SagaStore.outage := by
    simp [SagaStore.get, out]
  have unwritten (key : SagaKey) (state : Bytes) (expected : UInt64) :
      s.update key state expected = (s, .error SagaStore.outage) := by
    simp [SagaStore.update, out]
  cases call with
  | create | start =>
      simp [Fails, perform, TypedSagas.start, SagaStore.create, out, held, Except.map]
  | get | load => simp only [Fails, perform, TypedSagas.load, unread, held, Except.map]
  | update | save => simp only [Fails, perform, TypedSagas.save, unwritten, held, Except.map]
  | delete | finish =>
      simp [Fails, perform, TypedSagas.finish, SagaStore.delete, out, held, Except.map]

theorem fails_of_taken {r : SagaRecord} (available : s.available = true)
    (aim : call.aim = .begin) (found : s.find? call.key = some r) :
    Fails s call (.alreadyExists call.key) := by
  cases call with
  | create key state =>
      simp only [SagaCall.key] at found ⊢
      simp [Fails, perform, SagaStore.create, available, found, held, Except.map]
  | start t key state =>
      simp only [SagaCall.key] at found ⊢
      simp [Fails, perform, TypedSagas.start, SagaStore.create, available, found, held, Except.map]
  | get | update | delete | load | save | finish => cases aim

theorem fails_of_missing (available : s.available = true)
    (aim : call.aim = .read ∨ ∃ expected, call.aim = .write expected)
    (absent : s.find? call.key = none) : Fails s call (.notFound call.key) := by
  have unread : s.get call.key = .error (.notFound call.key) := by
    simp [SagaStore.get, available, absent]
  have unwritten (state : Bytes) (expected : UInt64) :
      s.update call.key state expected = (s, .error (.notFound call.key)) := by
    simp [SagaStore.update, available, absent]
  cases call with
  | get | load =>
      simp only [SagaCall.key] at unread ⊢
      simp only [Fails, perform, TypedSagas.load, unread, held, Except.map]
  | update | save =>
      simp only [SagaCall.key] at unwritten ⊢
      simp only [Fails, perform, TypedSagas.save, unwritten, held, Except.map]
  | create | delete | start | finish => simp [SagaCall.aim] at aim

theorem fails_of_stale {r : SagaRecord} {expected : UInt64} (available : s.available = true)
    (aim : call.aim = .write expected) (found : s.find? call.key = some r)
    (moved : r.version ≠ expected) :
    Fails s call (.versionMismatch call.key expected r.version) := by
  have unwritten (state : Bytes) : s.update call.key state expected =
      (s, .error (.versionMismatch call.key expected r.version)) := by
    simp [SagaStore.update, available, found, moved]
  cases call with
  | update | save =>
      obtain rfl := Aim.write.inj aim
      simp only [SagaCall.key] at unwritten ⊢
      simp only [Fails, perform, TypedSagas.save, unwritten, held, Except.map]
  | create | get | delete | start | load | finish => cases aim

theorem fails_of_unreadable {t : TypedSagas} {key : SagaKey} {r : SagaRecord} {f : CodecFault}
    (available : s.available = true) (found : s.find? key = some r)
    (unread : t.format.decode t.schema r.state = .error f) :
    Fails s (.load t key) (.serialization f) := by
  have got : s.get key = .ok r := by
    simp [SagaStore.get, available, found]
  simp only [Fails, perform, TypedSagas.load, got, unread, held, Except.map]

/-- A call fails wherever there is a reason for it. -/
theorem Refuses.fails {f : SagaFault} (refused : Refuses s call f) : Fails s call f := by
  cases refused with
  | unavailable out => exact fails_of_unavailable out
  | taken available aim found => exact fails_of_taken available aim found
  | missing available aim absent => exact fails_of_missing available aim absent
  | stale available aim found moved => exact fails_of_stale available aim found moved
  | unreadable available typed found unread =>
      rw [typed]
      exact fails_of_unreadable available found unread

/-! ## Calls of the store itself -/

theorem settles_create (s : SagaStore) (key : SagaKey) (state : Bytes) :
    Settles s (.create key state) := by
  obtain ⟨_, _, made⟩ | ⟨out, _⟩ | ⟨r, available, found, _⟩ := s.create_cases key state
  · have after : perform s (.create key state) =
        ⟨s.put ⟨key, state, 1⟩, none, .ok (.record ⟨key, state, 1⟩)⟩ := by
      simp only [perform, made, Except.map]
    refine .inr ⟨⟨_, congrArg Outcome.answer after⟩, fun other ne => ?_, by rw [after]; rfl⟩
    rw [after]
    exact SagaStore.find?_put_ne s _ ne
  · exact .inl ⟨_, .unavailable out⟩
  · exact .inl ⟨_, .taken available rfl found⟩

theorem settles_get (s : SagaStore) (key : SagaKey) : Settles s (.get key) := by
  obtain ⟨r, _, _, got⟩ | ⟨out, _⟩ | ⟨available, absent, _⟩ := s.get_cases key
  · refine .inr ⟨⟨.record r, ?_⟩, fun _ _ => rfl, rfl⟩
    simp only [perform, got, Except.map]
  · exact .inl ⟨_, .unavailable out⟩
  · exact .inl ⟨_, .missing available (.inl rfl) absent⟩

theorem settles_update (s : SagaStore) (key : SagaKey) (state : Bytes) (expected : UInt64) :
    Settles s (.update key state expected) := by
  obtain ⟨r, _, _, _, written⟩ | ⟨out, _⟩ | ⟨available, absent, _⟩ |
      ⟨r, available, found, moved, _⟩ := s.update_cases key state expected
  · have after : perform s (.update key state expected) =
        ⟨s.put ⟨key, state, expected + 1⟩, none, .ok (.record ⟨key, state, expected + 1⟩)⟩ := by
      simp only [perform, written, Except.map]
    refine .inr ⟨⟨_, congrArg Outcome.answer after⟩, fun other ne => ?_, by rw [after]; rfl⟩
    rw [after]
    exact SagaStore.find?_put_ne s _ ne
  · exact .inl ⟨_, .unavailable out⟩
  · exact .inl ⟨_, .missing available (.inr ⟨expected, rfl⟩) absent⟩
  · exact .inl ⟨_, .stale available rfl found moved⟩

theorem settles_delete (s : SagaStore) (key : SagaKey) : Settles s (.delete key) := by
  obtain ⟨s', _, deleted, _, others⟩ | ⟨out, _⟩ := s.delete_cases key
  · have after : perform s (.delete key) = ⟨s', none, .ok .done⟩ := by
      simp only [perform, deleted, Except.map]
    refine .inr ⟨⟨_, congrArg Outcome.answer after⟩, fun other ne => ?_, ?_⟩
    · rw [after]
      exact others other ne
    · rw [after, ← s.available_delete key, deleted]
  · exact .inl ⟨_, .unavailable out⟩

theorem settles_bare (s : SagaStore) (call : SagaCall) : Settles s call.bare := by
  cases call with
  | create key state => exact settles_create s key state
  | get key => exact settles_get s key
  | update key state expected => exact settles_update s key state expected
  | delete key => exact settles_delete s key
  | start t key state => exact settles_create s key _
  | load t key => exact settles_get s key
  | save t saga => exact settles_update s saga.key _ saga.version
  | finish t key => exact settles_delete s key

/-! ## Typed calls -/

/-- A typed call does to the store what its bare call does. -/
theorem store_bare (s : SagaStore) (call : SagaCall) :
    (perform s call.bare).store = (perform s call).store := by
  cases call with
  | save t saga =>
      simp only [bare, perform, TypedSagas.save]
      split <;> simp_all
  | create | get | update | delete | start | load | finish => rfl

/-- Where its bare call succeeds, so does a typed call, unless it cannot read what there is. -/
theorem answered_of_bare {answer : Answer} (answered : (perform s call.bare).answer = .ok answer) :
    (∃ f, Refuses s call f) ∨ ∃ answer', (perform s call).answer = .ok answer' := by
  cases call with
  | create | get | update | delete | finish => exact .inr ⟨answer, answered⟩
  | start t key state =>
      cases made : s.create key (t.format.encode state) with
      | mk s' begun =>
          cases begun <;> simp_all [bare, perform, TypedSagas.start, Except.map]
  | load t key =>
      obtain ⟨r, available, found, got⟩ | ⟨out, _⟩ | ⟨available, absent, _⟩ := s.get_cases key
      · cases read : t.format.decode t.schema r.state with
        | ok state =>
            refine .inr ⟨.saga ⟨r.key, state, r.version⟩, ?_⟩
            simp only [perform, TypedSagas.load, got, read, Except.map]
        | error f => exact .inl ⟨_, .unreadable available rfl found read⟩
      · exact .inl ⟨_, .unavailable out⟩
      · exact .inl ⟨_, .missing available (.inl rfl) absent⟩
  | save t saga =>
      cases written : s.update saga.key (t.format.encode saga.state) saga.version with
      | mk s' saved =>
          cases saved <;> simp_all [bare, perform, TypedSagas.save, Except.map]

theorem Refuses.of_bare {f : SagaFault} (refused : Refuses s call.bare f) : Refuses s call f := by
  cases refused with
  | unavailable out => exact .unavailable out
  | taken available aim found =>
      rw [key_bare] at found ⊢
      exact .taken available (call.aim_bare ▸ aim) found
  | missing available aim absent =>
      rw [key_bare] at absent ⊢
      exact .missing available (call.aim_bare ▸ aim) absent
  | stale available aim found moved =>
      rw [key_bare] at found ⊢
      exact .stale available (call.aim_bare ▸ aim) found moved
  | unreadable available typed =>
      cases call <;> simp [bare] at typed

theorem settles (s : SagaStore) (call : SagaCall) : Settles s call := by
  obtain ⟨f, refused⟩ | ⟨⟨answer, answered⟩, others, available⟩ := settles_bare s call
  · exact .inl ⟨f, refused.of_bare⟩
  · obtain refused | answered := answered_of_bare answered
    · exact .inl refused
    · rw [store_bare, key_bare] at others
      rw [store_bare] at available
      exact .inr ⟨answered, others, available⟩

/-! ## What a failure says -/

theorem answer_eq_error_iff {f : SagaFault} :
    (perform s call).answer = .error f ↔ Refuses s call f := by
  constructor
  · intro failed
    obtain ⟨f', refused⟩ | ⟨⟨answer, answered⟩, _, _⟩ := settles s call
    · rw [refused.fails] at failed
      obtain rfl := Except.error.inj failed
      exact refused
    · rw [answered] at failed
      cases failed
  · intro refused
    rw [refused.fails]

/-- What calls of a store of sagas do, whether they fail or not. -/
structure Classified (s : SagaStore) (call : SagaCall) : Prop where
  /-- A call that fails changes neither the store nor the saga that was to be saved. -/
  failed : ∀ f, (perform s call).answer = .error f →
    (perform s call).store = s ∧ (perform s call).held = call.held
  storage_iff : (∃ cause, (perform s call).answer = .error (.storage cause)) ↔
    s.available = false
  alreadyExists_iff : ∀ key, (perform s call).answer = .error (.alreadyExists key) ↔
    s.available = true ∧ key = call.key ∧ call.aim = .begin ∧ ∃ r, s.find? key = some r
  notFound_iff : ∀ key, (perform s call).answer = .error (.notFound key) ↔
    s.available = true ∧ key = call.key ∧
      (call.aim = .read ∨ ∃ expected, call.aim = .write expected) ∧ s.find? key = none
  versionMismatch_iff : ∀ key expected actual,
    (perform s call).answer = .error (.versionMismatch key expected actual) ↔
      s.available = true ∧ key = call.key ∧ call.aim = .write expected ∧
        (∃ r, s.find? key = some r ∧ r.version = actual) ∧ actual ≠ expected
  /-- Only what reads typed states tells that it cannot read one. -/
  serialization_iff : ∀ f, (perform s call).answer = .error (.serialization f) ↔
    s.available = true ∧ ∃ t key r, call = .load t key ∧ s.find? key = some r ∧
      t.format.decode t.schema r.state = .error f
  /-- Whether the key has a record or not, it has none once it was removed. -/
  removes : call.aim = .remove → s.available = true →
    (perform s call).answer = .ok .done ∧ (perform s call).store.find? call.key = none
  /-- Whatever comes of a call, nothing happens to the records of other keys. -/
  others : ∀ other, other ≠ call.key → (perform s call).store.find? other = s.find? other

theorem removes (aim : call.aim = .remove) (available : s.available = true) :
    (perform s call).answer = .ok .done ∧ (perform s call).store.find? call.key = none := by
  have deletes (key : SagaKey) : ∃ s', s.delete key = (s', .ok ()) ∧ s'.find? key = none := by
    obtain ⟨s', _, deleted, gone, _⟩ | ⟨out, _⟩ := s.delete_cases key
    · exact ⟨s', deleted, gone⟩
    · rw [available] at out
      cases out
  cases call with
  | delete key | finish _ key =>
      obtain ⟨s', deleted, gone⟩ := deletes key
      simp only [perform, TypedSagas.finish, deleted, Except.map, SagaCall.key]
      exact ⟨trivial, gone⟩
  | create | get | update | start | load | save => cases aim

theorem others (s : SagaStore) (call : SagaCall) {other : SagaKey} (ne : other ≠ call.key) :
    (perform s call).store.find? other = s.find? other := by
  obtain ⟨f, refused⟩ | succeeds := settles s call
  · rw [refused.fails]
  · exact succeeds.others other ne

/-- A call of a store of sagas fails for the reason that it tells and changes nothing. -/
theorem failures_classified (s : SagaStore) (call : SagaCall) : Classified s call := by
  constructor
  case failed =>
    intro f failed
    rw [(answer_eq_error_iff.mp failed).fails]
    exact ⟨rfl, rfl⟩
  case storage_iff =>
    simp only [answer_eq_error_iff]
    constructor
    · rintro ⟨cause, ⟨out⟩⟩
      exact out
    · intro out
      exact ⟨_, .unavailable out⟩
  case alreadyExists_iff =>
    intro key
    rw [answer_eq_error_iff]
    constructor
    · intro refused
      cases refused with
      | taken available aim found => exact ⟨available, rfl, aim, _, found⟩
    · rintro ⟨available, rfl, aim, r, found⟩
      exact .taken available aim found
  case notFound_iff =>
    intro key
    rw [answer_eq_error_iff]
    constructor
    · intro refused
      cases refused with
      | missing available aim absent => exact ⟨available, rfl, aim, absent⟩
    · rintro ⟨available, rfl, aim, absent⟩
      exact .missing available aim absent
  case versionMismatch_iff =>
    intro key expected actual
    rw [answer_eq_error_iff]
    constructor
    · intro refused
      cases refused with
      | stale available aim found moved => exact ⟨available, rfl, aim, ⟨_, found, rfl⟩, moved⟩
    · rintro ⟨available, rfl, aim, ⟨r, found, rfl⟩, moved⟩
      exact .stale available aim found moved
  case serialization_iff =>
    intro f
    rw [answer_eq_error_iff]
    constructor
    · intro refused
      cases refused with
      | unreadable available typed found unread =>
          exact ⟨available, _, _, _, typed, found, unread⟩
    · rintro ⟨available, t, key, r, rfl, found, unread⟩
      exact .unreadable available rfl found unread
  case removes => exact removes
  case others => exact fun other ne => others s call ne

end SagaCall

end Courier
