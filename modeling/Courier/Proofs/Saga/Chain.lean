import Courier.Proofs.Places
import Courier.Saga.Typed

/-!
# No change to a saga is lost

Many use one store of sagas. They begin sagas and read them, they keep what they have in hand and
copies of it, they change the states of what they have, and they write it back, however old it is.
The store may be unavailable at times, and no saga is removed.

A run of such deeds tells a history of the calls that succeeded in writing. For each key these make
a chain (`Chained`): the saga is begun at version 1, and each further call has the version that the
one before it has left and leaves the next one. So two who change a saga that they have read at the
same version do not both succeed. What the store has is the end of the chain, which is what
`Linked` is for, and that settles the answer of every call.

Versions are 64 bits wide. They are counted here as the machine counts them, so that they tell the
calls of a chain apart as long as there are no more than 2⁶⁴ of them.
-/

namespace Courier

namespace SagaStore

/-! ## Calls -/

@[simp] theorem find?_put (s : SagaStore) (r : SagaRecord) : (s.put r).find? r.key = some r := by
  simp [find?, put]

theorem find?_put_ne (s : SagaStore) (r : SagaRecord) {key : SagaKey} (ne : key ≠ r.key) :
    (s.put r).find? key = s.find? key := by
  have apart : (r.key == key) = false := beq_eq_false_iff_ne.mpr (Ne.symm ne)
  simp only [find?, put, List.find?_cons, apart, List.find?_filter]
  congr 1
  funext old
  by_cases here : old.key = key
  · simp [here, ne]
  · simp [here]

/-- A record is added under a key that is free, or nothing happens. -/
theorem create_cases (s : SagaStore) (key : SagaKey) (state : Bytes) :
    (s.available = true ∧ s.find? key = none ∧
      s.create key state = (s.put ⟨key, state, 1⟩, .ok ⟨key, state, 1⟩)) ∨
      (s.available = false ∧ s.create key state = (s, .error outage)) ∨
      ∃ r, s.available = true ∧ s.find? key = some r ∧
        s.create key state = (s, .error (.alreadyExists key)) := by
  unfold create
  cases available : s.available with
  | false => exact .inr (.inl ⟨rfl, rfl⟩)
  | true =>
      cases found : s.find? key with
      | none => exact .inl ⟨rfl, rfl, rfl⟩
      | some r => exact .inr (.inr ⟨r, rfl, rfl, rfl⟩)

/-- A record at the expected version is replaced by the next one, or nothing happens. -/
theorem update_cases (s : SagaStore) (key : SagaKey) (state : Bytes) (expected : UInt64) :
    (∃ r, s.available = true ∧ s.find? key = some r ∧ r.version = expected ∧
      s.update key state expected =
        (s.put ⟨key, state, expected + 1⟩, .ok ⟨key, state, expected + 1⟩)) ∨
      (s.available = false ∧ s.update key state expected = (s, .error outage)) ∨
      (s.available = true ∧ s.find? key = none ∧
        s.update key state expected = (s, .error (.notFound key))) ∨
      ∃ r, s.available = true ∧ s.find? key = some r ∧ r.version ≠ expected ∧
        s.update key state expected = (s, .error (.versionMismatch key expected r.version)) := by
  unfold update
  cases available : s.available with
  | false => exact .inr (.inl ⟨rfl, rfl⟩)
  | true =>
      cases found : s.find? key with
      | none => exact .inr (.inr (.inl ⟨rfl, rfl, rfl⟩))
      | some r =>
          by_cases same : r.version = expected
          · subst same
            exact .inl ⟨r, rfl, rfl, rfl, by simp⟩
          · exact .inr (.inr (.inr ⟨r, rfl, rfl, same, by simp [same]⟩))

end SagaStore

/-- What has been read is stored. -/
theorem TypedSagas.find?_of_load {t : TypedSagas} {store : SagaStore} {key : SagaKey} {saga : Saga}
    (loaded : t.load store key = .ok saga) :
    ∃ r, store.find? saga.key = some r ∧ r.version = saga.version := by
  unfold load at loaded
  split at loaded
  · simp at loaded
  · rename_i r got
    have found : store.find? key = some r := by
      unfold SagaStore.get at got
      split at got
      · simp at got
      · split at got
        · rename_i r' found
          obtain rfl : r' = r := by simpa using got
          exact found
        · simp at got
    have here : r.key = key := by simpa using List.find?_some found
    split at loaded
    · obtain rfl := Except.ok.inj loaded
      exact ⟨r, by rw [here, found], rfl⟩
    · simp at loaded

/-! ## Stores in use -/

/-- A store of sagas and all sagas that somebody has in hand. -/
structure Writers where
  store : SagaStore := {}
  held : List Saga := []

namespace Writers

/-- What those who use a store of sagas do, each of them by a way of reading of their own. Of a
saga in hand, given by its place, they change nothing but the state. -/
inductive Deed where
  | start (t : TypedSagas) (key : SagaKey) (state : Payload)
  | load (t : TypedSagas) (key : SagaKey)
  | copy (place : Nat)
  | edit (place : Nat) (state : Payload)
  | save (t : TypedSagas) (place : Nat)
  | setAvailable (available : Bool)

/-- A call that has written: the version of the saga in hand, none where the saga was begun, and
what the store has had since. -/
structure Link where
  key : SagaKey
  carried : Option UInt64
  version : UInt64
  state : Bytes

/-- A deed, and the call of it that has written. -/
def step (s : Writers) : Deed → Writers × List Link
  | .start t key state =>
    match t.start s.store key state with
    | (store, .ok saga) =>
      ({ store := store, held := s.held ++ [saga] },
        [⟨key, none, saga.version, t.format.encode state⟩])
    | (store, .error _) => ({ s with store := store }, [])
  | .load t key =>
    match t.load s.store key with
    | .ok saga => ({ s with held := s.held ++ [saga] }, [])
    | .error _ => (s, [])
  | .copy place => ({ s with held := s.held ++ s.held[place]?.toList }, [])
  | .edit place state =>
    ({ s with held := s.held.modify place fun saga => { saga with state := state } }, [])
  | .save t place =>
    match s.held[place]? with
    | none => (s, [])
    | some saga =>
      match t.save s.store saga with
      | (store, saga', answer) =>
        ({ store := store, held := s.held.set place saga' },
          match answer with
          | .ok () => [⟨saga.key, some saga.version, saga'.version, t.format.encode saga.state⟩]
          | .error _ => [])
  | .setAvailable available => ({ s with store := s.store.setAvailable available }, [])

/-- Deeds one after the other, and the calls that have written. -/
def run (s : Writers) : List Deed → Writers × List Link
  | [] => (s, [])
  | deed :: rest =>
    let (s', h) := s.step deed
    let (s'', h') := s'.run rest
    (s'', h ++ h')

/-! ## Chains -/

/-- The calls that have written under a key. -/
def links (key : SagaKey) (h : List Link) : List Link := h.filter (·.key == key)

/-- The first call begins the saga at version 1, each further call has the version that the one
before it has left, and leaves the next one. -/
def Chained (chain : List Link) : Prop := ∀ i link, chain[i]? = some link →
  link.version = UInt64.ofNat (i + 1) ∧
    link.carried = if i = 0 then none else some (UInt64.ofNat i)

@[simp] theorem links_nil (key : SagaKey) : links key [] = [] := rfl

theorem links_concat_self (h : List Link) (link : Link) :
    links link.key (h ++ [link]) = links link.key h ++ [link] := by
  simp [links]

theorem links_concat_ne (h : List Link) (link : Link) {key : SagaKey} (ne : link.key ≠ key) :
    links key (h ++ [link]) = links key h := by
  simp [links, ne]

namespace Chained

variable {chain : List Link}

theorem nil : Chained [] := by
  intro i link at'
  simp at at'

/-- The last call of a chain leaves the number of calls as its version. -/
theorem getLast_version (chained : Chained chain) {last : Link}
    (end' : chain.getLast? = some last) : last.version = UInt64.ofNat chain.length := by
  obtain ⟨front, rfl⟩ := List.getLast?_eq_some_iff.mp end'
  have version := (chained front.length last (by simp)).1
  simpa using version

/-- A chain goes on with a call that has the version of its last one. -/
theorem concat (chained : Chained chain) {link : Link}
    (carried : link.carried = chain.getLast?.map (·.version))
    (version : link.version = (link.carried.getD 0) + 1) : Chained (chain ++ [link]) := by
  intro i link' at'
  obtain at' | ⟨rfl, rfl⟩ := getElem?_concat_cases at'
  · exact chained i link' at'
  · cases end' : chain.getLast? with
    | none =>
        obtain rfl := List.getLast?_eq_none_iff.mp end'
        rw [end', Option.map_none] at carried
        rw [version, carried]
        exact ⟨rfl, rfl⟩
    | some last =>
        have some : chain.length ≠ 0 := by
          rintro empty
          simp [List.length_eq_zero_iff.mp empty] at end'
        have left := chained.getLast_version end'
        rw [end', Option.map_some, left] at carried
        rw [version, carried, if_neg some, UInt64.ofNat_add]
        exact ⟨rfl, rfl⟩

/-- Two calls of a chain that have the same version are as far apart as there are versions. -/
theorem far_apart (chained : Chained chain) {i j : Nat} {a b : Link} (ha : chain[i]? = some a)
    (hb : chain[j]? = some b) (same : a.carried = b.carried) (lt : i < j) :
    i + UInt64.size ≤ j := by
  rw [(chained i a ha).2, (chained j b hb).2, if_neg (by omega : j ≠ 0)] at same
  split at same
  · simp at same
  · have same := congrArg UInt64.toNat (Option.some.inj same)
    rw [UInt64.toNat_ofNat', UInt64.toNat_ofNat'] at same
    simp only [UInt64.size]
    omega

theorem carried_nodup (chained : Chained chain) (few : chain.length ≤ UInt64.size) :
    (chain.map (·.carried)).Nodup := by
  rw [List.nodup_iff_pairwise_ne, List.pairwise_iff_getElem]
  intro i j hi hj lt same
  simp only [List.length_map] at hi hj
  simp only [List.getElem_map] at same
  have far := chained.far_apart (List.getElem?_eq_getElem hi) (List.getElem?_eq_getElem hj) same lt
  omega

end Chained

/-! ## Store and history -/

/-- A store has what its history tells: under each key a chain has been written, and its last call
has left what is stored. Whoever has a saga in hand has got it by a call of its chain. -/
structure Linked (s : Writers) (h : List Link) : Prop where
  chained : ∀ key, Chained (links key h)
  stored : ∀ key, s.store.find? key =
    (links key h).getLast?.map fun link => ⟨key, link.state, link.version⟩
  held : ∀ saga ∈ s.held, ∃ link ∈ links saga.key h, link.version = saga.version

namespace Linked

variable {s : Writers} {h : List Link}

theorem begin : Linked {} [] where
  chained _ := .nil
  stored _ := rfl
  held saga mem := by simp at mem

/-- Where something is stored, it is what the last call has left. -/
theorem getLast?_of_find? (linked : Linked s h) {key : SagaKey} {r : SagaRecord}
    (found : s.store.find? key = some r) : ∃ last, (links key h).getLast? = some last ∧
      r = ⟨key, last.state, last.version⟩ := by
  rw [linked.stored key, Option.map_eq_some_iff] at found
  obtain ⟨last, end', rfl⟩ := found
  exact ⟨last, end', rfl⟩

theorem links_eq_nil_iff (linked : Linked s h) (key : SagaKey) :
    links key h = [] ↔ s.store.find? key = none := by
  rw [linked.stored key, Option.map_eq_none_iff, List.getLast?_eq_none_iff]

/-- Nothing is written, and what there is in hand was so before or has just been read. -/
theorem keep (linked : Linked s h) {s' : Writers} (records : s'.store.records = s.store.records)
    (held : ∀ saga ∈ s'.held, (∃ old ∈ s.held, saga.key = old.key ∧ saga.version = old.version) ∨
      ∃ r, s.store.find? saga.key = some r ∧ r.version = saga.version) : Linked s' h where
  chained := linked.chained
  stored key := by
    rw [← linked.stored key, SagaStore.find?, SagaStore.find?, records]
  held saga mem := by
    obtain ⟨old, mem', key, version⟩ | ⟨r, found, version⟩ := held saga mem
    · rw [key, version]
      exact linked.held old mem'
    · obtain ⟨last, end', rfl⟩ := linked.getLast?_of_find? found
      exact ⟨last, List.mem_of_getLast? end', version⟩

/-- A call writes on top of the last one under its key, and what is new in hand is by this call. -/
theorem write (linked : Linked s h) {s' : Writers} {link : Link}
    (carried : link.carried = (links link.key h).getLast?.map (·.version))
    (version : link.version = link.carried.getD 0 + 1)
    (store : s'.store = s.store.put ⟨link.key, link.state, link.version⟩)
    (held : ∀ saga ∈ s'.held, saga ∈ s.held ∨
      saga.key = link.key ∧ saga.version = link.version) : Linked s' (h ++ [link]) where
  chained key := by
    by_cases here : link.key = key
    · subst here
      rw [links_concat_self]
      exact (linked.chained link.key).concat carried version
    · rw [links_concat_ne h link here]
      exact linked.chained key
  stored key := by
    rw [store]
    by_cases here : link.key = key
    · subst here
      rw [links_concat_self, List.getLast?_concat]
      exact SagaStore.find?_put s.store ⟨link.key, link.state, link.version⟩
    · rw [links_concat_ne h link here, SagaStore.find?_put_ne _ _ (Ne.symm here)]
      exact linked.stored key
  held saga mem := by
    have grown {key : SagaKey} : links key h ⊆ links key (h ++ [link]) := by
      rw [links, links, List.filter_append]
      exact List.subset_append_left ..
    obtain old | ⟨key, version⟩ := held saga mem
    · obtain ⟨by', mem', version⟩ := linked.held saga old
      exact ⟨by', grown mem', version⟩
    · refine ⟨link, ?_, version.symm⟩
      rw [key, links_concat_self]
      exact List.mem_append_right _ (List.mem_singleton_self link)

/-- Store and history stay linked whatever is done. -/
theorem step (linked : Linked s h) (deed : Deed) :
    Linked (s.step deed).1 (h ++ (s.step deed).2) := by
  have quiet : h ++ [] = h := List.append_nil h
  cases deed with
  | start t key state =>
      obtain ⟨_, free, made⟩ | failed := s.store.create_cases key (t.format.encode state)
      · simp only [Writers.step, TypedSagas.start, made, Except.map]
        refine linked.write ?_ rfl rfl fun saga mem => ?_
        · rw [(linked.links_eq_nil_iff key).mpr free]
          rfl
        · obtain old | rfl := List.mem_append.mp mem |>.imp_right List.mem_singleton.mp
          · exact .inl old
          · exact .inr ⟨rfl, rfl⟩
      · have same : ∃ f, s.store.create key (t.format.encode state) = (s.store, .error f) := by
          obtain ⟨_, failed⟩ | ⟨_, _, _, failed⟩ := failed
          · exact ⟨_, failed⟩
          · exact ⟨_, failed⟩
        obtain ⟨f, failed⟩ := same
        simp only [Writers.step, TypedSagas.start, failed, Except.map, quiet]
        exact linked.keep rfl fun saga mem => .inl ⟨saga, mem, rfl, rfl⟩
  | load t key =>
      simp only [Writers.step]
      split
      · rename_i saga loaded
        rw [quiet]
        refine linked.keep rfl fun saga' mem => ?_
        obtain old | rfl := List.mem_append.mp mem |>.imp_right List.mem_singleton.mp
        · exact .inl ⟨saga', old, rfl, rfl⟩
        · exact .inr (TypedSagas.find?_of_load loaded)
      · rw [quiet]
        exact linked
  | copy place =>
      simp only [Writers.step, quiet]
      refine linked.keep rfl fun saga mem => .inl ⟨saga, ?_, rfl, rfl⟩
      obtain old | copied := List.mem_append.mp mem
      · exact old
      · exact List.mem_of_getElem? (Option.mem_toList.mp copied)
  | edit place state =>
      simp only [Writers.step, quiet]
      refine linked.keep rfl fun saga mem => .inl ?_
      obtain ⟨i, within, rfl⟩ := List.mem_iff_getElem.mp mem
      rw [List.getElem_modify]
      simp only [List.length_modify] at within
      refine ⟨s.held[i], List.getElem_mem within, ?_⟩
      split <;> exact ⟨rfl, rfl⟩
  | save t place =>
      simp only [Writers.step]
      split
      · rw [quiet]
        exact linked
      · rename_i saga at'
        have mine : saga ∈ s.held := List.mem_of_getElem? at'
        obtain ⟨r, _, found, same, written⟩ | failed :=
          s.store.update_cases saga.key (t.format.encode saga.state) saga.version
        · simp only [TypedSagas.save, written]
          obtain ⟨last, end', rfl⟩ := linked.getLast?_of_find? found
          refine linked.write ?_ rfl rfl fun saga' mem => ?_
          · rw [end', ← same]
            rfl
          · obtain old | rfl := List.mem_or_eq_of_mem_set mem
            · exact .inl old
            · exact .inr ⟨rfl, rfl⟩
        · have same : ∃ f, s.store.update saga.key (t.format.encode saga.state) saga.version =
              (s.store, .error f) := by
            obtain ⟨_, failed⟩ | ⟨_, _, failed⟩ | ⟨_, _, _, _, failed⟩ := failed
            · exact ⟨_, failed⟩
            · exact ⟨_, failed⟩
            · exact ⟨_, failed⟩
          obtain ⟨f, failed⟩ := same
          simp only [TypedSagas.save, failed, quiet]
          refine linked.keep rfl fun saga' mem => .inl ⟨saga', ?_, rfl, rfl⟩
          obtain old | rfl := List.mem_or_eq_of_mem_set mem
          · exact old
          · exact mine
  | setAvailable available =>
      simp only [Writers.step, quiet]
      exact linked.keep rfl fun saga mem => .inl ⟨saga, mem, rfl, rfl⟩

theorem run (linked : Linked s h) (deeds : List Deed) :
    Linked (s.run deeds).1 (h ++ (s.run deeds).2) := by
  induction deeds generalizing s h with
  | nil => simpa [Writers.run] using linked
  | cons deed rest ih =>
      have after := ih (linked.step deed)
      rwa [List.append_assoc] at after

end Linked

/-! ## What is true after every run -/

/-- No change to a saga is lost, as a store and its history have it. -/
structure NothingLost (s : Writers) (h : List Link) : Prop where
  /-- Under each key there is one chain: it begins at version 1, and each further call has the
  version that the one before it has left. -/
  chained : ∀ key, Chained (links key h)
  /-- No two calls of a chain have the same version, unless all versions there are have been
  used between them, -/
  far : ∀ key i j a b, (links key h)[i]? = some a → (links key h)[j]? = some b →
    a.carried = b.carried → i < j → i + UInt64.size ≤ j
  /-- so a version makes at most one call succeed as long as versions do not run out. -/
  once : ∀ key, (links key h).length ≤ UInt64.size → ((links key h).map (·.carried)).Nodup
  /-- A saga is begun if and only if there is none under its key. -/
  start : ∀ (t : TypedSagas) key state, (t.start s.store key state).2 =
    if s.store.available then
      if links key h = [] then .ok ⟨key, state, 1⟩ else .error (.alreadyExists key)
    else .error SagaStore.outage
  /-- What is read is what the last call has left. -/
  load : ∀ (t : TypedSagas) key, t.load s.store key =
    if s.store.available then
      match (links key h).getLast? with
      | none => .error (.notFound key)
      | some last =>
        match t.format.decode t.schema last.state with
        | .ok state => .ok ⟨key, state, last.version⟩
        | .error f => .error (.serialization f)
    else .error SagaStore.outage
  /-- A saga is written back if and only if it has the version that the last call has left. It is
  at the next version then, and everything stays as it was otherwise. -/
  save : ∀ (t : TypedSagas) (saga : Saga), t.save s.store saga =
    if s.store.available then
      match (links saga.key h).getLast? with
      | none => (s.store, saga, .error (.notFound saga.key))
      | some last =>
        if last.version = saga.version then
          (s.store.put ⟨saga.key, t.format.encode saga.state, saga.version + 1⟩,
            { saga with version := saga.version + 1 }, .ok ())
        else
          (s.store, saga, .error (.versionMismatch saga.key saga.version last.version))
    else (s.store, saga, .error SagaStore.outage)
  /-- Whatever somebody has in hand has the version that some call of its chain has left. -/
  held : ∀ saga ∈ s.held, ∃ link ∈ links saga.key h, link.version = saga.version

/-- However a store of sagas is used, no change to a saga is lost. -/
theorem no_change_lost (deeds : List Deed) :
    NothingLost (run {} deeds).1 (run {} deeds).2 := by
  have linked := Linked.begin.run deeds
  rw [List.nil_append] at linked
  revert linked
  generalize run {} deeds = after
  obtain ⟨s, h⟩ := after
  intro linked
  constructor
  case chained => exact linked.chained
  case far => exact fun key i j a b ha hb same lt => (linked.chained key).far_apart ha hb same lt
  case once => exact fun key few => (linked.chained key).carried_nodup few
  case start =>
    intro t key state
    simp only [linked.links_eq_nil_iff key, TypedSagas.start]
    obtain ⟨available, free, made⟩ | ⟨out, failed⟩ | ⟨r, available, found, failed⟩ :=
      s.store.create_cases key (t.format.encode state)
    · simp [made, available, free, Except.map]
    · simp [failed, out, Except.map]
    · simp [failed, available, found, Except.map]
  case load =>
    intro t key
    have found := linked.stored key
    cases available : s.store.available with
    | false => simp [TypedSagas.load, SagaStore.get, available]
    | true =>
        cases end' : (links key h).getLast? with
        | none => simp [TypedSagas.load, SagaStore.get, available, found, end']
        | some last =>
            cases decoded : t.format.decode t.schema last.state <;>
              simp [TypedSagas.load, SagaStore.get, available, found, end', decoded]
  case save =>
    intro t saga
    have stored := linked.stored saga.key
    obtain ⟨r, available, found, same, written⟩ | ⟨out, failed⟩ | ⟨available, free, failed⟩ |
        ⟨r, available, found, other, failed⟩ :=
      s.store.update_cases saga.key (t.format.encode saga.state) saga.version
    · obtain ⟨last, end', rfl⟩ := linked.getLast?_of_find? found
      have same : last.version = saga.version := same
      simp [TypedSagas.save, written, available, end', same]
    · simp [TypedSagas.save, failed, out]
    · have none := (linked.links_eq_nil_iff saga.key).mpr free
      simp [TypedSagas.save, failed, available, none]
    · obtain ⟨last, end', rfl⟩ := linked.getLast?_of_find? found
      have other : last.version ≠ saga.version := other
      simp [TypedSagas.save, failed, available, end', other]
  case held => exact linked.held

end Writers

end Courier
