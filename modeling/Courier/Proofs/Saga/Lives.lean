import Courier.Proofs.Saga.Chain

/-!
# Sagas that are removed and begun again

Those who use a store of sagas may also remove them. What a key has is then a life at a time: a
record is begun at version 1, written on, and removed, and another one may be begun in its place. Of
a saga in hand it is known how much had happened to the record of its key when it was obtained, so
that what has happened since (`since`) can be told.

A saga is written back if and only if the record has the version of the saga (`save_iff`). Within
one life that is as good as comparing the records themselves (`unchanged_iff`): versions only count
up. Across a removal it is not, as every life counts from 1: a saga of an earlier life may be
written over a later one.
-/

namespace Courier

open Writers (Link Chained)

/-- A record is removed, or nothing happens. -/
theorem SagaStore.delete_cases (s : SagaStore) (key : SagaKey) :
    (∃ s', s.available = true ∧ s.delete key = (s', .ok ()) ∧ s'.find? key = none ∧
      ∀ other, other ≠ key → s'.find? other = s.find? other) ∨
      (s.available = false ∧ s.delete key = (s, .error outage)) := by
  unfold delete
  cases available : s.available with
  | false => exact .inr ⟨rfl, rfl⟩
  | true =>
      refine .inl ⟨_, rfl, rfl, ?_, fun other ne => ?_⟩
      · simp [find?, List.find?_filter]
      · simp only [find?, List.find?_filter]
        congr 1
        funext r
        by_cases here : r.key = other
        · simp [here, ne]
        · simp [here]

/-- Something that happened to the record of a key. -/
inductive SagaEvent where
  | written (link : Link)
  | removed (key : SagaKey)

namespace SagaEvent

def key : SagaEvent → SagaKey
  | written link => link.key
  | removed key => key

def isRemoval : SagaEvent → Bool
  | written _ => false
  | removed _ => true

end SagaEvent

/-- A saga in hand, and how much had happened to the record of its key when it was obtained. -/
structure Keepers.Hand where
  saga : Saga
  origin : Nat

/-- A store of sagas, all that somebody has in hand, and what has happened to the records. -/
structure Keepers where
  store : SagaStore := {}
  hands : List Keepers.Hand := []
  past : List SagaEvent := []

namespace Keepers

/-- What those who use a store of sagas do. Of a saga in hand, given by its place, they change
nothing but the state. -/
inductive Deed where
  | start (t : TypedSagas) (key : SagaKey) (state : Payload)
  | load (t : TypedSagas) (key : SagaKey)
  | copy (place : Nat)
  | edit (place : Nat) (state : Payload)
  | save (t : TypedSagas) (place : Nat)
  | finish (t : TypedSagas) (key : SagaKey)
  | setAvailable (available : Bool)

/-- What has happened to the record of a key. -/
def trail (key : SagaKey) (past : List SagaEvent) : List SagaEvent := past.filter (·.key == key)

/-- What has happened to the record of a saga in hand since it was obtained. As long as nothing
has, the record is the very one it was obtained from. -/
def since (k : Keepers) (hand : Hand) : List SagaEvent :=
  (trail hand.saga.key k.past).drop hand.origin

/-- A saga in hand that was obtained just now. -/
def obtained (past : List SagaEvent) (saga : Saga) : Hand := ⟨saga, (trail saga.key past).length⟩

def step (k : Keepers) : Deed → Keepers
  | .start t key state =>
    match t.start k.store key state with
    | (store, .ok saga) =>
      let past := k.past ++ [.written ⟨key, none, saga.version, t.format.encode state⟩]
      { store := store, hands := k.hands ++ [obtained past saga], past := past }
    | (store, .error _) => { k with store := store }
  | .load t key =>
    match t.load k.store key with
    | .ok saga => { k with hands := k.hands ++ [obtained k.past saga] }
    | .error _ => k
  | .copy place => { k with hands := k.hands ++ k.hands[place]?.toList }
  | .edit place state =>
    { k with
      hands := k.hands.modify place fun hand => { hand with saga := { hand.saga with state } } }
  | .save t place =>
    match k.hands[place]? with
    | none => k
    | some hand =>
      match t.save k.store hand.saga with
      | (store, saga, .ok ()) =>
        let past := k.past ++ [.written
          ⟨saga.key, some hand.saga.version, saga.version, t.format.encode saga.state⟩]
        { store := store, hands := k.hands.set place (obtained past saga), past := past }
      | (store, saga, .error _) =>
        { k with store := store, hands := k.hands.set place { hand with saga := saga } }
  | .finish t key =>
    match t.finish k.store key with
    | (store, .ok ()) => { k with store := store, past := k.past ++ [.removed key] }
    | (store, .error _) => { k with store := store }
  | .setAvailable available => { k with store := k.store.setAvailable available }

def run (k : Keepers) (deeds : List Deed) : Keepers := deeds.foldl step k

/-! ## Lives -/

/-- The calls that have written a record since it was last begun. -/
def life (trail : List SagaEvent) : List Link :=
  trail.foldl (fun life event =>
    match event with
    | .written link => life ++ [link]
    | .removed _ => []) []

@[simp] theorem life_written (trail : List SagaEvent) (link : Link) :
    life (trail ++ [.written link]) = life trail ++ [link] := by
  simp [life]

@[simp] theorem life_removed (trail : List SagaEvent) (key : SagaKey) :
    life (trail ++ [.removed key]) = [] := by
  simp [life]

/-- As long as nothing is removed a life goes on. -/
theorem life_append (trail more : List SagaEvent)
    (unremoved : ∀ event ∈ more, event.isRemoval = false) :
    ∃ links, life (trail ++ more) = life trail ++ links ∧ links.length = more.length := by
  induction more generalizing trail with
  | nil => exact ⟨[], by simp, rfl⟩
  | cons event rest ih =>
      cases event with
      | removed key => exact absurd (unremoved _ List.mem_cons_self) (by simp [SagaEvent.isRemoval])
      | written link =>
          obtain ⟨links, after, length⟩ := ih (trail ++ [.written link])
            fun event mem => unremoved event (List.mem_cons_of_mem _ mem)
          refine ⟨link :: links, ?_, congrArg (· + 1) length⟩
          rw [List.append_cons, after, life_written, List.append_assoc, List.singleton_append]

theorem trail_concat_self (past : List SagaEvent) (event : SagaEvent) :
    trail event.key (past ++ [event]) = trail event.key past ++ [event] := by
  simp [trail]

theorem trail_concat_ne (past : List SagaEvent) (event : SagaEvent) {key : SagaKey}
    (ne : event.key ≠ key) : trail key (past ++ [event]) = trail key past := by
  simp [trail, ne]

/-- What has happened to a record stays so. -/
theorem trail_grows (key : SagaKey) (past more : List SagaEvent) :
    trail key past <+: trail key (past ++ more) := by
  rw [trail, trail, List.filter_append]
  exact List.prefix_append ..

theorem length_le_trail (key : SagaKey) (past more : List SagaEvent) :
    (trail key past).length ≤ (trail key (past ++ more)).length :=
  (trail_grows key past more).length_le

/-! ## Store and past -/

/-- A saga in hand has the version that the record had when it was obtained. -/
def Hand.Told (past : List SagaEvent) (hand : Hand) : Prop :=
  hand.origin ≤ (trail hand.saga.key past).length ∧
    ∃ link, (life ((trail hand.saga.key past).take hand.origin)).getLast? = some link ∧
      link.version = hand.saga.version

namespace Hand

variable {past : List SagaEvent} {hand : Hand}

/-- When a saga in hand was obtained, nothing of what happens later had happened. -/
theorem Told.later (told : hand.Told past) (more : List SagaEvent) :
    hand.Told (past ++ more) := by
  obtain ⟨old, found⟩ := told
  refine ⟨Nat.le_trans old (length_le_trail ..), ?_⟩
  obtain ⟨rest, same⟩ := trail_grows hand.saga.key past more
  rwa [← same, List.take_append_of_le_length old]

/-- A saga that was obtained just now. -/
theorem told_obtained {saga : Saga} (link : Link)
    (end' : (life (trail saga.key past)).getLast? = some link)
    (version : link.version = saga.version) : (obtained past saga).Told past :=
  ⟨Nat.le_refl _, link, by rwa [obtained, List.take_length], version⟩

/-- Its state has no part in when a saga was obtained. -/
theorem Told.of_same (told : hand.Told past) {hand' : Hand} (origin : hand'.origin = hand.origin)
    (key : hand'.saga.key = hand.saga.key) (version : hand'.saga.version = hand.saga.version) :
    hand'.Told past := by
  rwa [Told, origin, key, version]

end Hand

/-- A store has what the past tells: under each key a chain has been written since it was last
begun, and its last call has left what is stored. -/
structure Kept (k : Keepers) : Prop where
  chained : ∀ key, Chained (life (trail key k.past))
  stored : ∀ key, k.store.find? key =
    (life (trail key k.past)).getLast?.map fun link => ⟨key, link.state, link.version⟩
  told : ∀ hand ∈ k.hands, Hand.Told k.past hand

namespace Kept

variable {k : Keepers}

theorem begin : Kept {} where
  chained _ := .nil
  stored _ := rfl
  told hand mem := by simp at mem

/-- Where something is stored, it is what the last call has left. -/
theorem getLast?_of_find? (kept : Kept k) {key : SagaKey} {r : SagaRecord}
    (found : k.store.find? key = some r) :
    ∃ last, (life (trail key k.past)).getLast? = some last ∧
      r = ⟨key, last.state, last.version⟩ := by
  rw [kept.stored key, Option.map_eq_some_iff] at found
  obtain ⟨last, end', rfl⟩ := found
  exact ⟨last, end', rfl⟩

theorem life_eq_nil_iff (kept : Kept k) (key : SagaKey) :
    life (trail key k.past) = [] ↔ k.store.find? key = none := by
  rw [kept.stored key, Option.map_eq_none_iff, List.getLast?_eq_none_iff]

/-- What is stored has the number of the calls of its life as its version. -/
theorem version_of_find? (kept : Kept k) {key : SagaKey} {r : SagaRecord}
    (found : k.store.find? key = some r) :
    r.version = UInt64.ofNat (life (trail key k.past)).length := by
  obtain ⟨last, end', rfl⟩ := kept.getLast?_of_find? found
  exact (kept.chained key).getLast_version end'

/-- Nothing happens to the records. -/
theorem keep (kept : Kept k) {k' : Keepers} (records : k'.store.records = k.store.records)
    (past : k'.past = k.past) (told : ∀ hand ∈ k'.hands, hand.Told k.past) : Kept k' where
  chained := past ▸ kept.chained
  stored key := by
    rw [past, ← kept.stored key, SagaStore.find?, SagaStore.find?, records]
  told := past ▸ told

/-- A call writes on top of the last one in the life of its key. -/
theorem write (kept : Kept k) {k' : Keepers} (link : Link)
    (carried : link.carried = (life (trail link.key k.past)).getLast?.map (·.version))
    (version : link.version = link.carried.getD 0 + 1)
    (store : k'.store = k.store.put ⟨link.key, link.state, link.version⟩)
    (past : k'.past = k.past ++ [.written link])
    (told : ∀ hand ∈ k'.hands, hand.Told k.past ∨ ∃ saga : Saga,
      saga.key = link.key ∧ saga.version = link.version ∧ hand = obtained k'.past saga) :
    Kept k' := by
  have here : life (trail link.key k'.past) = life (trail link.key k.past) ++ [link] := by
    rw [past, ← life_written]
    exact congrArg life (trail_concat_self k.past (.written link))
  have elsewhere {key : SagaKey} (ne : link.key ≠ key) : trail key k'.past = trail key k.past := by
    rw [past]
    exact trail_concat_ne k.past (.written link) ne
  refine ⟨fun key => ?_, fun key => ?_, fun hand mem => ?_⟩
  · by_cases same : link.key = key
    · subst same
      rw [here]
      exact (kept.chained link.key).concat carried version
    · rw [elsewhere same]
      exact kept.chained key
  · rw [store]
    by_cases same : link.key = key
    · subst same
      rw [here, List.getLast?_concat]
      exact SagaStore.find?_put k.store ⟨link.key, link.state, link.version⟩
    · rw [elsewhere same, SagaStore.find?_put_ne _ _ (Ne.symm same)]
      exact kept.stored key
  · obtain old | ⟨saga, key, carries, rfl⟩ := told hand mem
    · rw [past]
      exact old.later _
    · refine Hand.told_obtained link ?_ carries.symm
      rw [key, here, List.getLast?_concat]

/-- A life comes to its end. -/
theorem remove (kept : Kept k) {k' : Keepers} {key : SagaKey} (gone : k'.store.find? key = none)
    (others : ∀ other, other ≠ key → k'.store.find? other = k.store.find? other)
    (past : k'.past = k.past ++ [.removed key]) (hands : k'.hands = k.hands) : Kept k' := by
  have here : life (trail key k'.past) = [] := by
    rw [past, ← life_removed (trail key k.past) key]
    exact congrArg life (trail_concat_self k.past (.removed key))
  have elsewhere {other : SagaKey} (ne : other ≠ key) :
      trail other k'.past = trail other k.past := by
    rw [past]
    exact trail_concat_ne k.past (.removed key) (Ne.symm ne)
  refine ⟨fun other => ?_, fun other => ?_, fun hand mem => ?_⟩
  · by_cases same : other = key
    · rw [same, here]
      exact .nil
    · rw [elsewhere same]
      exact kept.chained other
  · by_cases same : other = key
    · rw [same, here, gone]
      rfl
    · rw [elsewhere same, others other same]
      exact kept.stored other
  · rw [past]
    exact (kept.told hand (hands ▸ mem)).later _

/-- Store and past stay in step whatever is done. -/
theorem step (kept : Kept k) (deed : Deed) : Kept (k.step deed) := by
  cases deed with
  | start t key state =>
      obtain ⟨_, free, made⟩ | failed := k.store.create_cases key (t.format.encode state)
      · simp only [Keepers.step, TypedSagas.start, made, Except.map]
        refine kept.write ⟨key, none, 1, t.format.encode state⟩ ?_ rfl rfl rfl
          fun hand mem => ?_
        · rw [(kept.life_eq_nil_iff key).mpr free]
          rfl
        · obtain old | rfl := List.mem_append.mp mem |>.imp_right List.mem_singleton.mp
          · exact .inl (kept.told hand old)
          · exact .inr ⟨_, rfl, rfl, rfl⟩
      · have same : ∃ f, k.store.create key (t.format.encode state) = (k.store, .error f) := by
          obtain ⟨_, failed⟩ | ⟨_, _, _, failed⟩ := failed
          · exact ⟨_, failed⟩
          · exact ⟨_, failed⟩
        obtain ⟨f, failed⟩ := same
        simp only [Keepers.step, TypedSagas.start, failed, Except.map]
        exact kept
  | load t key =>
      simp only [Keepers.step]
      split
      · rename_i saga loaded
        refine kept.keep rfl rfl fun hand mem => ?_
        obtain old | rfl := List.mem_append.mp mem |>.imp_right List.mem_singleton.mp
        · exact kept.told hand old
        · obtain ⟨r, found, version⟩ := TypedSagas.find?_of_load loaded
          obtain ⟨last, end', rfl⟩ := kept.getLast?_of_find? found
          exact Hand.told_obtained last end' version
      · exact kept
  | copy place =>
      refine kept.keep rfl rfl fun hand mem => ?_
      obtain old | copied := List.mem_append.mp mem
      · exact kept.told hand old
      · exact kept.told hand (List.mem_of_getElem? (Option.mem_toList.mp copied))
  | edit place state =>
      refine kept.keep rfl rfl fun hand mem => ?_
      obtain ⟨i, at'⟩ := List.getElem?_of_mem mem
      simp only [Keepers.step, List.getElem?_modify] at at'
      obtain ⟨old, before, rfl⟩ := Option.map_eq_some_iff.mp at'
      have told := kept.told old (List.mem_of_getElem? before)
      split
      · exact told.of_same rfl rfl rfl
      · exact told
  | save t place =>
      cases at' : k.hands[place]? with
      | none =>
          simp only [Keepers.step, at']
          exact kept
      | some hand =>
          simp only [Keepers.step, at']
          have told := kept.told hand (List.mem_of_getElem? at')
          obtain ⟨r, _, found, same, written⟩ | failed :=
            k.store.update_cases hand.saga.key (t.format.encode hand.saga.state) hand.saga.version
          · simp only [TypedSagas.save, written]
            obtain ⟨last, end', rfl⟩ := kept.getLast?_of_find? found
            refine kept.write ⟨hand.saga.key, some hand.saga.version,
              hand.saga.version + 1, t.format.encode hand.saga.state⟩ ?_ rfl rfl rfl
              fun other mem => ?_
            · rw [end', ← same]
              rfl
            · obtain old | rfl := List.mem_or_eq_of_mem_set mem
              · exact .inl (kept.told other old)
              · exact .inr ⟨{ hand.saga with version := hand.saga.version + 1 }, rfl, rfl, rfl⟩
          · have same : ∃ f, k.store.update hand.saga.key (t.format.encode hand.saga.state)
                hand.saga.version = (k.store, .error f) := by
              obtain ⟨_, failed⟩ | ⟨_, _, failed⟩ | ⟨_, _, _, _, failed⟩ := failed
              · exact ⟨_, failed⟩
              · exact ⟨_, failed⟩
              · exact ⟨_, failed⟩
            obtain ⟨f, failed⟩ := same
            simp only [TypedSagas.save, failed]
            refine kept.keep rfl rfl fun other mem => ?_
            obtain old | rfl := List.mem_or_eq_of_mem_set mem
            · exact kept.told other old
            · exact told
  | finish t key =>
      obtain ⟨s', _, deleted, gone, others⟩ | ⟨_, failed⟩ := k.store.delete_cases key
      · simp only [Keepers.step, TypedSagas.finish, deleted]
        exact kept.remove gone others rfl rfl
      · simp only [Keepers.step, TypedSagas.finish, failed]
        exact kept
  | setAvailable available => exact kept.keep rfl rfl kept.told

theorem run (kept : Kept k) (deeds : List Deed) : Kept (k.run deeds) := by
  induction deeds generalizing k with
  | nil => exact kept
  | cons deed rest ih => exact ih (kept.step deed)

end Kept

/-! ## What a version guards -/

/-- How far versions guard the sagas in a store. -/
structure Guarded (k : Keepers) : Prop where
  /-- Whatever somebody has in hand has the version of the record it was obtained from. -/
  obtained : ∀ hand ∈ k.hands, ∃ link,
    (life ((trail hand.saga.key k.past).take hand.origin)).getLast? = some link ∧
      link.version = hand.saga.version
  /-- A saga is written back if and only if its version is the number of calls that have written
  the record since it was begun. -/
  save_iff : ∀ (t : TypedSagas) (saga : Saga), (t.save k.store saga).2.2 = .ok () ↔
    k.store.available = true ∧ life (trail saga.key k.past) ≠ [] ∧
      saga.version = UInt64.ofNat (life (trail saga.key k.past)).length
  /-- If the record was not removed since the saga was obtained, that is to say that the record is
  the same one, unchanged, unless all versions there are have been used since. -/
  unchanged_iff : ∀ (t : TypedSagas), ∀ hand ∈ k.hands,
    (∀ event ∈ k.since hand, event.isRemoval = false) → (k.since hand).length < UInt64.size →
      ((t.save k.store hand.saga).2.2 = .ok () ↔ k.store.available = true ∧ k.since hand = [])
  /-- A saga that is not written back changes nothing. -/
  refused : ∀ (t : TypedSagas) (saga : Saga), (t.save k.store saga).2.2 ≠ .ok () →
    (t.save k.store saga).1 = k.store ∧ (t.save k.store saga).2.1 = saga

namespace Kept

variable {k : Keepers}

theorem save_iff (kept : Kept k) (t : TypedSagas) (saga : Saga) :
    (t.save k.store saga).2.2 = .ok () ↔
      k.store.available = true ∧ life (trail saga.key k.past) ≠ [] ∧
        saga.version = UInt64.ofNat (life (trail saga.key k.past)).length := by
  obtain ⟨r, available, found, same, written⟩ | ⟨out, failed⟩ | ⟨available, free, failed⟩ |
      ⟨r, available, found, other, failed⟩ :=
    k.store.update_cases saga.key (t.format.encode saga.state) saga.version
  · have alive : life (trail saga.key k.past) ≠ [] := by
      simp [kept.life_eq_nil_iff, found]
    rw [← kept.version_of_find? found, same]
    simp [TypedSagas.save, written, available, alive]
  · simp [TypedSagas.save, failed, out]
  · simp [TypedSagas.save, failed, (kept.life_eq_nil_iff saga.key).mpr free]
  · rw [← kept.version_of_find? found]
    simp [TypedSagas.save, failed, Ne.symm other]

/-- The life of a record that was not removed since a saga was obtained has gone on from there. -/
theorem length_life (kept : Kept k) {hand : Hand} (mem : hand ∈ k.hands)
    (unremoved : ∀ event ∈ k.since hand, event.isRemoval = false) :
    ∃ n, hand.saga.version = UInt64.ofNat (n + 1) ∧
      (life (trail hand.saga.key k.past)).length = n + 1 + (k.since hand).length := by
  obtain ⟨_, link, end', version⟩ := kept.told hand mem
  obtain ⟨front, first⟩ := List.getLast?_eq_some_iff.mp end'
  obtain ⟨links, whole, length⟩ := life_append ((trail hand.saga.key k.past).take hand.origin)
    (k.since hand) unremoved
  have parts : (trail hand.saga.key k.past).take hand.origin ++ k.since hand =
      trail hand.saga.key k.past := List.take_append_drop ..
  rw [parts, first] at whole
  refine ⟨front.length, ?_, ?_⟩
  · rw [← version]
    refine (kept.chained hand.saga.key front.length link ?_).1
    simp [whole]
  · rw [whole, List.length_append, List.length_append, length, List.length_singleton]

theorem unchanged_iff (kept : Kept k) (t : TypedSagas) {hand : Hand} (mem : hand ∈ k.hands)
    (unremoved : ∀ event ∈ k.since hand, event.isRemoval = false)
    (few : (k.since hand).length < UInt64.size) :
    (t.save k.store hand.saga).2.2 = .ok () ↔ k.store.available = true ∧ k.since hand = [] := by
  obtain ⟨n, version, length⟩ := kept.length_life mem unremoved
  have alive : life (trail hand.saga.key k.past) ≠ [] := by
    rw [← List.length_pos_iff]
    omega
  have counts : hand.saga.version = UInt64.ofNat (life (trail hand.saga.key k.past)).length ↔
      k.since hand = [] := by
    rw [version, length, ← UInt64.toNat_inj, UInt64.toNat_ofNat', UInt64.toNat_ofNat',
      ← List.length_eq_zero_iff]
    simp only [UInt64.size] at few
    omega
  rw [kept.save_iff, counts]
  exact ⟨fun ⟨available, _, same⟩ => ⟨available, same⟩,
    fun ⟨available, same⟩ => ⟨available, alive, same⟩⟩

end Kept

/-- However a store of sagas is used, a saga is written back if and only if the record has its
version. Unless the record was removed meanwhile, it is then the same record, unchanged. -/
theorem saves_guarded_by_version (deeds : List Deed) : Guarded (run {} deeds) := by
  have kept := Kept.begin.run deeds
  revert kept
  generalize run {} deeds = k
  intro kept
  constructor
  case obtained => exact fun hand mem => (kept.told hand mem).2
  case save_iff => exact kept.save_iff
  case unchanged_iff => exact fun t hand mem unremoved few => kept.unchanged_iff t mem unremoved few
  case refused =>
    intro t saga failed
    obtain ⟨_, _, _, _, written⟩ | ⟨_, written⟩ | ⟨_, _, written⟩ | ⟨_, _, _, _, written⟩ :=
      k.store.update_cases saga.key (t.format.encode saga.state) saga.version
    · exact absurd (by simp [TypedSagas.save, written]) failed
    · simp [TypedSagas.save, written]
    · simp [TypedSagas.save, written]
    · simp [TypedSagas.save, written]

/-- A saga is begun, removed, and begun again with another state. -/
def twice (t : TypedSagas) (key : SagaKey) : Keepers :=
  run {} [.start t key (.u32 1), .finish t key, .start t key (.u32 2)]

/-- What somebody still has of a saga that was removed is written over the one that was begun in
its place. -/
theorem removed_saga_overwrites :
    let t : TypedSagas := ⟨.json, .u32⟩
    let key : SagaKey := ⟨"tenant-a", "order-17"⟩
    ∃ hand ∈ (twice t key).hands,
      hand.origin = 1 ∧ ((twice t key).since hand).map (·.isRemoval) = [true, false] ∧
        t.load (twice t key).store key = .ok ⟨key, .u32 2, 1⟩ ∧
        (t.save (twice t key).store hand.saga).2.2 = .ok () ∧
        t.load (t.save (twice t key).store hand.saga).1 key = .ok ⟨key, .u32 1, 2⟩ := by
  refine ⟨⟨⟨⟨"tenant-a", "order-17"⟩, .u32 1, 1⟩, 1⟩, List.mem_cons_self, ?_⟩
  exact ⟨rfl, rfl, rfl, rfl, rfl⟩

end Keepers

end Courier
