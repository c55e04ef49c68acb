import Courier.Proofs.Lease

/-!
# Leases stand alone

Many use one store of leases: they acquire leases, they renew and release any lease they ever had,
someone breaks leases or makes the store fail, and time passes. A run of such deeds tells a
history, which knows the leases given out, renewed, given up and broken.

Whether a lease stands is read off the history, for each lease by itself: it was given out, it has
not been given up or broken since, and the term for which it was given out or last renewed has not
ended. That of all leases on one lock id at most one stands, and that it is the one that the store
has, is what `Agrees` is for. It says how store and history agree.
-/

namespace Courier

namespace LeaseStore

/-! ## Calls on other lock ids -/

theorem find?_erase (s : LeaseStore) (id : String) : (s.erase id).find? id = none := by
  simp only [find?, erase, List.lookup_eq_none_iff, List.mem_filter]
  rintro ⟨key, l⟩ ⟨_, other⟩
  exact bne_iff_ne.mpr fun same => by simp [same] at other

theorem find?_acquire_ne (s : LeaseStore) (now : Nat) {id other : String} (ne : id ≠ other)
    (period : Duration) : (s.acquire now other period).1.find? id = s.find? id := by
  obtain ⟨_, acquired⟩ | ⟨same, _⟩ := s.acquire_cases now other period
  · rw [acquired]
    exact find?_put_ne s ne _
  · rw [same]

/-- Renewing gives a lease that is live a new term, or it leaves all leases as they are. -/
theorem renew_cases (s : LeaseStore) (now : Nat) (h : LeaseHandle) :
    (∃ l, s.live? now h.lockId = some l ∧ l.serial = h.serial ∧
      s.renew now h = (s.put h.lockId { l with expiresAt := now + l.period.nanoseconds },
        .ok true)) ∨
      (s.renew now h).1.leases = s.leases ∧ (s.renew now h).1.issued = s.issued ∧
        (s.renew now h).2 ≠ .ok true ∧
        ((s.renew now h).2 = .ok false →
          ∀ l, s.live? now h.lockId = some l → l.serial ≠ h.serial) := by
  unfold renew
  split
  · exact .inr ⟨rfl, rfl, by simp, by simp⟩
  · split
    · exact .inr ⟨rfl, rfl, by simp, by simp⟩
    · split
      · rename_i l live
        split
        · rename_i own
          split
          · exact .inr ⟨rfl, rfl, by simp, by simp⟩
          · rename_i expiry fits
            obtain ⟨-, rfl⟩ := Instant.plus?_eq_some_iff.mp fits
            exact .inl ⟨l, live, own, rfl⟩
        · rename_i other
          refine .inr ⟨rfl, rfl, by simp, fun _ l' live' => ?_⟩
          obtain rfl : l = l' := Option.some.inj (live.symm.trans live')
          exact other
      · rename_i none
        exact .inr ⟨rfl, rfl, by simp, fun _ l live => by simp [none] at live⟩

theorem find?_of_leases {s s' : LeaseStore} (same : s'.leases = s.leases) (id : String) :
    s'.find? id = s.find? id := by
  rw [find?, find?, same]

theorem find?_renew_ne (s : LeaseStore) (now : Nat) {id : String} {h : LeaseHandle}
    (ne : id ≠ h.lockId) : (s.renew now h).1.find? id = s.find? id := by
  obtain ⟨l, _, _, renewed⟩ | ⟨same, _⟩ := s.renew_cases now h
  · rw [renewed]
    exact find?_put_ne s ne _
  · exact find?_of_leases same id

/-- Releasing takes away a lease that is stored, or it changes nothing. -/
theorem release_cases (s : LeaseStore) (h : LeaseHandle) :
    (∃ l, s.find? h.lockId = some l ∧ l.serial = h.serial ∧
      s.release h = (s.erase h.lockId, .ok ())) ∨
      (s.release h).1 = s ∧
        ((s.release h).2 = .ok () → ∀ l, s.find? h.lockId = some l → l.serial ≠ h.serial) := by
  unfold release
  split
  · exact .inr ⟨rfl, nofun⟩
  · split
    · rename_i l found
      split
      · rename_i own
        exact .inl ⟨l, found, own, rfl⟩
      · rename_i other
        refine .inr ⟨rfl, fun _ l' found' => ?_⟩
        obtain rfl : l = l' := Option.some.inj (found.symm.trans found')
        exact other
    · rename_i none
      exact .inr ⟨rfl, fun _ l found => by simp [none] at found⟩

theorem find?_release_ne (s : LeaseStore) {id : String} {h : LeaseHandle} (ne : id ≠ h.lockId) :
    (s.release h).1.find? id = s.find? id := by
  obtain ⟨l, _, _, released⟩ | ⟨same, _⟩ := s.release_cases h
  · rw [released]
    exact find?_erase_ne s ne
  · rw [same]

end LeaseStore

theorem LeaseHandle.eq_of {a b : LeaseHandle} (lockId : a.lockId = b.lockId)
    (serial : a.serial = b.serial) : a = b := by
  obtain ⟨_, _⟩ := a
  obtain ⟨_, _⟩ := b
  exact LeaseHandle.mk.injEq .. |>.mpr ⟨lockId, serial⟩

/-! ## Stores in use -/

/-- A store of leases in use, and the time. -/
structure Tenancy where
  store : LeaseStore := {}
  now : Nat := 0

namespace Tenancy

/-- What those who use a store of leases do, and the passing of time. -/
inductive Deed where
  | acquire (lockId : String) (period : Duration)
  | renew (lease : LeaseHandle)
  | release (lease : LeaseHandle)
  | revoke (lockId : String)
  | failNextRenewals (count : Nat)
  | setAvailable (available : Bool)
  | pass (nanoseconds : Nat)

/-- What a history tells of leases. -/
inductive Record where
  | granted (time : Nat) (lease : LeaseHandle) (period : Duration)
  | renewed (time : Nat) (lease : LeaseHandle)
  /-- Its holder has given a lease up. -/
  | released (lease : LeaseHandle)
  /-- Whatever lease there was on a lock id has been broken. -/
  | revoked (lockId : String)

/-- A deed, and what a history tells of it. -/
def step (s : Tenancy) : Deed → Tenancy × List Record
  | .acquire lockId period =>
    let (store, answer) := s.store.acquire s.now lockId period
    ({ s with store := store },
      match answer with
      | .ok (some lease) => [.granted s.now lease period]
      | _ => [])
  | .renew lease =>
    let (store, answer) := s.store.renew s.now lease
    ({ s with store := store },
      match answer with
      | .ok true => [.renewed s.now lease]
      | _ => [])
  | .release lease =>
    let (store, answer) := s.store.release lease
    ({ s with store := store },
      match answer with
      | .ok () => [.released lease]
      | .error _ => [])
  | .revoke lockId => ({ s with store := s.store.revoke lockId }, [.revoked lockId])
  | .failNextRenewals count => ({ s with store := s.store.failNextRenewals count }, [])
  | .setAvailable available => ({ s with store := s.store.setAvailable available }, [])
  | .pass n => ({ s with now := s.now + n }, [])

/-- Deeds one after the other, and their history. -/
def run (s : Tenancy) : List Deed → Tenancy × List Record
  | [] => (s, [])
  | deed :: rest =>
    let (s', h) := s.step deed
    let (s'', h') := s'.run rest
    (s'', h ++ h')

/-! ## What stands by a history -/

/-- For how long a lease was given out, and when it ends. -/
structure Term where
  period : Duration
  limit : Nat

/-- What becomes of the term of a lease. Only what was done with that lease counts, and the
breaking of leases on its lock id. -/
def Record.term (lease : LeaseHandle) (term : Option Term) : Record → Option Term
  | .granted time other period =>
    if other = lease then some ⟨period, time + period.nanoseconds⟩ else term
  | .renewed time other =>
    if other = lease then term.map fun t => { t with limit := time + t.period.nanoseconds }
    else term
  | .released other => if other = lease then none else term
  | .revoked lockId => if lockId = lease.lockId then none else term

/-- The term of a lease after a history; none for a lease that was not given out, or has been given
up or broken. -/
def term? (h : List Record) (lease : LeaseHandle) : Option Term := h.foldl (Record.term lease) none

/-- A lease stands as long as its term has not ended. -/
def Stands (h : List Record) (now : Nat) (lease : LeaseHandle) : Prop :=
  ∃ t, term? h lease = some t ∧ now < t.limit

@[simp] theorem term?_nil (lease : LeaseHandle) : term? [] lease = none := rfl

@[simp] theorem term?_concat (h : List Record) (r : Record) (lease : LeaseHandle) :
    term? (h ++ [r]) lease = r.term lease (term? h lease) := by
  simp [term?]

/-! ## Store and history -/

/-- A store has what its history tells. The leases that it has are those that have a term, and a
lease with a term that it does not have any more has run out. -/
structure Agrees (s : Tenancy) (h : List Record) : Prop where
  stored : ∀ id l, s.store.find? id = some l →
    term? h ⟨id, l.serial⟩ = some ⟨l.period, l.expiresAt⟩
  kept : ∀ lease t, term? h lease = some t →
    (∃ l, s.store.find? lease.lockId = some l ∧ l.serial = lease.serial) ∨ t.limit ≤ s.now
  issued : ∀ lease t, term? h lease = some t → lease.serial ≤ s.store.issued
  granted : ∀ lease t, term? h lease = some t → ∃ time, .granted time lease t.period ∈ h
  once : ∀ time lease period, .granted time lease period ∈ h →
    lease.serial ≤ s.store.issued ∧ ∀ t, term? h lease = some t → t.period = period

namespace Agrees

variable {s : Tenancy} {h : List Record}

/-- A lease stands if and only if it is the live one on its lock id. -/
theorem stands_iff (agrees : Agrees s h) (lease : LeaseHandle) :
    Stands h s.now lease ↔
      ∃ l, s.store.live? s.now lease.lockId = some l ∧ l.serial = lease.serial := by
  constructor
  · rintro ⟨t, term, lasts⟩
    obtain ⟨l, found, own⟩ | lapsed := agrees.kept lease t term
    · have same := agrees.stored lease.lockId l found
      rw [own, term, Option.some.injEq] at same
      subst same
      exact ⟨l, LeaseStore.live?_eq_some.mpr ⟨found, lasts⟩, own⟩
    · omega
  · rintro ⟨l, live, own⟩
    obtain ⟨found, lasts⟩ := LeaseStore.live?_eq_some.mp live
    exact ⟨_, own ▸ agrees.stored lease.lockId l found, lasts⟩

/-- On one lock id at most one lease stands. -/
theorem unique (agrees : Agrees s h) {a b : LeaseHandle} (ha : Stands h s.now a)
    (hb : Stands h s.now b) (same : a.lockId = b.lockId) : a = b := by
  obtain ⟨l, live, own⟩ := (agrees.stands_iff a).mp ha
  obtain ⟨l', live', own'⟩ := (agrees.stands_iff b).mp hb
  rw [same] at live
  obtain rfl : l = l' := Option.some.inj (live.symm.trans live')
  exact LeaseHandle.eq_of same (own.symm.trans own')

/-- No lease is live on a lock id if and only if none stands there. -/
theorem live?_eq_none (agrees : Agrees s h) (id : String) :
    s.store.live? s.now id = none ↔ ∀ a : LeaseHandle, a.lockId = id → ¬Stands h s.now a := by
  constructor
  · rintro free a rfl stands
    obtain ⟨l, live, _⟩ := (agrees.stands_iff a).mp stands
    simp [free] at live
  · intro free
    cases live : s.store.live? s.now id with
    | none => rfl
    | some l => exact absurd ((agrees.stands_iff ⟨id, l.serial⟩).mpr ⟨l, live, rfl⟩) (free _ rfl)

/-! ## Deeds -/

theorem begin (now : Nat) : Agrees { now := now } [] where
  stored id l found := by simp [LeaseStore.find?] at found
  kept lease t term := by simp at term
  issued lease t term := by simp at term
  granted lease t term := by simp at term
  once time lease period mem := by simp at mem

/-- Nothing happens to leases, and time may pass. -/
theorem still (agrees : Agrees s h) {s' : Tenancy} (leases : s'.store.leases = s.store.leases)
    (issued : s'.store.issued = s.store.issued) (later : s.now ≤ s'.now) : Agrees s' h where
  stored id l found := agrees.stored id l (by rwa [LeaseStore.find?_of_leases leases] at found)
  kept lease t term := by
    rw [LeaseStore.find?_of_leases leases]
    exact (agrees.kept lease t term).imp_right fun lapsed => Nat.le_trans lapsed later
  issued lease t term := issued ▸ agrees.issued lease t term
  granted := agrees.granted
  once time lease period mem := issued ▸ agrees.once time lease period mem

/-- A lease is given out on a lock id where none is live. -/
theorem grant (agrees : Agrees s h) {id : String} (free : s.store.live? s.now id = none)
    (period : Duration) :
    let serial := s.store.issued + 1
    Agrees { s with store :=
        { s.store.put id ⟨serial, period, s.now + period.nanoseconds⟩ with issued := serial } }
      (h ++ [.granted s.now ⟨id, serial⟩ period]) := by
  intro serial
  have fresh {lease : LeaseHandle} {t : Term} (term : term? h lease = some t) :
      (⟨id, serial⟩ : LeaseHandle) ≠ lease := by
    rintro rfl
    exact Nat.not_succ_le_self _ (agrees.issued _ t term)
  have before {lease : LeaseHandle} {t : Term}
      (term : term? (h ++ [.granted s.now ⟨id, serial⟩ period]) lease = some t) :
      lease = ⟨id, serial⟩ ∧ t = ⟨period, s.now + period.nanoseconds⟩ ∨
        term? h lease = some t := by
    rw [term?_concat, Record.term] at term
    split at term
    · rename_i same
      exact .inl ⟨same.symm, (Option.some.inj term).symm⟩
    · exact .inr term
  refine ⟨?stored, ?kept, ?issued, ?granted, ?once⟩
  case stored =>
    intro id' l found
    by_cases here : id' = id
    · subst here
      obtain rfl : _ = l := Option.some.inj ((LeaseStore.find?_put ..).symm.trans found)
      simp [Record.term]
    · have old := agrees.stored id' l ((LeaseStore.find?_put_ne s.store here _).symm.trans found)
      rw [term?_concat, Record.term, if_neg (fresh old)]
      exact old
  case kept =>
    intro lease t term
    obtain ⟨rfl, rfl⟩ | old := before term
    · exact .inl ⟨_, LeaseStore.find?_put .., rfl⟩
    · by_cases here : lease.lockId = id
      · -- what the store had there has run out
        refine .inr ((agrees.kept lease t old).elim (fun ⟨l, found, own⟩ => ?_)
          fun lapsed => lapsed)
        have same := agrees.stored _ l found
        rw [own, old, Option.some.injEq] at same
        subst same
        refine Nat.le_of_not_lt fun lasts => ?_
        have live := LeaseStore.live?_eq_some.mpr ⟨found, lasts⟩
        rw [here, free] at live
        simp at live
      · exact (agrees.kept lease t old).imp_left fun ⟨l, found, own⟩ =>
          ⟨l, (LeaseStore.find?_put_ne s.store here _).trans found, own⟩
  case issued =>
    intro lease t term
    obtain ⟨rfl, _⟩ | old := before term
    · exact Nat.le_refl _
    · exact Nat.le_succ_of_le (agrees.issued lease t old)
  case granted =>
    intro lease t term
    obtain ⟨rfl, rfl⟩ | old := before term
    · exact ⟨s.now, by simp⟩
    · obtain ⟨time, mem⟩ := agrees.granted lease t old
      exact ⟨time, List.mem_append_left _ mem⟩
  case once =>
    intro time lease period' mem
    obtain mem | mem := List.mem_append.mp mem
    · obtain ⟨known, period⟩ := agrees.once time lease period' mem
      refine ⟨Nat.le_succ_of_le known, fun t term => ?_⟩
      obtain ⟨rfl, _⟩ | old := before term
      · exact absurd known (Nat.not_succ_le_self _)
      · exact period t old
    · obtain ⟨rfl, rfl, rfl⟩ := Record.granted.inj (List.mem_singleton.mp mem)
      refine ⟨Nat.le_refl _, fun t term => ?_⟩
      obtain ⟨_, rfl⟩ | old := before term
      · rfl
      · exact absurd rfl (fresh old)

/-- The live lease on a lock id gets a new term. -/
theorem prolong (agrees : Agrees s h) {lease : LeaseHandle} {l : Lease}
    (live : s.store.live? s.now lease.lockId = some l) (own : l.serial = lease.serial) :
    let prolonged := { l with expiresAt := s.now + l.period.nanoseconds }
    Agrees { s with store := s.store.put lease.lockId prolonged }
      (h ++ [.renewed s.now lease]) := by
  intro prolonged
  have found := (LeaseStore.live?_eq_some.mp live).1
  have mine : term? h lease = some ⟨l.period, l.expiresAt⟩ := by
    have stored := agrees.stored _ l found
    rwa [own] at stored
  have renewed : term? (h ++ [.renewed s.now lease]) lease =
      some ⟨l.period, s.now + l.period.nanoseconds⟩ := by
    simp [Record.term, mine]
  have others {other : LeaseHandle} (ne : lease ≠ other) :
      term? (h ++ [.renewed s.now lease]) other = term? h other := by
    simp [Record.term, ne]
  refine ⟨?stored, ?kept, ?issued, ?granted, ?once⟩
  case stored =>
    intro id' l' found'
    by_cases here : id' = lease.lockId
    · subst here
      obtain rfl : _ = l' := Option.some.inj ((LeaseStore.find?_put ..).symm.trans found')
      exact own ▸ renewed
    · have ne : lease ≠ ⟨id', l'.serial⟩ := fun same => here (same ▸ rfl)
      rw [others ne]
      exact agrees.stored id' l' ((LeaseStore.find?_put_ne s.store here _).symm.trans found')
  case kept =>
    intro other t term
    by_cases same : lease = other
    · subst same
      exact .inl ⟨_, LeaseStore.find?_put .., own⟩
    · rw [others same] at term
      refine (agrees.kept other t term).imp_left fun ⟨l', found', own'⟩ => ?_
      by_cases here : other.lockId = lease.lockId
      · rw [here, found, Option.some.injEq] at found'
        subst found'
        exact ⟨prolonged, by simp [here], own'⟩
      · exact ⟨l', (LeaseStore.find?_put_ne s.store here _).trans found', own'⟩
  case issued =>
    intro other t term
    by_cases same : lease = other
    · exact same ▸ agrees.issued lease _ mine
    · exact agrees.issued other t (others same ▸ term)
  case granted =>
    intro other t term
    have known : ∃ time, .granted time other t.period ∈ h := by
      by_cases same : lease = other
      · subst same
        rw [renewed, Option.some.injEq] at term
        subst term
        exact agrees.granted lease ⟨l.period, l.expiresAt⟩ mine
      · exact agrees.granted other t (others same ▸ term)
    obtain ⟨time, mem⟩ := known
    exact ⟨time, List.mem_append_left _ mem⟩
  case once =>
    intro time other period mem
    have mem : .granted time other period ∈ h := by simpa using mem
    refine ⟨(agrees.once time other period mem).1, fun t term => ?_⟩
    by_cases same : lease = other
    · subst same
      rw [renewed, Option.some.injEq] at term
      subst term
      exact (agrees.once time lease period mem).2 ⟨l.period, l.expiresAt⟩ mine
    · exact (agrees.once time other period mem).2 t (others same ▸ term)

/-- Some leases lose their terms, and the store does not have them any more. -/
theorem lose (agrees : Agrees s h) {store : LeaseStore} {r : Record}
    (quiet : ∀ time lease period, r ≠ .granted time lease period)
    (issued : store.issued = s.store.issued)
    (lost : ∀ lease t, term? (h ++ [r]) lease = some t → term? h lease = some t)
    (stored : ∀ id l, store.find? id = some l → s.store.find? id = some l ∧
      term? (h ++ [r]) ⟨id, l.serial⟩ = term? h ⟨id, l.serial⟩)
    (kept : ∀ lease t l, term? (h ++ [r]) lease = some t →
      s.store.find? lease.lockId = some l → l.serial = lease.serial →
      store.find? lease.lockId = some l) :
    Agrees { s with store := store } (h ++ [r]) where
  stored id l found := by
    obtain ⟨old, same⟩ := stored id l found
    rw [same]
    exact agrees.stored id l old
  kept lease t term :=
    (agrees.kept lease t (lost lease t term)).imp_left fun ⟨l, found, own⟩ =>
      ⟨l, kept lease t l term found own, own⟩
  issued lease t term := issued ▸ agrees.issued lease t (lost lease t term)
  granted lease t term := by
    obtain ⟨time, mem⟩ := agrees.granted lease t (lost lease t term)
    exact ⟨time, List.mem_append_left _ mem⟩
  once time lease period mem := by
    obtain mem | mem := List.mem_append.mp mem
    · obtain ⟨known, same⟩ := agrees.once time lease period mem
      exact ⟨issued ▸ known, fun t term => same t (lost lease t term)⟩
    · exact absurd (List.mem_singleton.mp mem).symm (quiet time lease period)

/-- A lease is given up. -/
theorem giveUp (agrees : Agrees s h) {lease : LeaseHandle}
    (released : (s.store.release lease).2 = .ok ()) :
    Agrees { s with store := (s.store.release lease).1 } (h ++ [.released lease]) := by
  have term {other : LeaseHandle} : term? (h ++ [.released lease]) other =
      if lease = other then none else term? h other := by
    rw [term?_concat, Record.term]
  have lost (other : LeaseHandle) (t : Term)
      (has : term? (h ++ [.released lease]) other = some t) :
      lease ≠ other ∧ term? h other = some t := by
    rwa [term, Option.ite_none_left_eq_some] at has
  obtain ⟨l, found, own, erased⟩ | ⟨same, other⟩ := s.store.release_cases lease
  · rw [erased]
    refine agrees.lose nofun rfl (fun other t has => (lost other t has).2) ?_ ?_
    · intro id l' found'
      have ne : id ≠ lease.lockId := by
        rintro rfl
        simp [LeaseStore.find?_erase] at found'
      refine ⟨(LeaseStore.find?_erase_ne s.store ne).symm.trans found', ?_⟩
      rw [term, if_neg fun same => ne (congrArg LeaseHandle.lockId same).symm]
    · intro other t l' has found' own'
      have ne : other.lockId ≠ lease.lockId := by
        intro here
        rw [here, found, Option.some.injEq] at found'
        subst found'
        exact (lost _ t has).1 (LeaseHandle.eq_of here.symm (own.symm.trans own'))
      exact (LeaseStore.find?_erase_ne s.store ne).trans found'
  · rw [same]
    refine agrees.lose nofun rfl (fun other t has => (lost other t has).2) ?_ ?_
    · intro id l found
      refine ⟨found, ?_⟩
      rw [term, if_neg]
      rintro rfl
      exact other released l found rfl
    · intro _ _ _ _ found _
      exact found

/-- The leases on a lock id are broken. -/
theorem break' (agrees : Agrees s h) (id : String) :
    Agrees { s with store := s.store.revoke id } (h ++ [.revoked id]) := by
  have term {other : LeaseHandle} : term? (h ++ [.revoked id]) other =
      if id = other.lockId then none else term? h other := by
    rw [term?_concat, Record.term]
  have lost (other : LeaseHandle) (t : Term) (has : term? (h ++ [.revoked id]) other = some t) :
      id ≠ other.lockId ∧ term? h other = some t := by
    rwa [term, Option.ite_none_left_eq_some] at has
  refine agrees.lose nofun rfl (fun other t has => (lost other t has).2) ?_ ?_
  · intro id' l found
    have ne : id' ≠ id := by
      rintro rfl
      simp [LeaseStore.revoke, LeaseStore.find?_erase] at found
    refine ⟨(LeaseStore.find?_erase_ne s.store ne).symm.trans found, ?_⟩
    rw [term, if_neg (Ne.symm ne)]
  · intro other t l has found _
    exact (LeaseStore.find?_erase_ne s.store (Ne.symm (lost other t has).1)).trans found

/-- Store and history agree whatever is done. -/
theorem step (agrees : Agrees s h) (deed : Deed) :
    Agrees (s.step deed).1 (h ++ (s.step deed).2) := by
  have quiet : h ++ [] = h := List.append_nil h
  cases deed with
  | acquire id period =>
      simp only [Tenancy.step]
      obtain ⟨free, acquired⟩ | ⟨same, none⟩ := s.store.acquire_cases s.now id period
      · rw [acquired]
        exact agrees.grant free period
      · have told : (match (s.store.acquire s.now id period).2 with
            | .ok (some lease) => [Record.granted s.now lease period]
            | _ => []) = [] := by
          split
          · rename_i lease answer
            exact absurd answer (none lease)
          · rfl
        rw [told, quiet]
        exact agrees.still (by rw [same]) (by rw [same]) (Nat.le_refl _)
  | renew lease =>
      simp only [Tenancy.step]
      obtain ⟨l, live, own, renewed⟩ | ⟨leases, issued, failed, _⟩ :=
        s.store.renew_cases s.now lease
      · rw [renewed]
        exact agrees.prolong live own
      · have told : (match (s.store.renew s.now lease).2 with
            | .ok true => [Record.renewed s.now lease]
            | _ => []) = [] := by
          split
          · rename_i answer
            exact absurd answer failed
          · rfl
        rw [told, quiet]
        exact agrees.still leases issued (Nat.le_refl _)
  | release lease =>
      simp only [Tenancy.step]
      cases answer : (s.store.release lease).2 with
      | ok _ => exact agrees.giveUp answer
      | error f =>
          obtain ⟨_, _, _, released⟩ | ⟨same, _⟩ := s.store.release_cases lease
          · simp [released] at answer
          · rw [quiet]
            exact agrees.still (by rw [same]) (by rw [same]) (Nat.le_refl _)
  | revoke id => exact agrees.break' id
  | failNextRenewals count =>
      simp only [Tenancy.step, quiet]
      exact agrees.still rfl rfl (Nat.le_refl _)
  | setAvailable available =>
      simp only [Tenancy.step, quiet]
      exact agrees.still rfl rfl (Nat.le_refl _)
  | pass n =>
      simp only [Tenancy.step, quiet]
      exact agrees.still rfl rfl (Nat.le_add_right _ _)

theorem run (agrees : Agrees s h) (deeds : List Deed) :
    Agrees (s.run deeds).1 (h ++ (s.run deeds).2) := by
  induction deeds generalizing s h with
  | nil => simpa [Tenancy.run] using agrees
  | cons deed rest ih =>
      have after := ih (agrees.step deed)
      rwa [List.append_assoc] at after

end Agrees

/-! ## What is true after every run -/

/-- Leases exclude each other, as a store and its history have it. -/
structure Exclusive (s : Tenancy) (h : List Record) : Prop where
  /-- On one lock id at most one lease stands. -/
  one : ∀ a b : LeaseHandle, a.lockId = b.lockId → Stands h s.now a → Stands h s.now b → a = b
  /-- The lease that stands on a lock id is the one that the store calls its holder. -/
  holder : ∀ a : LeaseHandle, Stands h s.now a ↔ s.store.holder? s.now a.lockId = some a.serial
  /-- A lease is given out if and only if none stands and it would not end past the last instant.
  It is a new one, and it stands if its period is not empty. Where it would, the call breaks off. -/
  acquire : s.store.available = true → ∀ id period,
    ((∃ a, (s.store.acquire s.now id period).2 = .ok (some a)) ↔
        (∀ b : LeaseHandle, b.lockId = id → ¬Stands h s.now b) ∧
          s.now + period.nanoseconds ≤ Instant.last) ∧
      ((s.store.acquire s.now id period).2 = .ok none ↔
        ∃ b : LeaseHandle, b.lockId = id ∧ Stands h s.now b) ∧
      (∀ f, (s.store.acquire s.now id period).2 = .error f ↔ f = .overflow .instant ∧
        (∀ b : LeaseHandle, b.lockId = id → ¬Stands h s.now b) ∧
          Instant.last < s.now + period.nanoseconds) ∧
      ∀ a, (s.store.acquire s.now id period).2 = .ok (some a) →
        a.lockId = id ∧ (∀ time period', .granted time a period' ∉ h) ∧
          (s.store.acquire s.now id period).1.find? id =
            some ⟨a.serial, period, s.now + period.nanoseconds⟩
  /-- A lease is renewed if and only if it is stored and has not run out, which is to say that
  it stands. -/
  renew : ∀ a b, (s.store.renew s.now a).2 = .ok b →
    (b = true ↔ ∃ l, s.store.find? a.lockId = some l ∧ l.serial = a.serial ∧
      s.now < l.expiresAt) ∧ (b = true ↔ Stands h s.now a)
  /-- From then on it is live for the period for which it was given out. -/
  renewed : ∀ a, (s.store.renew s.now a).2 = .ok true → ∃ time period, .granted time a period ∈ h ∧
    (∀ time' period', .granted time' a period' ∈ h → period' = period) ∧
      (s.store.renew s.now a).1.find? a.lockId =
        some ⟨a.serial, period, s.now + period.nanoseconds⟩
  /-- A store that fails no renewal renews each lease that stands, unless it would then end past
  the last instant. -/
  prolong : s.store.available = true → s.store.failingRenewals = 0 →
    ∀ time a period, .granted time a period ∈ h →
      ((s.store.renew s.now a).2 = .ok true ↔
        Stands h s.now a ∧ s.now + period.nanoseconds ≤ Instant.last) ∧
      ((s.store.renew s.now a).2 = .ok false ↔ ¬Stands h s.now a) ∧
      ∀ f, (s.store.renew s.now a).2 = .error f ↔ f = .overflow .instant ∧
        Stands h s.now a ∧ Instant.last < s.now + period.nanoseconds
  /-- A lease is not changed with any other lease in hand. -/
  others : ∀ a id l, s.store.find? id = some l → (a.lockId = id → a.serial ≠ l.serial) →
    (s.store.renew s.now a).1.find? id = some l ∧ (s.store.release a).1.find? id = some l
  /-- With one that does not stand, no lease is renewed and none that is live is given up. -/
  stale : ∀ a, ¬Stands h s.now a → (s.store.renew s.now a).1.leases = s.store.leases ∧
    ∀ id, (s.store.release a).1.live? s.now id = s.store.live? s.now id
  /-- What is done on one lock id does not change the lease on another. -/
  apart : ∀ id other, id ≠ other →
    (∀ period, (s.store.acquire s.now other period).1.find? id = s.store.find? id) ∧
      (∀ a : LeaseHandle, a.lockId = other →
        (s.store.renew s.now a).1.find? id = s.store.find? id ∧
          (s.store.release a).1.find? id = s.store.find? id) ∧
      (s.store.revoke other).find? id = s.store.find? id
  /-- A call that fails or breaks off changes no lease. -/
  failed :
    (∀ id period f, (s.store.acquire s.now id period).2 = .error f →
      (s.store.acquire s.now id period).1.leases = s.store.leases) ∧
      (∀ a f, (s.store.renew s.now a).2 = .error f →
        (s.store.renew s.now a).1.leases = s.store.leases) ∧
      ∀ a f, (s.store.release a).2 = .error f → (s.store.release a).1.leases = s.store.leases

namespace Agrees

variable {s : Tenancy} {h : List Record}

theorem holder (agrees : Agrees s h) (a : LeaseHandle) :
    Stands h s.now a ↔ s.store.holder? s.now a.lockId = some a.serial := by
  rw [agrees.stands_iff, LeaseStore.holder?, Option.map_eq_some_iff]

/-- What acquiring answers on a store that is available. -/
theorem acquire (agrees : Agrees s h) (available : s.store.available = true) (id : String)
    (period : Duration) :
    ((∃ a, (s.store.acquire s.now id period).2 = .ok (some a)) ↔
        (∀ b : LeaseHandle, b.lockId = id → ¬Stands h s.now b) ∧
          s.now + period.nanoseconds ≤ Instant.last) ∧
      ((s.store.acquire s.now id period).2 = .ok none ↔
        ∃ b : LeaseHandle, b.lockId = id ∧ Stands h s.now b) ∧
      (∀ f, (s.store.acquire s.now id period).2 = .error f ↔ f = .overflow .instant ∧
        (∀ b : LeaseHandle, b.lockId = id → ¬Stands h s.now b) ∧
          Instant.last < s.now + period.nanoseconds) ∧
      ∀ a, (s.store.acquire s.now id period).2 = .ok (some a) →
        a.lockId = id ∧ (∀ time period', .granted time a period' ∉ h) ∧
          (s.store.acquire s.now id period).1.find? id =
            some ⟨a.serial, period, s.now + period.nanoseconds⟩ := by
  cases live : s.store.live? s.now id with
  | none =>
      have free := (agrees.live?_eq_none id).mp live
      have none : ¬∃ b : LeaseHandle, b.lockId = id ∧ Stands h s.now b := by
        rintro ⟨b, on, stands⟩
        exact free b on stands
      cases fits : Instant.plus? s.now period with
      | none =>
          have past := Instant.plus?_eq_none_iff.mp fits
          have broken : s.store.acquire s.now id period =
              (s.store, .error (.overflow .instant)) := by
            simp [LeaseStore.acquire, available, live, fits]
          rw [broken]
          refine ⟨iff_of_false (by simp) fun can => Nat.not_le_of_lt past can.2,
            iff_of_false (by simp) none, fun f => ⟨?_, ?_⟩, by simp⟩
          · rintro ⟨⟩
            exact ⟨rfl, free, past⟩
          · rintro ⟨rfl, _⟩
            rfl
      | some expiry =>
          obtain ⟨before, rfl⟩ := Instant.plus?_eq_some_iff.mp fits
          have acquired : s.store.acquire s.now id period =
              ({ s.store.put id ⟨s.store.issued + 1, period, s.now + period.nanoseconds⟩ with
                issued := s.store.issued + 1 }, .ok (some ⟨id, s.store.issued + 1⟩)) := by
            simp [LeaseStore.acquire, available, live, fits]
          rw [acquired]
          refine ⟨iff_of_true ⟨_, rfl⟩ ⟨free, before⟩, iff_of_false (by simp) none,
            fun f => iff_of_false (by simp) fun why => Nat.not_lt_of_le before why.2.2, ?_⟩
          rintro a ⟨rfl⟩
          refine ⟨rfl, fun time period' mem => ?_, LeaseStore.find?_put ..⟩
          exact Nat.not_succ_le_self _ (agrees.once time _ period' mem).1
  | some l =>
      have stands : Stands h s.now ⟨id, l.serial⟩ := (agrees.stands_iff _).mpr ⟨l, live, rfl⟩
      have refused : s.store.acquire s.now id period = (s.store, .ok none) := by
        simp [LeaseStore.acquire, available, live]
      rw [refused]
      exact ⟨iff_of_false (by simp) fun can => can.1 _ rfl stands,
        iff_of_true rfl ⟨_, rfl, stands⟩,
        fun f => iff_of_false (by simp) fun why => why.2.1 _ rfl stands, by simp⟩

/-- What renewing answers, unless it fails. -/
theorem renew (agrees : Agrees s h) {a : LeaseHandle} {b : Bool}
    (answer : (s.store.renew s.now a).2 = .ok b) : b = true ↔ Stands h s.now a := by
  rw [agrees.stands_iff]
  obtain ⟨l, live, own, renewed⟩ | ⟨_, _, failed, other⟩ := s.store.renew_cases s.now a
  · obtain rfl : true = b := by simpa [renewed] using answer
    exact ⟨fun _ => ⟨l, live, own⟩, fun _ => rfl⟩
  · constructor
    · rintro rfl
      exact absurd answer failed
    · rintro ⟨l, live, own⟩
      cases b with
      | true => rfl
      | false => exact absurd own (other answer l live)

/-- A lease that is renewed is live for its period from now. -/
theorem renewed (agrees : Agrees s h) {a : LeaseHandle}
    (answer : (s.store.renew s.now a).2 = .ok true) :
    ∃ time period, .granted time a period ∈ h ∧
      (∀ time' period', .granted time' a period' ∈ h → period' = period) ∧
        (s.store.renew s.now a).1.find? a.lockId =
          some ⟨a.serial, period, s.now + period.nanoseconds⟩ := by
  obtain ⟨l, live, own, renewed⟩ | ⟨_, _, failed, _⟩ := s.store.renew_cases s.now a
  · have term := agrees.stored _ l (LeaseStore.live?_eq_some.mp live).1
    rw [own] at term
    obtain ⟨time, mem⟩ := agrees.granted a _ term
    refine ⟨time, l.period, mem, fun time' period' mem' => ?_, ?_⟩
    · exact ((agrees.once time' a period' mem').2 _ term).symm
    · rw [renewed, ← own]
      exact LeaseStore.find?_put ..
  · exact absurd answer failed

/-- What renewing answers on a store that is available and fails no renewal. -/
theorem prolongs (agrees : Agrees s h) (available : s.store.available = true)
    (failing : s.store.failingRenewals = 0) {time : Nat} {a : LeaseHandle} {period : Duration}
    (granted : .granted time a period ∈ h) :
    ((s.store.renew s.now a).2 = .ok true ↔
        Stands h s.now a ∧ s.now + period.nanoseconds ≤ Instant.last) ∧
      ((s.store.renew s.now a).2 = .ok false ↔ ¬Stands h s.now a) ∧
      ∀ f, (s.store.renew s.now a).2 = .error f ↔ f = .overflow .instant ∧
        Stands h s.now a ∧ Instant.last < s.now + period.nanoseconds := by
  by_cases stands : Stands h s.now a
  · obtain ⟨l, live, own⟩ := (agrees.stands_iff a).mp stands
    obtain rfl : l.period = period := by
      have term := agrees.stored _ l (LeaseStore.live?_eq_some.mp live).1
      rw [own] at term
      exact (agrees.once time a period granted).2 _ term
    rw [LeaseStore.renew_live live available failing rfl own.symm]
    by_cases fits : s.now + l.period.nanoseconds ≤ Instant.last
    · rw [if_pos fits]
      exact ⟨iff_of_true rfl ⟨stands, fits⟩, iff_of_false (by simp) (not_not_intro stands),
        fun f => iff_of_false (by simp) fun why => Nat.not_lt_of_le fits why.2.2⟩
    · rw [if_neg fits]
      refine ⟨iff_of_false (by simp) fun both => fits both.2,
        iff_of_false (by simp) (not_not_intro stands), fun f => ⟨?_, ?_⟩⟩
      · rintro ⟨⟩
        exact ⟨rfl, stands, Nat.lt_of_not_le fits⟩
      · rintro ⟨rfl, _⟩
        rfl
  · have refused : (s.store.renew s.now a).2 = .ok false := by
      have other (l : Lease) (live : s.store.live? s.now a.lockId = some l) :
          l.serial ≠ a.serial :=
        fun own => stands ((agrees.stands_iff a).mpr ⟨l, live, own⟩)
      cases live : s.store.live? s.now a.lockId with
      | none => simp [LeaseStore.renew, available, failing, live]
      | some l => simp [LeaseStore.renew, available, failing, live, other l live]
    rw [refused]
    exact ⟨iff_of_false (by simp) fun both => stands both.1, iff_of_true rfl stands,
      fun f => iff_of_false (by simp) fun why => stands why.2.1⟩

/-- With a lease that does not stand, nothing live is taken away. -/
theorem stale (agrees : Agrees s h) {a : LeaseHandle} (lapsed : ¬Stands h s.now a) :
    (s.store.renew s.now a).1.leases = s.store.leases ∧
      ∀ id, (s.store.release a).1.live? s.now id = s.store.live? s.now id := by
  constructor
  · obtain ⟨l, live, own, _⟩ | ⟨same, _⟩ := s.store.renew_cases s.now a
    · exact absurd ((agrees.stands_iff a).mpr ⟨l, live, own⟩) lapsed
    · exact same
  · intro id
    obtain ⟨l, found, own, released⟩ | ⟨same, _⟩ := s.store.release_cases a
    · rw [released]
      by_cases here : id = a.lockId
      · subst here
        have gone : (s.store.erase a.lockId).live? s.now a.lockId = none := by
          rw [LeaseStore.live?, LeaseStore.find?_erase, Option.filter_none]
        have none : s.store.live? s.now a.lockId = none := by
          cases live : s.store.live? s.now a.lockId with
          | none => rfl
          | some l' =>
              have found' := (LeaseStore.live?_eq_some.mp live).1
              obtain rfl : l = l' := Option.some.inj (found.symm.trans found')
              exact absurd ((agrees.stands_iff a).mpr ⟨l, live, own⟩) lapsed
        rw [gone, none]
      · rw [LeaseStore.live?, LeaseStore.live?, LeaseStore.find?_erase_ne _ here]
    · rw [same]

end Agrees

/-- However a store of leases is used, leases exclude each other at every instant. A lease that is
not to be had is held by someone, or it would end past the last instant. -/
theorem leases_exclusive (now : Nat) (deeds : List Deed) :
    Exclusive (run { now := now } deeds).1 (run { now := now } deeds).2 := by
  have agrees := (Agrees.begin now).run deeds
  rw [List.nil_append] at agrees
  revert agrees
  generalize run { now := now } deeds = after
  obtain ⟨s, h⟩ := after
  intro agrees
  constructor
  case one => exact fun a b same ha hb => agrees.unique ha hb same
  case holder => exact agrees.holder
  case acquire => exact fun available id period => agrees.acquire available id period
  case renew =>
    intro a b answer
    refine ⟨?_, agrees.renew answer⟩
    rw [agrees.renew answer, agrees.stands_iff]
    constructor
    · rintro ⟨l, live, own⟩
      obtain ⟨found, lasts⟩ := LeaseStore.live?_eq_some.mp live
      exact ⟨l, found, own, lasts⟩
    · rintro ⟨l, found, own, lasts⟩
      exact ⟨l, LeaseStore.live?_eq_some.mpr ⟨found, lasts⟩, own⟩
  case renewed => exact fun a answer => agrees.renewed answer
  case prolong =>
    exact fun available failing time a period granted =>
      agrees.prolongs available failing granted
  case others =>
    intro a id l found other
    exact ⟨LeaseStore.find?_renew_other found other, LeaseStore.find?_release_other found other⟩
  case stale => exact fun a lapsed => agrees.stale lapsed
  case apart =>
    intro id other ne
    refine ⟨s.store.find?_acquire_ne s.now ne, ?_, LeaseStore.find?_erase_ne s.store ne⟩
    rintro a rfl
    exact ⟨s.store.find?_renew_ne s.now ne, s.store.find?_release_ne ne⟩
  case failed =>
    refine ⟨fun id period f failed => ?_, fun a f failed => ?_, fun a f failed => ?_⟩
    · obtain ⟨_, acquired⟩ | ⟨same, _⟩ := s.store.acquire_cases s.now id period
      · simp [acquired] at failed
      · rw [same]
    · obtain ⟨_, _, _, renewed⟩ | ⟨same, _⟩ := s.store.renew_cases s.now a
      · simp [renewed] at failed
      · exact same
    · obtain ⟨_, _, _, released⟩ | ⟨same, _⟩ := s.store.release_cases a
      · simp [released] at failed
      · rw [same]

/-- Nobody holds a lease, and still none is given out for the longest period. -/
theorem unending_lease_withheld :
    let (s, h) := run {} []
    (∀ a, ¬Stands h s.now a) ∧ s.store.available = true ∧
      (s.store.acquire s.now "billing" (.ofNanoseconds Duration.limit)).2 =
        .error (.overflow .instant) := by
  refine ⟨fun a ⟨t, term, _⟩ => ?_, rfl, by decide +kernel⟩
  simp at term

end Tenancy

end Courier
