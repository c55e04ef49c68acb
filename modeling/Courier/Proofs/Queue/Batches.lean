import Courier.Proofs.Queue.Moves
import Mathlib.Data.List.Basic

/-!
# Batches

What a receive gets is the front of the line once expired locks have been returned. A batch is the
front in its order (`Queue.Served`). Where a message of the front cannot be locked the receive
breaks off, and `Queue.Spilled` says what becomes of the front: messages are locked as far as it
goes, under tokens that nobody has, and the others are lost.

Nothing is stranded or lost without a reason, and a history tells the reason (`Queue.Excused`).
-/

namespace Courier

namespace Queue

/-- The front of the line once expired locks have been returned: as many messages as a receive of
at most `max` takes, one being the least that it can ask for. -/
def front (q : Queue) (now max : Nat) : List Stored :=
  (q.reclaim now).ready.take (min (Nat.max 1 max) (q.reclaim now).ready.length)

theorem batchSize_reclaim (q : Queue) (now max : Nat) :
    (q.reclaim now).ready.take ((q.reclaim now).batchSize max) = q.front now max := by
  rw [front, batchSize, Nat.max, Nat.max, Nat.max_comm]

theorem front_length_le (q : Queue) (now : Nat) {max : Nat} (some : 0 < max) :
    (q.front now max).length ≤ max := by
  refine Nat.le_trans (List.length_take_le _ _) ?_
  exact Nat.le_trans (Nat.min_le_left _ _) (Nat.max_le.mpr ⟨some, Nat.le_refl _⟩)

/-- A batch is the front of the line in its order, each message with one delivery more, and leaves
the rest of the line as it was. -/
structure Served (q : Queue) (now max : Nat) (batch : List Delivery) (q' : Queue) : Prop where
  batch : batch.map (fun d => (d.message, d.count)) =
    (q.front now max).map fun s => (s.message, s.deliveries + 1)
  rest : (q.reclaim now).ready = q.front now max ++ q'.ready

theorem Served.length_le {q q' : Queue} {now max : Nat} {batch : List Delivery}
    (served : q.Served now max batch q') (some : 0 < max) : batch.length ≤ max := by
  have length := congrArg List.length served.batch
  rw [List.length_map, List.length_map] at length
  exact length ▸ q.front_length_le now some

/-- A receive that breaks off has locked the front of the line up to the first message that could
not be locked, whose count is full or whose lock would end past the last instant. -/
structure Spilled (q : Queue) (now max : Nat) (lock : Duration) (spill : Spill) (q' : Queue) :
    Prop where
  front : ∃ taken, q.front now max = taken ++ spill.lost ∧
    spill.strays.map (fun d => (d.message, d.count)) =
      taken.map fun s => (s.message, s.deliveries + 1)
  rest : (q.reclaim now).ready = q.front now max ++ q'.ready
  reason : ∃ s, spill.lost.head? = some s ∧ (spill.overflow = .count ∧ s.deliveries = Stored.most ∨
    spill.overflow = .instant ∧ Instant.last < now + lock.nanoseconds)
  fits : spill.strays ≠ [] → now + lock.nanoseconds ≤ Instant.last

/-- There is something in the line that could not be locked. -/
theorem Spilled.stuck {q q' : Queue} {now max : Nat} {lock : Duration} {spill : Spill}
    (spilled : q.Spilled now max lock spill q') : ∃ s ∈ (q.reclaim now).ready,
      s.deliveries = Stored.most ∨ Instant.last < now + lock.nanoseconds := by
  obtain ⟨s, first, reason⟩ := spilled.reason
  obtain ⟨taken, front, _⟩ := spilled.front
  refine ⟨s, ?_, reason.imp And.right And.right⟩
  rw [spilled.rest, front]
  exact List.mem_append_left _ (List.mem_append_right _ (List.mem_of_mem_head? first))

/-! ## Looks -/

section LockAll

variable {now : Nat} {lock : Duration} {serial : Nat} {chosen : List Stored}

theorem lockAll_contents {locks : List Locked} {left : Option (Overflow × List Stored)}
    (h : lockAll (Instant.plus? now lock) serial chosen = (locks, left)) :
    ∃ taken, chosen = taken ++ left.elim [] (·.2) ∧
      (locks.map deliveryOf).map (fun d => (d.message, d.count)) =
        taken.map fun s => (s.message, s.deliveries + 1) := by
  induction chosen generalizing serial locks with
  | nil =>
      cases h
      exact ⟨[], rfl, rfl⟩
  | cons s rest ih =>
      rw [lockAll] at h
      cases locking : lockOne (Instant.plus? now lock) serial s with
      | error o =>
          rw [locking] at h
          cases h
          exact ⟨[], rfl, rfl⟩
      | ok l =>
          rw [locking] at h
          cases h
          obtain ⟨_, _, rfl⟩ := lockOne_eq_ok locking
          obtain ⟨taken, parts, contents⟩ := ih rfl
          exact ⟨s :: taken, congrArg (s :: ·) parts, congrArg _ contents⟩

theorem lockAll_fits {locks : List Locked} {left : Option (Overflow × List Stored)}
    (h : lockAll (Instant.plus? now lock) serial chosen = (locks, left)) (some : locks ≠ []) :
    now + lock.nanoseconds ≤ Instant.last := by
  cases chosen with
  | nil =>
      cases h
      exact absurd rfl some
  | cons s rest =>
      rw [lockAll] at h
      cases locking : lockOne (Instant.plus? now lock) serial s with
      | error o =>
          rw [locking] at h
          cases h
          exact absurd rfl some
      | ok l => exact (lockOne_eq_ok locking).2.1

/-- A batch whose messages can all be locked is locked. -/
theorem lockAll_all (room : ∀ s ∈ chosen, s.deliveries ≠ Stored.most)
    (fits : chosen = [] ∨ now + lock.nanoseconds ≤ Instant.last) :
    (lockAll (Instant.plus? now lock) serial chosen).2 = none := by
  cases unlocked : (lockAll (Instant.plus? now lock) serial chosen).2 with
  | none => rfl
  | some left =>
      obtain ⟨why, lost⟩ := left
      have locked : lockAll (Instant.plus? now lock) serial chosen = (_, some (why, lost)) :=
        Prod.ext rfl unlocked
      obtain ⟨s, first, reason⟩ := lockAll_left locked
      obtain ⟨taken, rfl, _⟩ := lockAll_contents locked
      have mem : s ∈ taken ++ lost := List.mem_append_right _ (List.mem_of_mem_head? first)
      obtain ⟨_, full⟩ | ⟨_, past⟩ := reason
      · exact absurd full (room s mem)
      · obtain none | fits := fits
        · exact absurd (none ▸ mem) List.not_mem_nil
        · omega

/-- Where no lock can be had nothing of a batch is locked. -/
theorem exists_lockAll_past (serial : Nat) (nonempty : chosen ≠ [])
    (past : Instant.last < now + lock.nanoseconds) :
    ∃ why, lockAll (Instant.plus? now lock) serial chosen = ([], some (why, chosen)) := by
  obtain ⟨s, rest, rfl⟩ := List.exists_cons_of_ne_nil nonempty
  rw [lockAll]
  cases locking : lockOne (Instant.plus? now lock) serial s with
  | error why => exact ⟨why, rfl⟩
  | ok l =>
      have := (lockOne_eq_ok locking).2.1
      omega

end LockAll

section Take

variable {q : Queue} {now max : Nat} {lock : Duration}

theorem take_served {ds : List Delivery} (taken : (q.take now max lock).2 = .batch ds) :
    q.Served now max ds (q.take now max lock).1 := by
  have line := (List.take_append_drop ((q.reclaim now).batchSize max) (q.reclaim now).ready).symm
  rw [batchSize_reclaim] at line
  simp only [take, batchSize_reclaim] at taken ⊢
  split at taken
  · cases taken
  · rename_i opened
    rw [if_neg opened]
    cases locked : lockAll (Instant.plus? now lock) ((q.reclaim now).issued + 1)
        (q.front now max) with
    | mk locks left =>
        obtain ⟨chosen, parts, contents⟩ := lockAll_contents locked
        cases left with
        | none =>
            rw [locked] at taken
            cases taken
            rw [Option.elim_none, List.append_nil] at parts
            exact ⟨parts ▸ contents, line⟩
        | some left =>
            rw [locked] at taken
            cases taken

theorem take_spilled {spill : Spill} (taken : (q.take now max lock).2 = .overflow spill) :
    q.Spilled now max lock spill (q.take now max lock).1 := by
  have line := (List.take_append_drop ((q.reclaim now).batchSize max) (q.reclaim now).ready).symm
  rw [batchSize_reclaim] at line
  simp only [take, batchSize_reclaim] at taken ⊢
  split at taken
  · cases taken
  · rename_i opened
    rw [if_neg opened]
    cases locked : lockAll (Instant.plus? now lock) ((q.reclaim now).issued + 1)
        (q.front now max) with
    | mk locks left =>
        obtain ⟨chosen, parts, contents⟩ := lockAll_contents locked
        cases left with
        | none =>
            rw [locked] at taken
            cases taken
        | some left =>
            rw [locked] at taken
            cases taken
            refine ⟨⟨chosen, parts, contents⟩, line, lockAll_left locked, fun some => ?_⟩
            exact lockAll_fits locked fun none => some (by rw [none]; rfl)

/-- An open queue hands out the front of its line, unless a count there cannot grow or the lock
would end past the last instant. -/
theorem exists_take (opened : q.closed = false)
    (room : ∀ s ∈ q.front now max, s.deliveries ≠ Stored.most)
    (fits : q.front now max = [] ∨ now + lock.nanoseconds ≤ Instant.last) :
    ∃ ds, (q.take now max lock).2 = .batch ds := by
  unfold take
  rw [opened, if_neg Bool.false_ne_true]
  simp only
  rw [batchSize_reclaim, lockAll_all room fits]
  exact ⟨_, rfl⟩

/-- It loses all of the front where the lock would end past the last instant. -/
theorem exists_spill (opened : q.closed = false) (some : q.front now max ≠ [])
    (past : Instant.last < now + lock.nanoseconds) :
    ∃ why, (q.take now max lock).2 = .overflow ⟨why, [], q.front now max⟩ := by
  unfold take
  rw [opened, if_neg Bool.false_ne_true]
  simp only
  rw [batchSize_reclaim]
  obtain ⟨why, locked⟩ := exists_lockAll_past ((q.reclaim now).issued + 1) some past
  rw [locked]
  exact ⟨why, rfl⟩

theorem take_failed {q' : Queue} {f : QueueFault}
    (taken : q.take now max lock = (q', .failed f)) : q' = q ∧ f = .closed := by
  unfold take at taken
  split at taken
  · cases taken
    exact ⟨rfl, rfl⟩
  · simp only at taken
    split at taken <;> cases taken

/-- Whoever finds nothing has only returned what had expired, in an open queue. -/
theorem take_nothing {q' : Queue} (taken : q.take now max lock = (q', .batch [])) :
    q'.closed = false ∧ q'.ready = [] ∧ q' = q.reclaim now := by
  unfold take at taken
  split at taken
  · cases taken
  · rename_i opened
    cases line : (q.reclaim now).ready with
    | nil =>
        simp only [line, List.take_nil, List.drop_nil, lockAll, List.append_nil, List.length_nil,
          Nat.add_zero] at taken
        cases taken
        exact ⟨eq_false_of_ne_true opened, rfl, by rw [← line]⟩
    | cons s rest =>
        obtain ⟨k, more⟩ : ∃ k, (q.reclaim now).batchSize max = k + 1 := by
          apply Nat.exists_eq_add_one.mpr
          rw [batchSize, line]
          exact Nat.lt_min.mpr ⟨Nat.lt_of_lt_of_le Nat.one_pos (Nat.le_max_right _ _), by simp⟩
        simp only [line, more, List.take_succ_cons, lockAll] at taken
        cases locking : lockOne (Instant.plus? now lock) ((q.reclaim now).issued + 1) s with
        | error o =>
            rw [locking] at taken
            cases taken
        | ok l =>
            rw [locking] at taken
            simp only at taken
            split at taken <;> cases taken

end Take

end Queue

namespace Receiving

open Queue (Served Spilled)

variable {q q' : Queue} {now max deadline : Nat} {lock : Duration} {ds : List Delivery}

/-- A receive that looks comes to a batch just when it is not made to fail and the queue hands out
one that is not empty. -/
theorem look_batch_iff : look q now max lock deadline = (q', .batch ds) ↔
    q.failingReceives = 0 ∧ q.take now max lock = (q', .batch ds) ∧ ds ≠ [] := by
  unfold look Queue.look
  cases q.failingReceives with
  | succ n => simp
  | zero =>
      obtain ⟨after, take⟩ := q.take now max lock
      cases take with
      | failed f | overflow spill => simp
      | batch batch =>
          cases batch with
          | nil =>
              simp only [Prod.mk.injEq, reduceCtorEq, and_false, true_and, Queue.Take.batch.injEq,
                false_iff, not_and, not_not]
              rintro ⟨_, rfl⟩
              rfl
          | cons d rest =>
              simp only [Prod.mk.injEq, Outcome.batch.injEq, Queue.Take.batch.injEq, true_and]
              constructor
              · rintro ⟨same, rfl⟩
                exact ⟨⟨same, rfl⟩, List.cons_ne_nil d rest⟩
              · rintro ⟨both, _⟩
                exact both

/-- A receive that looks breaks off just when it is not made to fail and a message cannot be
locked. -/
theorem look_overflow_iff {spill : Queue.Spill} :
    look q now max lock deadline = (q', .overflow spill) ↔
      q.failingReceives = 0 ∧ q.take now max lock = (q', .overflow spill) := by
  unfold look Queue.look
  cases q.failingReceives with
  | succ n => simp
  | zero =>
      obtain ⟨after, take⟩ := q.take now max lock
      cases take with
      | failed f | overflow spill => simp
      | batch batch => cases batch <;> simp

theorem look_served (received : (look q now max lock deadline).2 = .batch ds) :
    q.Served now max ds (look q now max lock deadline).1 := by
  obtain ⟨_, taken, _⟩ := look_batch_iff.mp (Prod.ext rfl received)
  have served := Queue.take_served (congrArg Prod.snd taken)
  rwa [congrArg Prod.fst taken] at served

theorem look_spilled {spill : Queue.Spill}
    (broke : (look q now max lock deadline).2 = .overflow spill) :
    q.Spilled now max lock spill (look q now max lock deadline).1 := by
  obtain ⟨_, taken⟩ := look_overflow_iff.mp (Prod.ext rfl broke)
  have spilled := Queue.take_spilled (congrArg Prod.snd taken)
  rwa [congrArg Prod.fst taken] at spilled

theorem start_served {wait : Duration} (received : (start q now max wait lock).2 = .batch ds) :
    q.Served now max ds (start q now max wait lock).1 := by
  unfold start at received ⊢
  split at received
  · exact look_served received
  · cases received

theorem exists_look (working : q.failingReceives = 0) (opened : q.closed = false)
    (some : q.front now max ≠ []) (room : ∀ s ∈ q.front now max, s.deliveries ≠ Stored.most)
    (fits : now + lock.nanoseconds ≤ Instant.last) (deadline : Nat) :
    ∃ ds, ds ≠ [] ∧ (look q now max lock deadline).2 = .batch ds := by
  obtain ⟨ds, taken⟩ : ∃ ds, (q.take now max lock).2 = .batch ds :=
    Queue.exists_take opened room (.inr fits)
  have contents := (Queue.take_served taken).batch
  have nonempty : ds ≠ [] := by
    rintro rfl
    exact some (List.map_eq_nil_iff.mp contents.symm)
  refine ⟨ds, nonempty, ?_⟩
  rw [look_batch_iff.mpr ⟨working, Prod.ext rfl taken, nonempty⟩]

/-- A receive whose lock would end past the last instant loses what it comes to. -/
theorem start_loses {wait : Duration} (working : q.failingReceives = 0)
    (opened : q.closed = false) (waits : now + wait.nanoseconds ≤ Instant.last)
    (past : Instant.last < now + lock.nanoseconds) :
    Queue.losses ((start q now max wait lock).2.records now lock) = q.front now max ∧
      Queue.deliveries ((start q now max wait lock).2.records now lock) = [] := by
  rw [start, Instant.plus?_of_le waits]
  simp only [look, Queue.look, working]
  by_cases some : q.front now max = []
  · obtain ⟨ds, taken⟩ : ∃ ds, (q.take now max lock).2 = .batch ds :=
      Queue.exists_take opened (by simp [some]) (.inl some)
    have contents := (Queue.take_served taken).batch
    rw [some, List.map_nil, List.map_eq_nil_iff] at contents
    subst contents
    rw [some]
    generalize q.take now max lock = seen at taken
    obtain ⟨q', _⟩ := seen
    subst taken
    exact ⟨rfl, rfl⟩
  · obtain ⟨why, taken⟩ : ∃ why, (q.take now max lock).2 = .overflow ⟨why, [], q.front now max⟩ :=
      Queue.exists_spill opened some past
    generalize q.take now max lock = seen at taken
    obtain ⟨q', _⟩ := seen
    subst taken
    simp [Outcome.records, Queue.Spill.records, Queue.losses, Queue.deliveries,
      List.filterMap_map, Function.comp_def, Queue.Record.loss?, Queue.Record.delivery?]

theorem start_spilled {wait : Duration} {spill : Queue.Spill}
    (broke : (start q now max wait lock).2 = .overflow spill) :
    q.Spilled now max lock spill (start q now max wait lock).1 ∨
      Instant.last < now + wait.nanoseconds := by
  unfold start at broke ⊢
  split at broke
  · exact .inl (look_spilled broke)
  · rename_i past
    exact .inr (Instant.plus?_eq_none_iff.mp past)

theorem resume_spilled {clock : Clock} {r : Receiving} {spill : Queue.Spill}
    (broke : (resume q clock r).2 = .overflow spill) :
    q.Spilled clock.now r.max r.lock spill (resume q clock r).1 := by
  unfold resume at broke ⊢
  split at broke
  · rename_i roused
    rw [if_pos roused]
    exact look_spilled broke
  · rename_i quiet
    rw [if_neg quiet]
    split at broke
    · rename_i due
      rw [if_pos due]
      split at broke
      · cases broke
      · rename_i early
        rw [if_neg early]
        exact look_spilled broke
    · cases broke

theorem resume_served {clock : Clock} {r : Receiving}
    (received : (resume q clock r).2 = .batch ds) (some : ds ≠ []) :
    q.Served clock.now r.max ds (resume q clock r).1 := by
  unfold resume at received ⊢
  split at received
  · rename_i roused
    rw [if_pos roused]
    exact look_served received
  · rename_i quiet
    rw [if_neg quiet]
    split at received
    · rename_i due
      rw [if_pos due]
      split at received
      · cases received
        exact absurd rfl some
      · rename_i early
        rw [if_neg early]
        exact look_served received
    · cases received

end Receiving

/-! ## Reasons -/

namespace Queue

/-- What a history says was stranded or lost has its reason there: a lock that would have ended past
the last instant, or a message in the same batch whose count was full. Only the latter strands
deliveries. -/
structure Excused (h : List Record) : Prop where
  lost : ∀ {time lock why s}, .lost time lock why s ∈ h →
    why = .instant ∧ Instant.last < time + lock.nanoseconds ∨
      why = .count ∧ ∃ s', .lost time lock .count s' ∈ h ∧ s'.deliveries = Stored.most
  stranded : ∀ {time lock d}, .stranded time lock d ∈ h →
    ∃ s, .lost time lock .count s ∈ h ∧ s.deliveries = Stored.most

namespace Excused

variable {h h' : List Record}

theorem nil : Excused [] := ⟨by simp, by simp⟩

theorem append (before : Excused h) (after : Excused h') : Excused (h ++ h') := by
  constructor
  · intro time lock why s mem
    obtain mem | mem := List.mem_append.mp mem
    · obtain past | ⟨count, s', mem', full⟩ := before.lost mem
      · exact .inl past
      · exact .inr ⟨count, s', List.mem_append_left _ mem', full⟩
    · obtain past | ⟨count, s', mem', full⟩ := after.lost mem
      · exact .inl past
      · exact .inr ⟨count, s', List.mem_append_right _ mem', full⟩
  · intro time lock d mem
    obtain mem | mem := List.mem_append.mp mem
    · obtain ⟨s, mem', full⟩ := before.stranded mem
      exact ⟨s, List.mem_append_left _ mem', full⟩
    · obtain ⟨s, mem', full⟩ := after.stranded mem
      exact ⟨s, List.mem_append_right _ mem', full⟩

/-- A history that tells of nothing stranded and nothing lost. -/
theorem of_none (lost : ∀ time lock why s, .lost time lock why s ∉ h)
    (stranded : ∀ time lock d, .stranded time lock d ∉ h) : Excused h :=
  ⟨fun mem => absurd mem (lost _ _ _ _), fun mem => absurd mem (stranded _ _ _)⟩

/-- Where no count was full, whatever was issued was delivered. -/
theorem issues_eq (excused : Excused h)
    (grows : ∀ time lock s, .lost time lock .count s ∉ h) : issues h = deliveries h := by
  have alike : ∀ r ∈ h, r.issue? = r.delivery? := by
    intro r mem
    cases r with
    | stranded time lock d =>
        obtain ⟨s, mem', _⟩ := excused.stranded mem
        exact absurd mem' (grows time lock s)
    | sent | delivered | lost | settled => rfl
  exact List.filterMap_congr alike

end Excused

theorem Spilled.excused {q q' : Queue} {now max : Nat} {lock : Duration} {spill : Spill}
    (spilled : q.Spilled now max lock spill q') : Excused (spill.records now lock) := by
  obtain ⟨s, first, reason⟩ := spilled.reason
  have mem_lost : s ∈ spill.lost := List.mem_of_mem_head? first
  have told (full : spill.overflow = .count) : .lost now lock .count s ∈ spill.records now lock :=
    full ▸ List.mem_append_right _ (List.mem_map_of_mem mem_lost)
  constructor
  · intro time period why s' mem
    obtain ⟨rfl, rfl, rfl⟩ : now = time ∧ lock = period ∧ spill.overflow = why := by
      simp only [Spill.records, List.mem_append, List.mem_map, reduceCtorEq, and_false,
        exists_false, false_or, Record.lost.injEq] at mem
      obtain ⟨_, _, rfl, rfl, rfl, _⟩ := mem
      exact ⟨rfl, rfl, rfl⟩
    obtain ⟨count, full⟩ | past := reason
    · exact .inr ⟨count, s, told count, full⟩
    · exact .inl past
  · intro time period d mem
    obtain ⟨hd, rfl, rfl⟩ : d ∈ spill.strays ∧ now = time ∧ lock = period := by
      simp only [Spill.records, List.mem_append, List.mem_map, reduceCtorEq, and_false,
        exists_false, or_false, Record.stranded.injEq] at mem
      obtain ⟨_, hd, rfl, rfl, rfl⟩ := mem
      exact ⟨hd, rfl, rfl⟩
    obtain ⟨count, full⟩ | ⟨_, past⟩ := reason
    · exact ⟨s, told count, full⟩
    · have := spilled.fits (List.ne_nil_of_mem hd)
      omega

end Queue

namespace Receiving

open Queue (Excused)

theorem excused_of_batch (now : Nat) (lock : Duration) (ds : List Delivery) :
    Excused ((Outcome.batch ds).records now lock) :=
  .of_none (by simp [Outcome.records]) (by simp [Outcome.records])

theorem look_excused (q : Queue) (now max : Nat) (lock : Duration) (deadline : Nat) :
    Excused ((look q now max lock deadline).2.records now lock) := by
  cases seen : (look q now max lock deadline).2 with
  | failed f | waiting r => exact .nil
  | batch ds => exact excused_of_batch now lock ds
  | overflow spill => exact (look_spilled seen).excused

theorem start_excused (q : Queue) (now max : Nat) (wait lock : Duration) :
    Excused ((start q now max wait lock).2.records now lock) := by
  unfold start
  split
  · exact look_excused q now max lock _
  · exact .nil

theorem resume_excused (q : Queue) (clock : Clock) (r : Receiving) :
    Excused ((resume q clock r).2.records clock.now r.lock) := by
  unfold resume
  split
  · exact look_excused q clock.now r.max r.lock r.deadline
  · split
    · split
      · exact .nil
      · exact look_excused q clock.now r.max r.lock r.deadline
    · exact .nil

end Receiving

end Courier
