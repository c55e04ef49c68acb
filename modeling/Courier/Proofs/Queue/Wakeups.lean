import Courier.Proofs.Queue.Batches
import Courier.Proofs.Queue.Bustle
import Mathlib.Data.List.Range

/-!
# No wake-up is missed

The expiry of a lock tells nobody. A receive that waits relies on the timer that it set when it
last looked, at the earliest expiry of a lock that it saw. This is enough. A lock that came later
holds a message that was in the line meanwhile: either somebody had put it there, and then tells
those who wait, or it came from a lock that expired, and then the timer has gone off
(`Queue.Foreseen`).

A receive also notes the count of arrivals before it looks, so what comes while it looks is not
missed either. `Bustle.Sound` holds whatever the calls do and in whatever order they do it. Once
everyone who could do something has done it, those who wait wait for what is not there.
-/

namespace Courier

namespace Queue

/-- Whoever looks again at `wake` misses nothing: it is time to, or the line is empty and no lock
expires before. -/
def Foreseen (q : Queue) (now wake : Nat) : Prop :=
  wake ≤ now ∨ q.ready = [] ∧ ∀ l ∈ q.locked, wake ≤ l.expiresAt

namespace Foreseen

variable {q : Queue} {now wake : Nat}

theorem later (foreseen : q.Foreseen now wake) {time : Nat} (le : now ≤ time) :
    q.Foreseen time wake := by
  obtain due | quiet := foreseen
  · exact .inl (due.trans le)
  · exact .inr quiet

theorem reorder (foreseen : q.Foreseen now wake) {locked : List Locked}
    (perm : locked.Perm q.locked) : ({ q with locked := locked } : Queue).Foreseen now wake := by
  obtain due | ⟨none, quiet⟩ := foreseen
  · exact .inl due
  · exact .inr ⟨none, fun l mem => quiet l (perm.subset mem)⟩

/-- A lock that has expired was foreseen, so the timer has gone off. -/
theorem reclaim (foreseen : q.Foreseen now wake) : (q.reclaim now).Foreseen now wake := by
  obtain due | ⟨none, quiet⟩ := foreseen
  · exact .inl due
  · by_cases expired : ∃ l ∈ q.locked, l.expiresAt ≤ now
    · obtain ⟨l, mem, old⟩ := expired
      exact .inl ((quiet l mem).trans old)
    · refine .inr ⟨?_, fun l mem => quiet l (List.mem_of_mem_filter mem)⟩
      have held : q.locked.filter (fun l => l.expiresAt ≤ now) = [] := by
        apply List.filter_eq_nil_iff.mpr
        intro l mem old
        exact expired ⟨l, mem, of_decide_eq_true old⟩
      simp only [Queue.reclaim, none, held, List.map_nil, List.append_nil]

/-- Whoever takes messages finds them in the line, so the timer has gone off. -/
theorem take (foreseen : q.Foreseen now wake) (max : Nat) (lock : Duration) :
    (q.take now max lock).1.Foreseen now wake := by
  have back := foreseen.reclaim
  unfold Queue.take
  split
  · exact foreseen
  · obtain due | ⟨none, quiet⟩ := back
    · exact .inl due
    · refine .inr ⟨?_, ?_⟩
      · simp only [none, List.drop_nil]
      · simpa [none, lockAll] using quiet

theorem unlock (foreseen : q.Foreseen now wake) (token : LockToken) :
    (q.unlock now token).1.Foreseen now wake := by
  have back := foreseen.reclaim
  unfold Queue.unlock
  simp only
  split
  · obtain due | ⟨none, quiet⟩ := back
    · exact .inl due
    · exact .inr ⟨none, fun l mem => quiet l (List.mem_of_mem_filter mem)⟩
  · exact back

end Foreseen

/-- The timer of a receive that found nothing goes off with the first lock, and no later than the
wait is over. -/
theorem foreseen_wake {q : Queue} (none : q.ready = []) (now deadline : Nat) :
    q.Foreseen now (q.wake deadline) := by
  refine .inr ⟨none, fun l mem => ?_⟩
  unfold wake
  cases found : q.nextExpiry? with
  | none =>
      rw [nextExpiry?, List.min?_eq_none_iff, List.map_eq_nil_iff] at found
      rw [found] at mem
      cases mem
  | some expiry =>
      have least := (List.min?_eq_some_iff.mp found).2 _ (List.mem_map.mpr ⟨l, mem, rfl⟩)
      exact (Nat.min_le_left expiry deadline).trans least

theorem wake_le (q : Queue) (deadline : Nat) : q.wake deadline ≤ deadline := by
  unfold wake
  split
  · exact Nat.min_le_right _ _
  · exact le_rfl

theorem alive_of_mem_reclaim {q : Queue} {now : Nat} {l : Locked}
    (mem : l ∈ (q.reclaim now).locked) : now < l.expiresAt :=
  of_decide_eq_true (List.mem_filter.mp mem).2

end Queue

namespace Bustle

/-! ## What a step does -/

/-- Whether a call is about to tell those who wait. -/
def Call.tells : Call → Bool
  | .tell _ => true
  | _ => false

def Next.tells : Next → Bool
  | .goes c => c.tells
  | .ends _ => false

/-- A change of a queue that takes care of those who wait, where `told` and `told'` say whether
someone is about to tell them, before it and after. They have been told, or they will be, or
nothing happened that they did not foresee. -/
inductive Careful (now : Nat) (q : Queue) (told : Prop) (q' : Queue) (told' : Prop) : Prop where
  | told : q.arrivals < q'.arrivals → Careful now q told q' told'
  | willTell : q'.arrivals = q.arrivals → told' → Careful now q told q' told'
  | quiet : q'.arrivals = q.arrivals → q'.closed = q.closed →
      (∀ wake, q.Foreseen now wake → q'.Foreseen now wake) → (told → told') →
      Careful now q told q' told'

theorem Careful.refl (now : Nat) (q : Queue) {told told' : Prop} (still : told → told') :
    Careful now q told q told' :=
  .quiet rfl rfl (fun _ foreseen => foreseen) still

theorem settleLocked_careful (q : Queue) (now : Nat) (token : LockToken) (how : Settling)
    {others : Prop} {told : Prop} (same : told → others) :
    Careful now q told (settleLocked q now token how).1
      ((settleLocked q now token how).2.tells = true ∨ others) := by
  have foreseen (wake : Nat) (before : q.Foreseen now wake) := before.unlock token
  obtain ⟨arrivals, closed⟩ := q.unlock_aside now token
  unfold settleLocked
  generalize q.unlock now token = released at foreseen arrivals closed ⊢
  obtain ⟨q', answer⟩ := released
  cases answer with
  | error f => exact .quiet arrivals closed foreseen fun h => .inr (same h)
  | ok s =>
      cases how with
      | abandon fault => exact .willTell arrivals (.inl rfl)
      | complete | deadLetter reason =>
          exact .quiet arrivals closed foreseen fun h => .inr (same h)

theorem stepReceive_careful {q q' : Queue} {clock : Clock} {wish : Wish} {stage : Stage}
    {next : Next} (step : stepReceive q clock wish stage = some (q', next)) {told told' : Prop}
    (same : told → told') : Careful clock.now q told q' told' := by
  cases stage with
  | outset =>
      rw [stepReceive] at step
      split at step <;> cases step <;> exact .refl clock.now q same
  | doomed left =>
      cases step
      exact .quiet rfl rfl (fun _ foreseen => foreseen) same
  | spared =>
      cases step
      exact .refl clock.now q same
  | listening seen =>
      have foreseen (wake : Nat) (before : q.Foreseen clock.now wake) :=
        before.take wish.max wish.lock
      obtain ⟨arrivals, closed⟩ := q.take_aside clock.now wish.max wish.lock
      rw [stepReceive] at step
      generalize q.take clock.now wish.max wish.lock = taken at foreseen arrivals closed step
      split at step <;> cases step <;> exact .quiet arrivals closed foreseen same
  | waiting seen wake =>
      rw [stepReceive] at step
      split at step
      · cases step
        exact .refl clock.now q same
      · split at step <;> cases step
        exact .refl clock.now q same
  | overdue =>
      rw [stepReceive] at step
      split at step <;> cases step <;> exact .refl clock.now q same

/-- Every step of a call takes care of those who wait. -/
theorem Call.step_careful {q q' : Queue} {clock : Clock} {c : Call} {next : Next}
    (step : c.step q clock = some (q', next)) (others : Prop) :
    Careful clock.now q (c.tells = true ∨ others) q' (next.tells = true ∨ others) := by
  have same (silent : c.tells = false) : c.tells = true ∨ others → others := by
    intro told
    simpa [silent] using told
  cases c with
  | request r =>
      cases r with
      | send o =>
          cases step
          exact .quiet rfl rfl (fun _ foreseen => foreseen) fun told => .inr (same rfl told)
      | receive max wait lock =>
          rw [Call.step] at step
          split at step <;> cases step <;> exact .refl clock.now q fun told => .inr (same rfl told)
      | settle token how =>
          rw [Call.step] at step
          split at step <;> cases step <;> exact .refl clock.now q fun told => .inr (same rfl told)
      | close =>
          cases step
          exact .willTell rfl (.inl rfl)
  | put s =>
      cases step
      exact .willTell rfl (.inl rfl)
  | unlock token how =>
      rw [Call.step, Option.some.injEq] at step
      have careful := settleLocked_careful q clock.now token how (same rfl)
      rwa [step] at careful
  | tell answer =>
      cases step
      exact .told (Nat.lt_succ_self q.arrivals)
  | receiving wish stage => exact stepReceive_careful step fun told => .inr (same rfl told)

/-! ## The invariant -/

/-- A receive that waits has been told since it looked, or will be, or foresees what comes. -/
def Call.Sound (q : Queue) (now : Nat) (told : Prop) : Call → Prop
  | .receiving _ (.listening seen) => seen ≤ q.arrivals
  | .receiving wish (.waiting seen wake) =>
    seen ≤ q.arrivals ∧ wake ≤ wish.deadline ∧
      (seen = q.arrivals → told ∨ q.closed = false ∧ q.Foreseen now wake)
  | _ => True

namespace Call.Sound

variable {q q' : Queue} {now : Nat} {told told' : Prop} {c : Call}

theorem careful (sound : c.Sound q now told) (change : Careful now q told q' told') :
    c.Sound q' now told' := by
  have grows : q.arrivals ≤ q'.arrivals := by
    cases change with
    | told more => exact Nat.le_of_lt more
    | willTell same _ | quiet same _ _ _ => exact Nat.le_of_eq same.symm
  cases c with
  | request r | put s | unlock token how | tell answer => trivial
  | receiving wish stage =>
      cases stage with
      | outset | doomed left | spared | overdue => trivial
      | listening seen => exact Nat.le_trans sound grows
      | waiting seen wake =>
          obtain ⟨noted, inTime, heard⟩ := sound
          refine ⟨Nat.le_trans noted grows, inTime, fun latest => ?_⟩
          cases change with
          | told more => omega
          | willTell _ will => exact .inl will
          | quiet same closed foreseen still =>
              obtain will | ⟨opened, before⟩ := heard (latest.trans same)
              · exact .inl (still will)
              · exact .inr ⟨closed.trans opened, foreseen wake before⟩

theorem later (sound : c.Sound q now told) {time : Nat} (le : now ≤ time) :
    c.Sound q time told := by
  cases c with
  | request r | put s | unlock token how | tell answer => trivial
  | receiving wish stage =>
      cases stage with
      | outset | doomed left | spared | overdue => trivial
      | listening seen => exact sound
      | waiting seen wake =>
          obtain ⟨noted, inTime, heard⟩ := sound
          refine ⟨noted, inTime, fun latest => ?_⟩
          obtain will | ⟨opened, before⟩ := heard latest
          · exact .inl will
          · exact .inr ⟨opened, before.later le⟩

/-- A receive that begins to wait has noted the arrivals before it looked, and its timer is set by
what it saw. -/
theorem step {clock : Clock} {c' : Call} (sound : c.Sound q clock.now told)
    (step : c.step q clock = some (q', .goes c')) : c'.Sound q' clock.now told' := by
  cases c with
  | request r =>
      cases r with
      | send o | close =>
          cases step
          trivial
      | settle token how | receive max wait lock =>
          rw [Call.step] at step
          split at step <;> cases step
          trivial
  | put s =>
      cases step
      trivial
  | tell answer => cases step
  | unlock token how =>
      rw [Call.step, Option.some.injEq, settleLocked] at step
      split at step
      · cases step
      · split at step <;> cases step
        trivial
  | receiving wish stage =>
      rw [Call.step] at step
      cases stage with
      | outset =>
          rw [stepReceive] at step
          split at step <;> cases step <;> trivial
      | doomed left => cases step
      | spared =>
          cases step
          exact Nat.le_refl q.arrivals
      | listening seen =>
          obtain ⟨arrivals, _⟩ := q.take_aside clock.now wish.max wish.lock
          rw [stepReceive] at step
          split at step
          · cases step
          · cases step
          · rename_i taken
            rw [taken] at arrivals
            cases step
            obtain ⟨opened, nothing, _⟩ := Queue.take_nothing taken
            -- the count was noted before the look, so it is not too high
            refine ⟨Nat.le_trans sound (Nat.le_of_eq arrivals.symm), Queue.wake_le _ _, fun _ => ?_⟩
            exact .inr ⟨opened, Queue.foreseen_wake nothing clock.now wish.deadline⟩
          · cases step
      | waiting seen wake =>
          rw [stepReceive] at step
          split at step
          · cases step
            trivial
          · split at step <;> cases step
            trivial
      | overdue =>
          rw [stepReceive] at step
          split at step <;> cases step
          trivial

end Call.Sound

/-- Someone is about to tell those who wait. -/
def Told (calls : List Call) : Prop := ∃ c ∈ calls, c.tells = true

/-- Every call is sound. -/
def Sound (s : Bustle) : Prop := ∀ c ∈ s.calls, c.Sound s.queue s.now (Told s.calls)

theorem told_split (before after : List Call) (c : Call) :
    Told (before ++ c :: after) ↔ c.tells = true ∨ Told (before ++ after) := by
  simp only [Told, List.mem_append, List.mem_cons]
  constructor
  · rintro ⟨d, mem | rfl | mem, tells⟩
    · exact .inr ⟨d, .inl mem, tells⟩
    · exact .inl tells
    · exact .inr ⟨d, .inr mem, tells⟩
  · rintro (tells | ⟨d, mem | mem, tells⟩)
    · exact ⟨c, .inr (.inl rfl), tells⟩
    · exact ⟨d, .inl mem, tells⟩
    · exact ⟨d, .inr (.inr mem), tells⟩

theorem told_follow (before after : List Call) (next : Next) :
    Told (before ++ (next.calls ++ after)) ↔ next.tells = true ∨ Told (before ++ after) := by
  cases next with
  | goes c => exact told_split before after c
  | ends a => simp [Next.calls, Next.tells]

namespace Sound

variable {s s' : Bustle}

theorem start (name : String) (style : TokenStyle) (clock : Clock) :
    (start name style clock).Sound := by
  intro c mem
  cases mem

/-- What happens to the queue alone. -/
theorem queue (sound : s.Sound) {q : Queue}
    (change : Careful s.now s.queue (Told s.calls) q (Told s.calls)) :
    ({ s with queue := q } : Bustle).Sound := by
  intro c mem
  exact (sound c mem).careful change

/-- A step of one call keeps all of them sound. -/
theorem step (sound : s.Sound) {i : Nat} {c : Call} {q : Queue} {next : Next}
    (here : s.calls[i]? = some c) (step : c.step s.queue s.clock = some (q, next)) :
    (s.follow i q next).Sound := by
  obtain ⟨before, after, split, follow⟩ := exists_follow here
  have own : c.Sound s.queue s.now (Told s.calls) := sound c (List.mem_of_getElem? here)
  have change := Call.step_careful step (Told (before ++ after))
  rw [← told_split, ← split, ← told_follow] at change
  have others (d : Call) (mem : d ∈ before ∨ d ∈ after) :
      d.Sound q s.now (Told (before ++ (next.calls ++ after))) := by
    refine (sound d ?_).careful change
    rw [split, List.mem_append, List.mem_cons]
    exact mem.imp_right .inr
  rw [follow]
  intro d mem
  obtain mem | mem := List.mem_append.mp mem
  · exact others d (.inl mem)
  · obtain mem | mem := List.mem_append.mp mem
    · cases next with
      | goes c' =>
          rw [List.mem_singleton.mp mem]
          exact own.step step
      | ends a => cases mem
    · exact others d (.inr mem)

/-- Every move keeps the calls sound. -/
theorem move (sound : s.Sound) {m : Move} (moved : s.move m = some s') : s'.Sound := by
  cases m with
  | call r =>
      cases moved
      intro c mem
      have told : Told s.calls → Told (s.calls ++ [.request r]) := by
        rintro ⟨d, mem, tells⟩
        exact ⟨d, List.mem_append_left _ mem, tells⟩
      obtain mem | new := List.mem_append.mp mem
      · exact (sound c mem).careful (.refl s.now s.queue told)
      · rw [List.mem_singleton.mp new]
        trivial
  | step i =>
      simp only [Bustle.move, Option.bind_eq_bind, Option.bind_eq_some_iff] at moved
      obtain ⟨c, here, ⟨q, next⟩, step, done⟩ := moved
      cases done
      exact sound.step here step
  | giveUp i =>
      rw [Bustle.move] at moved
      split at moved
      · rename_i here
        cases moved
        obtain ⟨before, after, split, erased, _⟩ := exists_split here
        have told : Told s.calls → Told (before ++ after) := by
          rw [split, told_split]
          exact fun told => told.resolve_left Bool.false_ne_true
        simp only [erased]
        intro c mem
        have was : c ∈ s.calls := by
          rw [split, List.mem_append, List.mem_cons]
          exact (List.mem_append.mp mem).imp_right .inr
        exact (sound c was).careful (.refl s.now s.queue told)
      · cases moved
  | pending | inFlight =>
      cases moved
      exact sound.queue (.quiet rfl rfl (fun _ foreseen => foreseen.reclaim) fun told => told)
  | failNextReceives n | failSettlements on =>
      cases moved
      exact sound.queue (.quiet rfl rfl (fun _ foreseen => foreseen) fun told => told)
  | reorder locked =>
      rw [Bustle.move] at moved
      split at moved
      · rename_i perm
        cases moved
        apply sound.queue
        exact .quiet rfl rfl (fun _ foreseen => foreseen.reorder perm) fun told => told
      · cases moved
  | pass n =>
      cases moved
      intro c mem
      exact (sound c mem).later (Nat.le_max_left ..)

/-- A run keeps the calls sound. -/
theorem run (sound : s.Sound) {moves : List Move} (ran : s.run moves = some s') : s'.Sound := by
  induction moves generalizing s with
  | nil =>
      cases ran
      exact sound
  | cons m rest ih =>
      rw [Bustle.run, Option.bind_eq_some_iff] at ran
      obtain ⟨next, moved, ran⟩ := ran
      exact ih (sound.move moved) ran

end Sound

/-! ## When everyone rests -/

/-- A call that has nothing to do is a receive that was not told and whose timer is still set. -/
theorem Call.of_idle {q : Queue} {clock : Clock} {c : Call} (idle : c.idle q clock = true) :
    ∃ wish seen wake, c = .receiving wish (.waiting seen wake) ∧ seen = q.arrivals ∧
      clock.due wake = false := by
  cases c with
  | request r | put s | unlock token how | tell answer => cases idle
  | receiving wish stage =>
      cases stage with
      | outset | doomed left | spared | listening seen | overdue => cases idle
      | waiting seen wake =>
          simp only [Call.idle, Bool.and_eq_true, beq_iff_eq, Bool.not_eq_true'] at idle
          exact ⟨wish, seen, wake, rfl, idle.1.symm, idle.2⟩

end Bustle

/-- Timers go off on time: none is late at this instant. -/
def Clock.Punctual (clock : Clock) : Prop := ∀ t ≤ clock.now, clock.due t = true

/-- Timers are on time at the multiples of their resolution. -/
theorem Clock.punctual_of_dvd {clock : Clock} (whole : clock.resolution ∣ clock.now) :
    clock.Punctual := by
  intro t le
  have on_time : clock.alarm clock.now ≤ clock.now := Nat.le_of_eq (clock.alarm_of_dvd whole)
  exact decide_eq_true (Nat.le_trans (clock.alarm_mono le) on_time)

namespace Bustle

variable {s : Bustle} {moves : List Move} {name : String} {style : TokenStyle} {clock : Clock}

/-- No wake-up is missed. Whatever was asked of a queue and in whatever order the steps of the
calls came, once everyone who could do something has done it, whoever is still at it is a receive
whose wait is not over: no message is in the line, no lock has expired, and the queue is open. -/
theorem no_wakeup_missed (ran : (start name style clock).run moves = some s) (rest : s.Resting)
    (punctual : s.clock.Punctual) :
    ∀ c ∈ s.calls, ∃ wish seen wake, c = .receiving wish (.waiting seen wake) ∧
      s.now < wish.deadline ∧ s.queue.ready = [] ∧ (∀ l ∈ s.queue.locked, s.now < l.expiresAt) ∧
      s.queue.closed = false := by
  intro c mem
  have sound := (Sound.start name style clock).run ran
  obtain ⟨wish, seen, wake, rfl, latest, early⟩ := Call.of_idle (rest c mem)
  obtain ⟨_, inTime, heard⟩ := sound _ mem
  have before : s.now < wake := by
    apply Nat.lt_of_not_le
    intro late
    rw [punctual wake late] at early
    cases early
  have nobody : ¬Told s.calls := by
    rintro ⟨d, mem, tells⟩
    obtain ⟨_, _, _, rfl, _⟩ := Call.of_idle (rest d mem)
    cases tells
  obtain ⟨opened, foreseen⟩ := (heard latest).resolve_left nobody
  obtain ⟨nothing, quiet⟩ := foreseen.resolve_left (Nat.not_le_of_lt before)
  refine ⟨wish, seen, wake, rfl, Nat.lt_of_lt_of_le before inTime, nothing, ?_, opened⟩
  intro l held
  exact Nat.lt_of_lt_of_le before (quiet l held)

instance (s : Bustle) : Decidable s.Resting :=
  inferInstanceAs (Decidable (∀ c ∈ s.calls, c.idle s.queue s.clock = true))

/-- One waits while a message is sent, but another one gets it, under a short lock, before the
first one has been told; so the first one looks again and waits for the lock to expire. -/
def rivals : List Move :=
  let wait := Duration.ofNanoseconds 100000000
  let lock := Duration.ofNanoseconds 5000000
  [.call (.receive 1 wait lock), .step 0, .step 0, .step 0, .step 0,
    .call (.send { body := [] }), .step 1, .step 1,
    .call (.receive 1 wait lock), .step 2, .step 2, .step 2, .step 2,
    .step 1, .step 0, .step 0, .step 0, .step 0, .pass 1000000]

/-- What `rivals` lead to. -/
def rivalry : Bustle := ((start "q" .numbered {}).run rivals).getD (start "q" .numbered {})

theorem no_wakeup_missed_rivalry :
    (start "q" .numbered {}).run rivals = some rivalry ∧ rivalry.Resting ∧
      rivalry.clock.Punctual ∧ rivalry.calls.length = 1 ∧ rivalry.queue.locked.length = 1 ∧
      ∀ c ∈ rivalry.calls, ∃ wish seen wake, c = .receiving wish (.waiting seen wake) ∧
        rivalry.now < wish.deadline ∧ rivalry.queue.ready = [] ∧
        (∀ l ∈ rivalry.queue.locked, rivalry.now < l.expiresAt) ∧
        rivalry.queue.closed = false := by
  have ran : (start "q" .numbered {}).run rivals = some rivalry := by
    have possible : ((start "q" .numbered {}).run rivals).isSome = true := by decide +kernel
    obtain ⟨s, ran⟩ := Option.isSome_iff_exists.mp possible
    rw [rivalry, ran, Option.getD_some]
  have rest : rivalry.Resting := by decide +kernel
  have punctual : rivalry.clock.Punctual := Clock.punctual_of_dvd (by decide +kernel)
  refine ⟨ran, rest, punctual, by decide +kernel, by decide +kernel, ?_⟩
  exact no_wakeup_missed ran rest punctual

end Bustle

end Courier
