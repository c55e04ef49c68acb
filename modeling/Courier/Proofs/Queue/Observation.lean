import Courier.Proofs.Queue.Order
import Mathlib.Data.List.Find

/-!
# Looking on

Asking how many messages are pending or in flight returns the messages of expired locks to the
line. Whoever looks on thus decides when a message comes back: before or after one that is sent
meanwhile, and before or after one whose lock expires later. Nobody can tell the difference if
every deed that returns the messages of expired locks finds at most one of them, and if no message
is sent while one is outstanding (`Traffic.spaced`).

A queue that was looked on is `Queue.Watched`: some messages of expired locks are back already. The
two queues need not keep their locks in the same order.
-/

namespace Courier

open Queue (Accounts)

namespace Queue

/-- The locks that have expired and whose messages are not back in the line. -/
def expired (q : Queue) (now : Nat) : List Locked := q.locked.filter fun l => l.expiresAt ≤ now

/-- Whether a receive that looks gets to the messages. -/
def serves (q : Queue) : Bool := q.failingReceives == 0 && !q.closed

/-- The same queue with its locks kept in another order. -/
inductive Alike (q : Queue) : Queue → Prop where
  | order (locked : List Locked) : locked.Perm q.locked → Alike q { q with locked := locked }

/-- The same queue after the messages of some expired locks have come back. -/
inductive Watched (now : Nat) (q : Queue) : Queue → Prop where
  | back (gone kept : List Locked) : (gone ++ kept).Perm q.locked →
      (∀ l ∈ gone, l.expiresAt ≤ now) →
      Watched now q { q with ready := q.ready ++ gone.map (·.stored), locked := kept }

section Order

variable {q : Queue} {locked : List Locked}

theorem lock?_perm (perm : locked.Perm q.locked) (serials : (q.locked.map (·.serial)).Nodup)
    (token : LockToken) : ({ q with locked := locked } : Queue).lock? token = q.lock? token := by
  cases token with
  | foreign text => rfl
  | issued n =>
      apply List.find?_eq_find?_of_perm perm
      intro l hl m hm
      have named : l.serial = m.serial := by
        rw [beq_iff_eq.mp hl.2, beq_iff_eq.mp hm.2]
      exact List.inj_on_of_nodup_map serials (perm.subset hl.1) (perm.subset hm.1) named

theorem nextExpiry?_perm (perm : locked.Perm q.locked) :
    ({ q with locked := locked } : Queue).nextExpiry? = q.nextExpiry? := by
  have times := perm.map (·.expiresAt)
  apply Option.ext
  intro t
  simp only [nextExpiry?, List.min?_eq_some_iff, times.mem_iff]

end Order

theorem Alike.watched {q q' : Queue} (alike : Alike q q') (now : Nat) : Watched now q q' := by
  obtain ⟨locked, perm⟩ := alike
  have same : Watched now q _ := .back [] locked perm (by simp)
  rwa [List.map_nil, List.append_nil] at same

namespace Watched

variable {now : Nat} {q q' : Queue}

theorem refl (now : Nat) (q : Queue) : Watched now q q :=
  (Alike.order q.locked (.refl _)).watched now

theorem later (watched : Watched now q q') {time : Nat} (le : now ≤ time) :
    Watched time q q' := by
  obtain ⟨gone, kept, perm, old⟩ := watched
  exact .back gone kept perm fun l mem => (old l mem).trans le

theorem reorder (watched : Watched now q q') {locked : List Locked}
    (perm : locked.Perm q'.locked) : Watched now q { q' with locked := locked } := by
  obtain ⟨gone, kept, all, old⟩ := watched
  exact .back gone locked ((perm.append_left gone).trans all) old

theorem reordered (watched : Watched now q q') {locked : List Locked}
    (perm : locked.Perm q.locked) : Watched now { q with locked := locked } q' := by
  obtain ⟨gone, kept, all, old⟩ := watched
  exact .back (q := { q with locked := locked }) gone kept (all.trans perm.symm) old

/-- Who looks on once more returns some more messages. -/
theorem look (watched : Watched now q q') : Watched now q (q'.reclaim now) := by
  obtain ⟨gone, kept, perm, old⟩ := watched
  have more : Watched now q _ := .back (gone ++ kept.filter fun l => l.expiresAt ≤ now)
    (kept.filter fun l => now < l.expiresAt) ?_ ?_
  · rwa [List.map_append, ← List.append_assoc] at more
  · have parts := List.filter_append_perm (fun l : Locked => decide (l.expiresAt ≤ now)) kept
    simp only [← decide_not, Nat.not_le] at parts
    rw [List.append_assoc]
    exact (parts.append_left gone).trans perm
  · intro l mem
    obtain mem | mem := List.mem_append.mp mem
    · exact old l mem
    · simpa using (List.mem_filter.mp mem).2

theorem failNextReceives (watched : Watched now q q') (n : Nat) :
    Watched now (q.failNextReceives n) (q'.failNextReceives n) := by
  obtain ⟨gone, kept, perm, old⟩ := watched
  exact .back (q := q.failNextReceives n) gone kept perm old

theorem failSettlements (watched : Watched now q q') (on : Bool) :
    Watched now (q.failSettlements on) (q'.failSettlements on) := by
  obtain ⟨gone, kept, perm, old⟩ := watched
  exact .back (q := q.failSettlements on) gone kept perm old

theorem close (watched : Watched now q q') : Watched now q.close q'.close := by
  obtain ⟨gone, kept, perm, old⟩ := watched
  exact .back (q := q.close) gone kept perm old

/-- Nothing comes back while no expired lock is outstanding. -/
theorem alike (watched : Watched now q q') (none : q.expired now = []) : Alike q q' := by
  obtain ⟨gone, kept, perm, old⟩ := watched
  have empty : gone = [] := by
    apply List.eq_nil_iff_forall_not_mem.mpr
    intro l mem
    have held : l ∈ q.locked := perm.subset (List.mem_append_left kept mem)
    exact List.filter_eq_nil_iff.mp none l held (decide_eq_true (old l mem))
  subst empty
  have same := Alike.order kept perm
  rwa [List.map_nil, List.append_nil]

/-- Once expired locks are returned in both queues, the lines are the same if there was only one
lock to return. -/
theorem reclaim (watched : Watched now q q') (few : (q.expired now).length ≤ 1) :
    Alike (q.reclaim now) (q'.reclaim now) := by
  obtain ⟨gone, kept, perm, old⟩ := watched
  have all_old : gone.filter (fun l => l.expiresAt ≤ now) = gone :=
    List.filter_eq_self.mpr fun l mem => decide_eq_true (old l mem)
  have none_held : gone.filter (fun l => now < l.expiresAt) = [] := by
    apply List.filter_eq_nil_iff.mpr
    intro l mem
    simpa using old l mem
  have back : (gone ++ kept.filter fun l => l.expiresAt ≤ now).Perm (q.expired now) := by
    have some := perm.filter fun l => l.expiresAt ≤ now
    rwa [List.filter_append, all_old] at some
  have held : (kept.filter fun l => now < l.expiresAt).Perm (q.reclaim now).locked := by
    have some := perm.filter fun l => now < l.expiresAt
    rwa [List.filter_append, none_held, List.nil_append] at some
  -- a list of at most one lock has only one order
  have same : gone ++ (kept.filter fun l => l.expiresAt ≤ now) = q.expired now := by
    cases found : q.expired now with
    | nil => exact List.perm_nil.mp (found ▸ back)
    | cons l more =>
        rw [found, List.length_cons] at few
        have alone : more = [] := List.length_eq_zero_iff.mp (by omega)
        rw [found, alone] at back
        rw [alone]
        exact List.perm_singleton.mp back
  have line : q.ready ++ gone.map (·.stored) ++
      (kept.filter fun l => l.expiresAt ≤ now).map (·.stored) = (q.reclaim now).ready := by
    rw [List.append_assoc, ← List.map_append, same]
    rfl
  have ends := Alike.order _ held
  rw [Queue.reclaim] at ends ⊢
  simp only [Queue.reclaim] at line ⊢
  rwa [line]

theorem send (watched : Watched now q q') (none : q.expired now = []) (o : Outgoing) :
    Watched now (q.send o).1 (q'.send o).1 := by
  obtain ⟨locked, perm⟩ := watched.alike none
  exact (Alike.order (q := (q.send o).1) locked perm).watched now

/-- Settlements have the same answers. -/
theorem settle (watched : Watched now q q')
    (few : q.failingSettlements = false → (q.expired now).length ≤ 1)
    (serials : (q.locked.map (·.serial)).Nodup) (token : LockToken) (how : Settling) :
    (q'.settle now token how).2 = (q.settle now token how).2 ∧
      Watched now (q.settle now token how).1 (q'.settle now token how).1 := by
  have same : q'.failingSettlements = q.failingSettlements := by
    obtain ⟨gone, kept, perm, old⟩ := watched
    rfl
  cases failing : q.failingSettlements with
  | true =>
      rw [Queue.settle, Queue.settle, if_pos failing, if_pos (same.trans failing)]
      obtain ⟨gone, kept, perm, old⟩ := watched
      exact ⟨rfl, .back gone kept perm old⟩
  | false =>
      rw [failing] at same
      have alike := watched.reclaim (few failing)
      have serials : ((q.reclaim now).locked.map (·.serial)).Nodup :=
        (List.filter_sublist.map _).nodup serials
      simp only [Queue.settle, Queue.unlock, failing, same, Bool.false_eq_true, if_false]
      generalize q.reclaim now = p at alike serials ⊢
      generalize q'.reclaim now = p' at alike ⊢
      obtain ⟨locked, perm⟩ := alike
      rw [lock?_perm perm serials token]
      cases p.lock? token with
      | none => exact ⟨rfl, (Alike.order locked perm).watched now⟩
      | some l =>
          have released := perm.filter fun m : Locked => m.serial != l.serial
          refine ⟨rfl, ?_⟩
          cases how <;> exact (Alike.order _ released).watched now

/-- A queue that is open hands out the same messages. -/
theorem take (watched : Watched now q q') (few : (q.expired now).length ≤ 1)
    (opened : q.closed = false) (max : Nat) (lock : Duration) :
    (q'.take now max lock).2 = (q.take now max lock).2 ∧
      Alike (q.take now max lock).1 (q'.take now max lock).1 := by
  have opened' : q'.closed = false := by
    obtain ⟨gone, kept, perm, old⟩ := watched
    exact opened
  have alike := watched.reclaim few
  simp only [Queue.take, opened, opened', Bool.false_eq_true, if_false]
  generalize q.reclaim now = p at alike ⊢
  generalize q'.reclaim now = p' at alike ⊢
  obtain ⟨locked, perm⟩ := alike
  exact ⟨rfl, .order _ (perm.append_right _)⟩

end Watched

end Queue

namespace Receiving

open Queue (Alike Watched)

/-- Whether a receive that waits looks for messages when it goes on. -/
def looks (q : Queue) (clock : Clock) (r : Receiving) : Bool :=
  q.arrivals != r.seen || (clock.due r.wake && clock.now < r.deadline)

theorem look_watched {q q' : Queue} {now : Nat} (watched : Watched now q q')
    (few : q.serves = true → (q.expired now).length ≤ 1) (max : Nat) (lock : Duration)
    (deadline : Nat) :
    (look q' now max lock deadline).2 = (look q now max lock deadline).2 ∧
      Watched now (look q now max lock deadline).1 (look q' now max lock deadline).1 := by
  have same : q'.failingReceives = q.failingReceives := by
    obtain ⟨gone, kept, perm, old⟩ := watched
    rfl
  cases failing : q.failingReceives with
  | succ n =>
      obtain ⟨gone, kept, perm, old⟩ := watched
      simp only [look, Queue.look, failing, true_and]
      exact .back gone kept perm old
  | zero =>
      rw [failing] at same
      cases closed : q.closed with
      | true =>
          have closed' : q'.closed = true := by
            obtain ⟨gone, kept, perm, old⟩ := watched
            exact closed
          simp only [look, Queue.look, Queue.take, failing, same, closed, closed', if_true,
            true_and]
          exact watched
      | false =>
          have serves : q.serves = true := by simp [Queue.serves, failing, closed]
          obtain ⟨answer, alike⟩ := watched.take (few serves) closed max lock
          simp only [look, Queue.look, failing, same]
          generalize q.take now max lock = taken at answer alike ⊢
          generalize q'.take now max lock = taken' at answer alike ⊢
          obtain ⟨p, batch⟩ := taken
          obtain ⟨p', _⟩ := taken'
          cases answer
          obtain ⟨locked, perm⟩ := alike
          have after := (Alike.order locked perm).watched now
          cases batch with
          | failed f => exact ⟨rfl, after⟩
          | overflow => exact ⟨rfl, after⟩
          | batch ds =>
              cases ds with
              | nil =>
                  refine ⟨?_, after⟩
                  simp only [Queue.nextExpiry?_perm perm]
              | cons d rest => exact ⟨rfl, after⟩

theorem start_watched {q q' : Queue} {now : Nat} (watched : Watched now q q')
    (few : q.serves = true → (q.expired now).length ≤ 1) (max : Nat) (wait lock : Duration) :
    (start q' now max wait lock).2 = (start q now max wait lock).2 ∧
      Watched now (start q now max wait lock).1 (start q' now max wait lock).1 := by
  unfold start
  split
  · exact look_watched watched few max lock _
  · exact ⟨rfl, watched⟩

theorem resume_watched {q q' : Queue} {clock : Clock} (watched : Watched clock.now q q')
    (r : Receiving)
    (few : looks q clock r = true → q.serves = true → (q.expired clock.now).length ≤ 1) :
    (resume q' clock r).2 = (resume q clock r).2 ∧
      Watched clock.now (resume q clock r).1 (resume q' clock r).1 := by
  have same : q'.arrivals = q.arrivals := by
    obtain ⟨gone, kept, perm, old⟩ := watched
    rfl
  unfold resume
  rw [same]
  split
  · rename_i roused
    exact look_watched watched (few (by simp [looks, roused])) r.max r.lock r.deadline
  · split
    · rename_i due
      split
      · exact ⟨rfl, watched⟩
      · rename_i early
        exact look_watched watched (few (by simp [looks, due, Nat.not_le.mp early])) r.max r.lock
          r.deadline
    · exact ⟨rfl, watched⟩

end Receiving

namespace Traffic

/-! ## Deeds and their answers -/

/-- The answer to a receive or to a settlement. -/
inductive Reply where
  | received (outcome : Receiving.Outcome)
  | settled (answer : Except QueueFault Unit)

/-- The answer that a deed gets if it is a receive or a settlement. -/
def reply? (s : Traffic) : Deed → Option Reply
  | .act (.settle token how) => some (.settled (s.queue.settle s.now token how).2)
  | .receive max wait lock => some (.received (Receiving.start s.queue s.now max wait lock).2)
  | .resume i =>
    s.waiting[i]?.map fun r => .received (Receiving.resume s.queue s.state.clock r).2
  | _ => none

/-- The answers of a run to its receives and settlements. -/
def replies (s : Traffic) : List Deed → List Reply
  | [] => []
  | deed :: rest =>
    (s.reply? deed).toList ++ (s.step deed).1.replies rest

/-- The answers that a run may give if the locks may change their order between deeds. -/
inductive Answers : Traffic → List Deed → List Reply → Prop where
  | nil (s : Traffic) : Answers s [] []
  | deed {s : Traffic} {deed : Deed} {rest : List Deed} {later : List Reply} :
      Answers (s.step deed).1 rest later →
      Answers s (deed :: rest) ((s.reply? deed).toList ++ later)
  | reorder {s : Traffic} {deeds : List Deed} {replies : List Reply} {locked : List Locked} :
      locked.Perm s.queue.locked → Answers (s.withLocked locked) deeds replies →
      Answers s deeds replies

theorem answers_replies (s : Traffic) (deeds : List Deed) : Answers s deeds (s.replies deeds) := by
  induction deeds generalizing s with
  | nil => exact .nil s
  | cons deed rest ih => exact .deed (ih _)

/-- `watched` is `deeds` with any number of looks at the queue between them. -/
inductive Inserted : List Deed → List Deed → Prop where
  | nil : Inserted [] []
  | deed {deeds watched : List Deed} (deed : Deed) :
      Inserted deeds watched → Inserted (deed :: deeds) (deed :: watched)
  | pending {deeds watched : List Deed} :
      Inserted deeds watched → Inserted deeds (.act .pending :: watched)
  | inFlight {deeds watched : List Deed} :
      Inserted deeds watched → Inserted deeds (.act .inFlight :: watched)

theorem Inserted.refl (deeds : List Deed) : Inserted deeds deeds := by
  induction deeds with
  | nil => exact .nil
  | cons deed rest ih => exact .deed deed ih

/-! ## One expired lock at a time -/

/-- Whether a deed returns the messages of expired locks. -/
def returns (s : Traffic) : Deed → Bool
  | .act (.settle _ _) => !s.queue.failingSettlements
  | .act .pending => true
  | .act .inFlight => true
  | .receive _ _ _ => s.queue.serves
  | .resume i =>
    (s.waiting[i]?).any fun r => Receiving.looks s.queue s.state.clock r && s.queue.serves
  | _ => false

/-- No message is sent while an expired lock is outstanding, and a deed that returns the messages
of expired locks finds at most one. -/
def inTime (s : Traffic) : Deed → Bool
  | .act (.send _) => (s.queue.expired s.now).isEmpty
  | deed => !s.returns deed || (s.queue.expired s.now).length ≤ 1

/-- All deeds of a run come in time. -/
def spaced (s : Traffic) : List Deed → Bool
  | [] => true
  | deed :: rest =>
    s.inTime deed && (s.step deed).1.spaced rest

/-! ## Two runs -/

/-- The same traffic where somebody may have looked at the queue. -/
structure Beside (s s' : Traffic) : Prop where
  waiting : s'.waiting = s.waiting
  clock : s'.state.clock = s.state.clock
  queue : Queue.Watched s.now s.queue s'.queue

namespace Beside

variable {s s' : Traffic}

theorem refl (s : Traffic) : Beside s s := ⟨rfl, rfl, .refl s.now s.queue⟩

theorem reorder (beside : Beside s s') {locked : List Locked} (perm : locked.Perm s'.queue.locked) :
    Beside s (s'.withLocked locked) :=
  ⟨beside.waiting, beside.clock, beside.queue.reorder perm⟩

/-- Each may change the order of its locks on its own. -/
theorem reorders (beside : Beside s s') (locked : List Locked) :
    Beside (s.step (.reorder locked)).1 (s'.step (.reorder locked)).1 := by
  have first : Beside (s.step (.reorder locked)).1 s' := by
    simp only [Traffic.step]
    split
    · rename_i perm
      exact ⟨beside.waiting, beside.clock, beside.queue.reordered perm⟩
    · exact beside
  revert first
  generalize (s.step (.reorder locked)).1 = p
  intro first
  simp only [Traffic.step]
  split
  · rename_i perm
    exact first.reorder perm
  · exact first

theorem received (beside : Beside s s') (waiting : List Receiving) (lock : Duration)
    {a b : Queue × Receiving.Outcome} (same : b.2 = a.2) (watched : Queue.Watched s.now a.1 b.1) :
    Beside (s.received waiting lock a).1 (s'.received waiting lock b).1 :=
  ⟨by rw [Traffic.received, Traffic.received, same], beside.clock, watched⟩

theorem act (beside : Beside s s') (serials : (s.queue.locked.map (·.serial)).Nodup)
    (action : Exchange.Action) (ok : s.inTime (.act action) = true) :
    s'.reply? (.act action) = s.reply? (.act action) ∧
      Queue.Watched s.now (s.state.act action).1.queue (s'.state.act action).1.queue := by
  have now : s'.state.clock.now = s.state.clock.now := congrArg Clock.now beside.clock
  have watched := beside.queue
  cases action with
  | send o => exact ⟨rfl, watched.send (by simpa [inTime] using ok) o⟩
  | settle token how =>
      have few : s.queue.failingSettlements = false → (s.queue.expired s.now).length ≤ 1 := by
        intro working
        simpa [inTime, returns, working] using ok
      obtain ⟨answer, after⟩ := watched.settle few serials token how
      simp only [reply?, Exchange.State.act, Traffic.now, now]
      exact ⟨congrArg (fun a => some (Reply.settled a)) answer, after⟩
  | pending | inFlight =>
      have few : (s.queue.expired s.now).length ≤ 1 := by simpa [inTime, returns] using ok
      simp only [Exchange.State.act, now]
      exact ⟨rfl, (watched.reclaim few).watched s.now⟩
  | failNextReceives n => exact ⟨rfl, watched.failNextReceives n⟩
  | failSettlements on => exact ⟨rfl, watched.failSettlements on⟩
  | close => exact ⟨rfl, watched.close⟩
  | completed | abandoned | deadLettered | name | describe => exact ⟨rfl, watched⟩

/-- A deed that comes in time has the same answer in both, which stay side by side. -/
theorem step (beside : Beside s s') (serials : (s.queue.locked.map (·.serial)).Nodup)
    (deed : Deed) (ok : s.inTime deed = true) :
    s'.reply? deed = s.reply? deed ∧ Beside (s.step deed).1 (s'.step deed).1 := by
  have now : s'.now = s.now := congrArg Clock.now beside.clock
  cases deed with
  | act action =>
      obtain ⟨answer, watched⟩ := beside.act serials action ok
      refine ⟨answer, beside.waiting, ?_, ?_⟩
      · simpa [Traffic.step] using beside.clock
      · have same : (s.step (.act action)).1.now = s.now :=
          congrArg Clock.now (s.state.act_clock action)
        rw [same]
        exact watched
  | receive max wait lock =>
      have few : s.queue.serves = true → (s.queue.expired s.now).length ≤ 1 := by
        intro serves
        simpa [inTime, returns, serves] using ok
      obtain ⟨answer, watched⟩ := Receiving.start_watched beside.queue few max wait lock
      simp only [reply?, Traffic.step, now, beside.waiting]
      exact ⟨congrArg (fun o => some (Reply.received o)) answer,
        beside.received s.waiting lock answer watched⟩
  | resume i =>
      simp only [reply?, Traffic.step, beside.waiting, beside.clock]
      cases found : s.waiting[i]? with
      | none => exact ⟨rfl, beside⟩
      | some r =>
          have few : Receiving.looks s.queue s.state.clock r = true → s.queue.serves = true →
              (s.queue.expired s.now).length ≤ 1 := by
            intro looks serves
            simpa [inTime, returns, found, looks, serves] using ok
          obtain ⟨answer, watched⟩ := Receiving.resume_watched beside.queue r few
          exact ⟨congrArg (fun o => some (Reply.received o)) answer,
            beside.received (s.waiting.eraseIdx i) r.lock answer watched⟩
  | giveUp i =>
      refine ⟨rfl, ?_⟩
      simp only [Traffic.step, beside.waiting]
      exact ⟨rfl, beside.clock, beside.queue⟩
  | pass n =>
      refine ⟨rfl, beside.waiting, ?_, ?_⟩
      · simp only [Traffic.step, now, beside.clock]
      · exact beside.queue.later (Nat.le_max_left ..)
  | reorder locked => exact ⟨rfl, beside.reorders locked⟩

/-- Who looks at the second one changes nothing. -/
theorem look (beside : Beside s s') :
    Beside s { s' with state := { s'.state with queue := s'.queue.reclaim s'.now } } := by
  refine ⟨beside.waiting, beside.clock, ?_⟩
  have now : s'.now = s.now := congrArg Clock.now beside.clock
  rw [now]
  exact beside.queue.look

end Beside

/-- Whoever looks on, and in whatever order the locks are kept, the answers are the same. -/
theorem Answers.eq_replies {s s' : Traffic} {deeds watched : List Deed} {answers : List Reply}
    (run : Answers s' watched answers) (inserted : Inserted deeds watched) (beside : Beside s s')
    {past : List Queue.Record}
    (acc : Accounts s.queue (Queue.sends past) (Queue.issues past) (Queue.losses past))
    (spaced : s.spaced deeds = true) : answers = s.replies deeds := by
  -- the deeds are those of the run that is looked on, less the looks
  induction run generalizing s deeds past with
  | nil =>
      cases inserted
      rfl
  | reorder perm _ ih => exact ih inserted (beside.reorder perm) acc spaced
  | @deed s' deed rest later _ ih =>
      cases inserted with
      | pending inserted | inFlight inserted => exact ih inserted beside.look acc spaced
      | @deed deeds _ _ inserted =>
          obtain ⟨ok, more⟩ := Bool.and_eq_true_iff.mp spaced
          obtain ⟨answer, after⟩ := beside.step acc.serials deed ok
          rw [replies, answer]
          exact congrArg _ (ih inserted after ((s.step_moves deed).1.accounts acc) more)

/-! ## Looking on is harmless -/

/-- In a run whose deeds come in time, looking at the queue changes no answer to a receive or to a
settlement, wherever and however often it is done, and in whatever order the locks are kept. -/
theorem looking_on_is_harmless {name : String} {style : TokenStyle} {clock : Clock}
    {deeds watched : List Deed} (spaced : (start name style clock).spaced deeds = true)
    (inserted : Inserted deeds watched) :
    (start name style clock).replies watched = (start name style clock).replies deeds ∧
      ∀ answers, Answers (start name style clock) watched answers →
        answers = (start name style clock).replies deeds := by
  have acc : Accounts (start name style clock).queue (Queue.sends []) (Queue.issues [])
      (Queue.losses []) := .empty name style
  have all (answers : List Reply) (run : Answers (start name style clock) watched answers) :
      answers = (start name style clock).replies deeds :=
    run.eq_replies inserted (.refl _) acc spaced
  exact ⟨all _ (answers_replies _ watched), all⟩

/-- Two messages whose locks expire one after the other. -/
def patrol : List Deed :=
  [.act (.send { body := [1] }), .act (.send { body := [2] }),
    .receive 1 .zero (.ofNanoseconds 5), .pass 5, .receive 1 .zero (.ofNanoseconds 5), .pass 5,
    .act (.settle (.issued 2) .complete), .receive 2 .zero (.ofNanoseconds 5)]

theorem looking_on_is_harmless_patrol :
    let s := start "q" .numbered { resolution := 1 }
    let watched := patrol.take 4 ++ [.act .pending, .act .inFlight] ++ patrol.drop 4
    s.spaced patrol = true ∧ Inserted patrol watched ∧ s.replies watched = s.replies patrol := by
  intro s watched
  have spaced : s.spaced patrol = true := by decide +kernel
  have inserted : Inserted patrol watched :=
    .deed _ (.deed _ (.deed _ (.deed _ (.pending (.inFlight (.refl _))))))
  exact ⟨spaced, inserted, (looking_on_is_harmless spaced inserted).1⟩

/-! ## Looking on is not always harmless

That few locks expire between any two deeds is not enough. A message that is sent after a lock has
expired overtakes the message of that lock unless somebody looks at the queue before; and locks that
expire one by one are returned together if nobody does. -/

/-- At most one lock expires from one deed to the next; `last` is the time of the deed before. -/
def sparse (s : Traffic) (last : Nat) : List Deed → Bool
  | [] => true
  | deed :: rest =>
    let next := match deed with
      | .pass _ => last
      | _ => s.now
    let expiring := s.queue.locked.filter fun l => last ≤ l.expiresAt ∧ l.expiresAt ≤ s.now
    expiring.length ≤ 1 && (s.step deed).1.sparse next rest

/-- The messages that a run hands out, as their ids. -/
def handed : List Reply → List (List String)
  | [] => []
  | .received (.batch ds) :: rest => ds.map (·.message.id) :: handed rest
  | _ :: rest => handed rest

theorem sparse_is_not_enough :
    let s := start "q" .numbered { resolution := 1 }
    let first : List Deed :=
      [.act (.send { body := [1] }), .receive 1 .zero (.ofNanoseconds 5), .pass 10]
    let overtaking : List Deed :=
      [.act (.send { body := [2] }), .receive 1 .zero (.ofNanoseconds 5)]
    let crossing : List Deed :=
      [.act (.send { body := [1] }), .act (.send { body := [2] }),
        .receive 1 .zero (.ofNanoseconds 10), .receive 1 .zero (.ofNanoseconds 5), .pass 7]
    let pooling : List Deed :=
      [.act .completed, .pass 5, .receive 2 .zero (.ofNanoseconds 5)]
    (s.sparse 0 (first ++ overtaking) = true ∧
        Inserted (first ++ overtaking) (first ++ .act .pending :: overtaking) ∧
        s.replies (first ++ .act .pending :: overtaking) ≠ s.replies (first ++ overtaking)) ∧
      s.sparse 0 (crossing ++ pooling) = true ∧
        Inserted (crossing ++ pooling) (crossing ++ .act .pending :: pooling) ∧
        s.replies (crossing ++ .act .pending :: pooling) ≠ s.replies (crossing ++ pooling) := by
  intro s first overtaking crossing pooling
  refine ⟨⟨by decide +kernel, ?_, ?_⟩, by decide +kernel, ?_, ?_⟩
  · exact .deed _ (.deed _ (.deed _ (.pending (.refl _))))
  · intro same
    exact absurd (congrArg handed same) (by decide +kernel)
  · exact .deed _ (.deed _ (.deed _ (.deed _ (.deed _ (.pending (.refl _))))))
  · intro same
    exact absurd (congrArg handed same) (by decide +kernel)

end Traffic

end Courier
