import Courier.Proofs.Queue.Accounts
import Courier.Proofs.Queue.Batches
import Courier.Proofs.Queue.Bustle

/-!
# Calls that come to nothing

A settlement or a receive can fail at several of its steps, some of them after it has waited, and
whoever waits may give up. A call is followed here through a queue that others use at the same time
(`Bustle.Tale`): the steps that it makes itself are told one by one, each with the queue just before
and just after it.

Such a step is quiet (`Touch.Quiet`) if it changes nothing but that messages whose locks have
expired are in the line again. All steps of a call that comes to nothing are quiet, except the one
by which a receive that is made to fail takes note of it. The number of receives that still have to
fail is read at one step and written at the next, so what is written is one less than what was read.
-/

namespace Courier

namespace Queue

/-- A settlement with nobody in between that fails. -/
theorem settle_error {now : Nat} {q : Queue} {token : LockToken} {how : Settling} {f : QueueFault}
    (failed : (q.settle now token how).2 = .error f) :
    (∃ cause, f = .backend cause ∧ (q.settle now token how).1 = q) ∨
      ∃ text, f = .lockLost text ∧ (q.settle now token how).1 = q.reclaim now := by
  unfold settle unlock at failed ⊢
  by_cases refused : q.failingSettlements = true
  · rw [if_pos refused] at failed ⊢
    cases failed
    exact .inl ⟨_, rfl, rfl⟩
  · rw [if_neg refused] at failed ⊢
    cases found : (q.reclaim now).lock? token with
    | none =>
        simp only [found] at failed
        cases failed
        exact .inr ⟨_, rfl, by simp only [found]⟩
    | some l =>
        simp only [found] at failed
        cases failed

end Queue

namespace Receiving

/-- What a receive that looks once, with nobody in between, does to a queue if it has nothing to
show for it. -/
def Spares (now : Nat) (q q' : Queue) : Outcome → Prop
  | .failed .closed | .batch [] => q' = q
  | .failed (.backend _) =>
    ∃ left, q.failingReceives = left + 1 ∧ q' = { q with failingReceives := left }
  | .failed (.lockLost _) => False
  | .waiting _ => q' = q ∨ q' = q.reclaim now
  | .batch (_ :: _) | .overflow _ => True

theorem look_spares (q : Queue) (now max : Nat) (lock : Duration) (deadline : Nat) :
    Spares now q (look q now max lock deadline).1 (look q now max lock deadline).2 := by
  unfold look Queue.look
  cases failing : q.failingReceives with
  | succ left => exact ⟨left, failing, rfl⟩
  | zero =>
      cases taken : q.take now max lock with
      | mk q' take =>
          cases take with
          | overflow spill => exact trivial
          | failed f =>
              obtain ⟨rfl, rfl⟩ := Queue.take_failed taken
              rfl
          | batch ds =>
              cases ds with
              | nil => exact .inr (Queue.take_nothing taken).2.2
              | cons d rest => exact trivial

theorem start_spares (q : Queue) (now max : Nat) (wait lock : Duration) :
    Spares now q (start q now max wait lock).1 (start q now max wait lock).2 := by
  unfold start
  split
  · exact look_spares q now max lock _
  · exact trivial

theorem resume_spares (q : Queue) (clock : Clock) (r : Receiving) :
    Spares clock.now q (resume q clock r).1 (resume q clock r).2 := by
  unfold resume
  split
  · exact look_spares q clock.now r.max r.lock r.deadline
  · split
    · split
      · rfl
      · exact look_spares q clock.now r.max r.lock r.deadline
    · exact .inl rfl

end Receiving

namespace Bustle

/-- A step that a call makes: its time, and the queue before and after it. -/
structure Touch where
  time : Nat
  before : Queue
  after : Queue

/-- A call goes its way while others do as they like. The tale has the steps that it makes itself
and its answer, or no answer if it is under way or was given up where it stands. -/
inductive Tale : Bustle → Call → List Touch → Option Answer → Prop where
  | breaks (s : Bustle) (c : Call) : Tale s c [] none
  | others {s s' : Bustle} {c : Call} {ts : List Touch} {a : Option Answer} (m : Move) :
      s.move m = some s' → Tale s' c ts a → Tale s c ts a
  | goes {s : Bustle} {c c' : Call} {q : Queue} {ts : List Touch} {a : Option Answer} :
      c.step s.queue s.clock = some (q, .goes c') → Tale { s with queue := q } c' ts a →
      Tale s c (⟨s.now, s.queue, q⟩ :: ts) a
  | ends {s : Bustle} {c : Call} {q : Queue} {a : Answer} :
      c.step s.queue s.clock = some (q, .ends a) → Tale s c [⟨s.now, s.queue, q⟩] (some a)

namespace Touch

/-- No message is locked and none has another count: at most, messages whose locks have expired are
at the end of the line. -/
structure Quiet (t : Touch) : Prop where
  moved : t.after = t.before ∨ t.after = t.before.reclaim t.time
  locked : t.after.locked.Sublist t.before.locked
  live : t.after.live.Perm t.before.live
  gone : t.after.completed = t.before.completed ∧ t.after.abandoned = t.before.abandoned ∧
    t.after.deadLettered = t.before.deadLettered

namespace Quiet

variable {t : Touch}

theorem of_eq (same : t.after = t.before) : t.Quiet where
  moved := .inl same
  locked := same ▸ .refl _
  live := same ▸ .refl _
  gone := same ▸ ⟨rfl, rfl, rfl⟩

theorem of_reclaim (back : t.after = t.before.reclaim t.time) : t.Quiet where
  moved := .inr back
  locked := back ▸ List.filter_sublist
  live := back ▸ t.before.live_reclaim t.time
  gone := back ▸ ⟨rfl, rfl, rfl⟩

end Quiet

end Touch

variable {s : Bustle} {c : Call} {q q' : Queue} {clock : Clock} {ts : List Touch}
variable {a : Option Answer}

/-- A tale tells nothing, or it begins with a step of its call, whatever others did before. -/
theorem Tale.first (tale : Tale s c ts a) : (ts = [] ∧ a = none) ∨
    ∃ (s' : Bustle) (q : Queue),
      (∃ c' ts', c.step s'.queue s'.clock = some (q, .goes c') ∧
        ts = ⟨s'.now, s'.queue, q⟩ :: ts' ∧ Tale { s' with queue := q } c' ts' a) ∨
      ∃ a', c.step s'.queue s'.clock = some (q, .ends a') ∧ ts = [⟨s'.now, s'.queue, q⟩] ∧
        a = some a' := by
  induction tale with
  | breaks => exact .inl ⟨rfl, rfl⟩
  | others _ _ _ ih => exact ih
  | goes step tale => exact .inr ⟨_, _, .inl ⟨_, _, step, rfl, tale⟩⟩
  | ends step => exact .inr ⟨_, _, .inr ⟨_, step, rfl, rfl⟩⟩

/-! ## Settlements -/

theorem answer_of_tell {told answer : Answer} (tale : Tale s (.tell told) ts (some answer)) :
    answer = told := by
  obtain ⟨_, no⟩ | ⟨s', q, ⟨c', ts', step, _⟩ | ⟨a', step, _, same⟩⟩ := tale.first
  · cases no
  · cases step
  · cases step
    exact Option.some.inj same

theorem settleLocked_error {token : LockToken} {how : Settling} {now : Nat} {f : QueueFault}
    (ends : settleLocked q now token how = (q', .ends (.settled (.error f)))) :
    (∃ text, f = .lockLost text) ∧ q' = q.reclaim now := by
  unfold settleLocked Queue.unlock at ends
  cases found : (q.reclaim now).lock? token with
  | none =>
      simp only [found] at ends
      cases ends
      exact ⟨⟨_, rfl⟩, rfl⟩
  | some l =>
      simp only [found] at ends
      cases how <;> cases ends

/-- Who goes on after releasing a lock has settled. -/
theorem settleLocked_goes {token : LockToken} {how : Settling} {now : Nat}
    (goes : settleLocked q now token how = (q', .goes c)) : c = .tell (.settled (.ok ())) := by
  unfold settleLocked Queue.unlock at goes
  cases found : (q.reclaim now).lock? token with
  | none =>
      simp only [found] at goes
      cases goes
  | some l =>
      simp only [found] at goes
      cases how <;> cases goes
      rfl

theorem unlock_fails {token : LockToken} {how : Settling} {f : QueueFault}
    (tale : Tale s (.unlock token how) ts (some (.settled (.error f)))) :
    (∃ text, f = .lockLost text) ∧ ∀ t ∈ ts, t.Quiet := by
  obtain ⟨_, no⟩ | ⟨s', q, ⟨c', ts', step, _, rest⟩ | ⟨a', step, rfl, same⟩⟩ := tale.first
  · cases no
  · obtain rfl := settleLocked_goes (Option.some.inj step)
    cases answer_of_tell rest
  · cases same
    obtain ⟨lost, back⟩ := settleLocked_error (Option.some.inj step)
    refine ⟨lost, fun t mem => ?_⟩
    obtain rfl := List.mem_singleton.mp mem
    exact .of_reclaim back

/-- A settlement is refused at once, or it finds no lock. -/
theorem settle_fails {token : LockToken} {how : Settling} {f : QueueFault}
    (tale : Tale s (.request (.settle token how)) ts (some (.settled (.error f)))) :
    ((∃ cause, f = .backend cause) ∧ ∀ t ∈ ts, t.after = t.before) ∨
      (∃ text, f = .lockLost text) ∧ ∀ t ∈ ts, t.Quiet := by
  obtain ⟨_, no⟩ | ⟨s', q, ⟨c', ts', step, rfl, rest⟩ | ⟨a', step, rfl, same⟩⟩ := tale.first
  · cases no
  · simp only [Call.step] at step
    split at step
    · cases step
    · cases step
      obtain ⟨lost, quiet⟩ := unlock_fails rest
      exact .inr ⟨lost, List.forall_mem_cons.mpr ⟨.of_eq rfl, quiet⟩⟩
  · simp only [Call.step] at step
    split at step
    · cases step
      cases same
      exact .inl ⟨⟨_, rfl⟩, by simp⟩
    · cases step

/-! ## Receives -/

theorem stepReceive_goes {wish : Wish} {stage : Stage}
    (step : stepReceive q clock wish stage = some (q', .goes c)) :
    ∃ stage', c = .receiving wish stage' ∧ (q' = q ∨ q' = q.reclaim clock.now) ∧
      (∀ left, stage ≠ .doomed left) ∧
      ∀ left, stage' = .doomed left → q' = q ∧ q.failingReceives = left + 1 := by
  cases stage with
  | outset =>
      simp only [stepReceive] at step
      split at step
      · cases step
        exact ⟨_, rfl, .inl rfl, by simp, by simp⟩
      · rename_i left failing
        cases step
        refine ⟨_, rfl, .inl rfl, by simp, fun left' same => ?_⟩
        cases same
        exact ⟨rfl, failing⟩
  | doomed left => cases step
  | spared =>
      cases step
      exact ⟨_, rfl, .inl rfl, by simp, by simp⟩
  | listening seen =>
      simp only [stepReceive] at step
      split at step <;> cases step
      rename_i taken
      exact ⟨_, rfl, .inr (Queue.take_nothing taken).2.2, by simp, by simp⟩
  | waiting seen wake =>
      simp only [stepReceive] at step
      split at step
      · cases step
        exact ⟨_, rfl, .inl rfl, by simp, by simp⟩
      · split at step <;> cases step
        exact ⟨_, rfl, .inl rfl, by simp, by simp⟩
  | overdue =>
      simp only [stepReceive] at step
      split at step <;> cases step
      exact ⟨_, rfl, .inl rfl, by simp, by simp⟩

theorem stepReceive_ends {wish : Wish} {stage : Stage} {a : Answer}
    (step : stepReceive q clock wish stage = some (q', .ends a)) :
    (a = .received (.failed .closed) ∧ q' = q) ∨ (a = .received (.batch []) ∧ q' = q) ∨
      (∃ left cause, stage = .doomed left ∧ a = .received (.failed (.backend cause)) ∧
        q' = { q with failingReceives := left }) ∨
      (∃ d ds, a = .received (.batch (d :: ds))) ∨
      ∃ spill, a = .received (.overflow spill) := by
  cases stage with
  | outset =>
      simp only [stepReceive] at step
      split at step <;> cases step
  | doomed left =>
      cases step
      exact .inr (.inr (.inl ⟨left, _, rfl, rfl, rfl⟩))
  | spared => cases step
  | listening seen =>
      simp only [stepReceive] at step
      split at step
      · rename_i taken
        cases step
        obtain ⟨same, rfl⟩ := Queue.take_failed taken
        exact .inl ⟨rfl, same⟩
      · cases step
        exact .inr (.inr (.inr (.inr ⟨_, rfl⟩)))
      · cases step
      · rename_i ds some taken
        cases step
        obtain ⟨d, rest, rfl⟩ := List.exists_cons_of_ne_nil some
        exact .inr (.inr (.inr (.inl ⟨d, rest, rfl⟩)))
  | waiting seen wake =>
      simp only [stepReceive] at step
      split at step
      · cases step
      · split at step <;> cases step
  | overdue =>
      simp only [stepReceive] at step
      split at step <;> cases step
      exact .inr (.inl ⟨rfl, rfl⟩)

/-- A receive that is made to fail sees how many have to, and leaves one less to those that come
after. -/
structure TakesFailure (look leave : Touch) : Prop where
  looks : look.after = look.before
  counts : look.before.failingReceives = leave.after.failingReceives + 1
  otherwise : leave.after =
    { leave.before with failingReceives := leave.after.failingReceives }
  /-- If nobody comes in between, the count goes down by one. -/
  alone : leave.before = look.after →
    leave.before.failingReceives = leave.after.failingReceives + 1

/-- The answers of a receive that has nothing to show. -/
def Fruitless (a : Option Answer) : Prop :=
  a = none ∨ a = some (.received (.failed .closed)) ∨ a = some (.received (.batch []))

theorem Fruitless.received {o : Receiving.Outcome} (fruitless : Fruitless (some (.received o))) :
    o = .failed .closed ∨ o = .batch [] := by
  obtain no | same | same := fruitless
  · cases no
  · cases same
    exact .inl rfl
  · cases same
    exact .inr rfl

/-- Every step of a receive is quiet until it is made to fail or has got something. -/
theorem receiving_quiet {wish : Wish} {stage : Stage} (fruitless : Fruitless a)
    (tale : Tale s (.receiving wish stage) ts a) : ∀ t ∈ ts, t.Quiet := by
  induction ts generalizing s stage with
  | nil => simp
  | cons t rest ih =>
      obtain ⟨no, _⟩ | ⟨s', q, ⟨c', ts', step, told, tale⟩ | ⟨a', step, told, rfl⟩⟩ := tale.first
      · cases no
      · cases told
        obtain ⟨stage', rfl, same | back, _⟩ := stepReceive_goes step
        · exact List.forall_mem_cons.mpr ⟨.of_eq same, ih tale⟩
        · exact List.forall_mem_cons.mpr ⟨.of_reclaim back, ih tale⟩
      · cases told
        obtain ⟨_, same⟩ | ⟨_, same⟩ | ⟨_, _, _, rfl, _⟩ | ⟨d, ds, rfl⟩ | ⟨_, rfl⟩ :=
          stepReceive_ends step
        · simpa using Touch.Quiet.of_eq (t := ⟨s'.now, s'.queue, q⟩) same
        · simpa using Touch.Quiet.of_eq (t := ⟨s'.now, s'.queue, q⟩) same
        · obtain no | no := fruitless.received <;> cases no
        · obtain no | no := fruitless.received <;> cases no
        · obtain no | no := fruitless.received <;> cases no

theorem doomed_fails {wish : Wish} {left : Nat} {answer : Answer}
    (tale : Tale s (.receiving wish (.doomed left)) ts (some answer)) :
    ∃ leave, ts = [leave] ∧ leave.after = { leave.before with failingReceives := left } := by
  obtain ⟨_, no⟩ | ⟨s', q, ⟨c', ts', step, _⟩ | ⟨a', step, told, _⟩⟩ := tale.first
  · cases no
  · cases step
  · cases step
    exact ⟨_, told, rfl⟩

/-- A receive that is made to fail may have waited before. -/
theorem receiving_fails {wish : Wish} {stage : Stage} {cause : Cause}
    (fresh : ∀ left, stage ≠ .doomed left)
    (tale : Tale s (.receiving wish stage) ts (some (.received (.failed (.backend cause))))) :
    ∃ front look leave, ts = front ++ [look, leave] ∧ (∀ t ∈ front, t.Quiet) ∧
      TakesFailure look leave := by
  induction ts generalizing s stage with
  | nil =>
      obtain ⟨_, no⟩ | ⟨s', q, ⟨_, _, _, no, _⟩ | ⟨_, _, no, _⟩⟩ := tale.first <;> cases no
  | cons t rest ih =>
      obtain ⟨no, _⟩ | ⟨s', q, ⟨c', ts', step, told, tale⟩ | ⟨a', step, _, same⟩⟩ := tale.first
      · cases no
      · cases told
        obtain ⟨stage', rfl, changed, _, doomed⟩ := stepReceive_goes step
        by_cases fresh' : ∀ left, stage' ≠ .doomed left
        · obtain ⟨front, look, leave, rfl, quiet, takes⟩ := ih fresh' tale
          have first : Touch.Quiet ⟨s'.now, s'.queue, q⟩ := by
            obtain same | back := changed
            · exact .of_eq same
            · exact .of_reclaim back
          exact ⟨_ :: front, look, leave, rfl, List.forall_mem_cons.mpr ⟨first, quiet⟩, takes⟩
        · push Not at fresh'
          obtain ⟨left, rfl⟩ := fresh'
          obtain ⟨same, failing⟩ := doomed left rfl
          obtain ⟨leave, rfl, left'⟩ := doomed_fails tale
          have counted : leave.after.failingReceives = left := congrArg Queue.failingReceives left'
          refine ⟨[], _, leave, rfl, by simp, same, ?_, ?_, fun alone => ?_⟩
          · rw [counted]
            exact failing
          · rw [counted]
            exact left'
          · rw [counted, alone, ← failing, same]
      · cases same
        obtain ⟨no, _⟩ | ⟨no, _⟩ | ⟨left, _, no, _⟩ | ⟨_, _, no⟩ | ⟨_, no⟩ := stepReceive_ends step
        · cases no
        · cases no
        · exact absurd no (fresh left)
        · cases no
        · cases no

theorem receiving_fault {wish : Wish} {stage : Stage} {f : QueueFault}
    (tale : Tale s (.receiving wish stage) ts (some (.received (.failed f)))) :
    f = .closed ∨ ∃ cause, f = .backend cause := by
  induction ts generalizing s stage with
  | nil =>
      obtain ⟨_, no⟩ | ⟨s', q, ⟨_, _, _, no, _⟩ | ⟨_, _, no, _⟩⟩ := tale.first <;> cases no
  | cons t rest ih =>
      obtain ⟨no, _⟩ | ⟨s', q, ⟨c', ts', step, told, tale⟩ | ⟨a', step, _, same⟩⟩ := tale.first
      · cases no
      · cases told
        obtain ⟨stage', rfl, _⟩ := stepReceive_goes step
        exact ih tale
      · cases same
        obtain ⟨same, _⟩ | ⟨no, _⟩ | ⟨_, cause, _, same, _⟩ | ⟨_, _, no⟩ | ⟨_, no⟩ :=
          stepReceive_ends step
        · cases same
          exact .inl rfl
        · cases no
        · cases same
          exact .inr ⟨cause, rfl⟩
        · cases no
        · cases no

/-! ## Calls from their beginning -/

/-- A receive sets its deadline and goes on from its outset, or it breaks off at once. -/
theorem receive_begins {max : Nat} {wait lock : Duration}
    (tale : Tale s (.request (.receive max wait lock)) ts a) : (ts = [] ∧ a = none) ∨
      (∃ s' wish t rest, ts = t :: rest ∧ t.Quiet ∧ Tale s' (.receiving wish .outset) rest a) ∨
      ∃ t spill, ts = [t] ∧ t.Quiet ∧ a = some (.received (.overflow spill)) := by
  obtain none | ⟨s', q, ⟨c', ts', step, rfl, tale⟩ | ⟨_, step, rfl, rfl⟩⟩ := tale.first
  · exact .inl none
  · rw [Call.step] at step
    split at step <;> cases step
    exact .inr (.inl ⟨_, _, _, ts', rfl, .of_eq rfl, tale⟩)
  · rw [Call.step] at step
    split at step <;> cases step
    exact .inr (.inr ⟨_, _, rfl, .of_eq rfl, rfl⟩)

/-- What calls that come to nothing leave of a queue. -/
structure LeaveIntact (s : Bustle) : Prop where
  /-- A settlement that the queue refuses changes nothing at all. -/
  settle_refused : ∀ {token how ts cause},
    Tale s (.request (.settle token how)) ts (some (.settled (.error (.backend cause)))) →
      ∀ t ∈ ts, t.after = t.before
  settle_lockLost : ∀ {token how ts text},
    Tale s (.request (.settle token how)) ts (some (.settled (.error (.lockLost text)))) →
      ∀ t ∈ ts, t.Quiet
  /-- There are no other ways for a settlement to fail. -/
  settle_fault : ∀ {token how ts f},
    Tale s (.request (.settle token how)) ts (some (.settled (.error f))) →
      (∃ cause, f = .backend cause) ∨ ∃ text, f = .lockLost text
  /-- Nor does a receive change more that is told of the end, gets nothing, or is given up. -/
  receive_idle : ∀ {max wait lock ts a}, Fruitless a →
    Tale s (.request (.receive max wait lock)) ts a → ∀ t ∈ ts, t.Quiet
  receive_refused : ∀ {max wait lock ts cause},
    Tale s (.request (.receive max wait lock)) ts
      (some (.received (.failed (.backend cause)))) →
        ∃ front look leave, ts = front ++ [look, leave] ∧ (∀ t ∈ front, t.Quiet) ∧
          TakesFailure look leave
  receive_fault : ∀ {max wait lock ts f},
    Tale s (.request (.receive max wait lock)) ts (some (.received (.failed f))) →
      f = .closed ∨ ∃ cause, f = .backend cause
  /-- With nobody in between, it is the same with a settlement and with each look of a receive. -/
  settle_once : ∀ {token how f}, (s.queue.settle s.now token how).2 = .error f →
    (∃ cause, f = .backend cause ∧ (s.queue.settle s.now token how).1 = s.queue) ∨
      ∃ text, f = .lockLost text ∧ (s.queue.settle s.now token how).1 = s.queue.reclaim s.now
  receive_once : ∀ max wait lock, Receiving.Spares s.now s.queue
    (Receiving.start s.queue s.now max wait lock).1
    (Receiving.start s.queue s.now max wait lock).2
  resume_once : ∀ r, Receiving.Spares s.now s.queue (Receiving.resume s.queue s.clock r).1
    (Receiving.resume s.queue s.clock r).2

/-- Whatever others do with a queue in the meantime, a call that fails, gets nothing or is given up
does not lock a message, raise a count or record a settlement. -/
theorem failed_calls_leave_intact (s : Bustle) : LeaveIntact s := by
  constructor
  case settle_refused =>
    intro token how ts cause tale
    obtain ⟨_, same⟩ | ⟨⟨_, no⟩, _⟩ := settle_fails tale
    · exact same
    · cases no
  case settle_lockLost =>
    intro token how ts text tale
    obtain ⟨⟨_, no⟩, _⟩ | ⟨_, quiet⟩ := settle_fails tale
    · cases no
    · exact quiet
  case settle_fault =>
    intro token how ts f tale
    exact (settle_fails tale).imp And.left And.left
  case receive_idle =>
    intro max wait lock ts a fruitless tale
    obtain ⟨rfl, _⟩ | ⟨s', wish, t, rest, rfl, quiet, tale⟩ | ⟨t, _, rfl, quiet, _⟩ :=
      receive_begins tale
    · simp
    · exact List.forall_mem_cons.mpr ⟨quiet, receiving_quiet fruitless tale⟩
    · exact List.forall_mem_singleton.mpr quiet
  case receive_refused =>
    intro max wait lock ts cause tale
    obtain ⟨_, no⟩ | ⟨s', wish, t, rest, rfl, quiet, tale⟩ | ⟨_, _, _, _, no⟩ :=
      receive_begins tale
    · cases no
    · obtain ⟨front, look, leave, rfl, quiet', takes⟩ :=
        receiving_fails (fun _ no => by cases no) tale
      exact ⟨t :: front, look, leave, rfl, List.forall_mem_cons.mpr ⟨quiet, quiet'⟩, takes⟩
    · cases no
  case receive_fault =>
    intro max wait lock ts f tale
    obtain ⟨_, no⟩ | ⟨s', wish, t, rest, rfl, _, tale⟩ | ⟨_, _, _, _, no⟩ :=
      receive_begins tale
    · cases no
    · exact receiving_fault tale
    · cases no
  case settle_once => exact Queue.settle_error
  case receive_once => exact Receiving.start_spares s.queue s.now
  case resume_once => exact Receiving.resume_spares s.queue s.clock

/-- A queue with one message under a lock, and calls that come to nothing: a settlement that is
refused, one whose lock expires after it has begun, a receive that waits in vain, and one that is
made to fail while it waits. -/
theorem failed_calls_leave_intact_vain :
    let held : Locked := ⟨1, ⟨⟨"q-1", [], none, {}⟩, 1⟩, 5⟩
    let q : Queue := { name := "q", locked := [held], sent := 1, issued := 1 }
    let s : Bustle := ⟨q, ⟨0, 1⟩, []⟩
    let settle : Call := .request (.settle (.issued 1) .complete)
    let receive (n : Nat) : Call := .request (.receive 1 (.ofNanoseconds n) .zero)
    (∃ t cause, Tale s settle [t] (some (.settled (.error (.backend cause)))) ∧
        t.after = t.before) ∧
      (∃ t u text, Tale s settle [t, u] (some (.settled (.error (.lockLost text)))) ∧
        u.before.locked = [held] ∧ u.after.ready = [held.stored] ∧ t.Quiet ∧ u.Quiet) ∧
      (∃ ts, Tale s (receive 3) ts (some (.received (.batch []))) ∧ ts.length = 6 ∧
        ∀ t ∈ ts, t.Quiet) ∧
      ∃ ts cause, Tale s (receive 8) ts (some (.received (.failed (.backend cause)))) ∧
        ts.length = 8 ∧ ∃ front look leave, ts = front ++ [look, leave] ∧
          (∀ t ∈ front, t.Quiet) ∧ TakesFailure look leave := by
  intro held q s settle receive
  have begins (n wake : Nat) {ts : List Touch} {a : Option Answer}
      (first : (receive n).step q ⟨0, 1⟩ = some (q, .goes (.receiving ⟨1, .zero, n⟩ .outset)))
      (found : stepReceive q ⟨0, 1⟩ ⟨1, .zero, n⟩ (.listening 0) =
        some (q, .goes (.receiving ⟨1, .zero, n⟩ (.waiting 0 wake))))
      (waits : Tale s (.receiving ⟨1, .zero, n⟩ (.waiting 0 wake)) ts a) :
      Tale s (receive n) (List.replicate 4 ⟨0, q, q⟩ ++ ts) a :=
    .goes first (.goes rfl (.goes rfl (.goes found waits)))
  have wakes {q : Queue} {clock : Clock} {n wake : Nat} (none : (q.arrivals != 0) = false)
      (due : clock.due wake = true) :
      (Call.receiving ⟨1, .zero, n⟩ (.waiting 0 wake)).step q clock =
        some (q, .goes (.receiving ⟨1, .zero, n⟩ .overdue)) := by
    rw [Call.step, stepReceive, none, if_neg Bool.false_ne_true, if_pos due]
  refine ⟨?_, ?_, ?_, ?_⟩
  · have tale : Tale s settle _ _ := .others (.failSettlements true) rfl (.ends rfl)
    exact ⟨_, _, tale, (failed_calls_leave_intact s).settle_refused tale _ List.mem_cons_self⟩
  · have tale : Tale s settle _ _ := .goes rfl (.others (.pass 5) rfl (.ends rfl))
    have quiet := (failed_calls_leave_intact s).settle_lockLost tale
    exact ⟨_, _, _, tale, rfl, rfl, quiet _ List.mem_cons_self,
      quiet _ (List.mem_cons_of_mem _ List.mem_cons_self)⟩
  · have ended : Tale ⟨q, ⟨3, 1⟩, []⟩ (.receiving ⟨1, .zero, 3⟩ .overdue) _ _ := .ends rfl
    have tale := begins 3 3 rfl rfl (.others (.pass 3) rfl (.goes (wakes rfl (by decide)) ended))
    exact ⟨_, tale, rfl, (failed_calls_leave_intact s).receive_idle (.inr (.inr rfl)) tale⟩
  · let failing := q.failNextReceives 2
    have fails : Tale ⟨failing, ⟨5, 1⟩, []⟩ (.receiving ⟨1, .zero, 8⟩ (.doomed 1)) _ _ := .ends rfl
    have again : Tale ⟨failing, ⟨5, 1⟩, []⟩ (.receiving ⟨1, .zero, 8⟩ .overdue) _ _ :=
      .goes rfl (.goes rfl fails)
    have tale := begins 8 5 rfl rfl
      (.others (.pass 5) rfl (.others (.failNextReceives 2) rfl
        (.goes (wakes rfl (by decide)) again)))
    exact ⟨_, _, tale, rfl, (failed_calls_leave_intact s).receive_refused tale⟩

end Bustle

end Courier
