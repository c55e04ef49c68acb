import Courier.Bench.Exchange

/-!
# What happens to a queue

The history of a queue tells of the messages sent, the deliveries made, what became of messages when
a receive broke off, and the settlements tried, in their order. `Queue.Move` lists all that can
happen to a queue at an instant, one message at a time, with what a history tells of it;
`Queue.Moves` is one move after the other.

Every operation is made of moves. An invariant of queues and their histories need only be shown
for the moves, and then holds whatever is done with a queue.
-/

namespace Courier

/-- The message of a sender as its queue keeps it. -/
def Outgoing.stored (o : Outgoing) (id : String) : Stored :=
  ⟨⟨id, o.body, o.contentType, o.properties⟩, o.priorDeliveries⟩

namespace Queue

/-- What a history of a queue tells. A receive that breaks off hands out nothing: what it has locked
is stranded, and what it has not is lost. -/
inductive Record where
  /-- A message was sent and got an id. -/
  | sent (id : String) (message : Outgoing)
  | delivered (time : Nat) (lock : Duration) (delivery : Delivery)
  | stranded (time : Nat) (lock : Duration) (delivery : Delivery)
  | lost (time : Nat) (lock : Duration) (why : Overflow) (stored : Stored)
  | settled (time : Nat) (token : LockToken) (how : Settling) (answer : Except QueueFault Unit)

namespace Record

/-- The message that was sent, as the queue keeps it. -/
def sent? : Record → Option Stored
  | .sent id message => some (message.stored id)
  | _ => none

/-- The delivery that a receiver got. -/
def delivery? : Record → Option Delivery
  | .delivered _ _ d => some d
  | _ => none

/-- The delivery for which a token was issued, whether anybody got it or not. -/
def issue? : Record → Option Delivery
  | .delivered _ _ d => some d
  | .stranded _ _ d => some d
  | _ => none

def loss? : Record → Option Stored
  | .lost _ _ _ s => some s
  | _ => none

end Record

/-- The messages sent in a history. -/
def sends (h : List Record) : List Stored := h.filterMap Record.sent?

/-- The deliveries made in a history. -/
def deliveries (h : List Record) : List Delivery := h.filterMap Record.delivery?

/-- The deliveries of a history with those that nobody got. -/
def issues (h : List Record) : List Delivery := h.filterMap Record.issue?

/-- The messages lost in a history. -/
def losses (h : List Record) : List Stored := h.filterMap Record.loss?

@[simp] theorem sends_nil : sends [] = [] := rfl

@[simp] theorem sends_append (h h' : List Record) : sends (h ++ h') = sends h ++ sends h' :=
  List.filterMap_append

@[simp] theorem deliveries_nil : deliveries [] = [] := rfl

@[simp] theorem deliveries_append (h h' : List Record) :
    deliveries (h ++ h') = deliveries h ++ deliveries h' :=
  List.filterMap_append

@[simp] theorem issues_nil : issues [] = [] := rfl

@[simp] theorem issues_append (h h' : List Record) : issues (h ++ h') = issues h ++ issues h' :=
  List.filterMap_append

@[simp] theorem losses_nil : losses [] = [] := rfl

@[simp] theorem losses_append (h h' : List Record) : losses (h ++ h') = losses h ++ losses h' :=
  List.filterMap_append

section Cons

variable (h : List Record)

@[simp] theorem sends_sent (id : String) (o : Outgoing) :
    sends (.sent id o :: h) = o.stored id :: sends h := rfl

@[simp] theorem deliveries_sent (id : String) (o : Outgoing) :
    deliveries (.sent id o :: h) = deliveries h := rfl

@[simp] theorem issues_sent (id : String) (o : Outgoing) :
    issues (.sent id o :: h) = issues h := rfl

@[simp] theorem losses_sent (id : String) (o : Outgoing) :
    losses (.sent id o :: h) = losses h := rfl

variable (t : Nat) (lock : Duration) (d : Delivery)

@[simp] theorem sends_delivered : sends (.delivered t lock d :: h) = sends h := rfl

@[simp] theorem deliveries_delivered :
    deliveries (.delivered t lock d :: h) = d :: deliveries h := rfl

@[simp] theorem issues_delivered : issues (.delivered t lock d :: h) = d :: issues h := rfl

@[simp] theorem losses_delivered : losses (.delivered t lock d :: h) = losses h := rfl

@[simp] theorem sends_stranded : sends (.stranded t lock d :: h) = sends h := rfl

@[simp] theorem deliveries_stranded : deliveries (.stranded t lock d :: h) = deliveries h := rfl

@[simp] theorem issues_stranded : issues (.stranded t lock d :: h) = d :: issues h := rfl

@[simp] theorem losses_stranded : losses (.stranded t lock d :: h) = losses h := rfl

variable (why : Overflow) (s : Stored)

@[simp] theorem sends_lost : sends (.lost t lock why s :: h) = sends h := rfl

@[simp] theorem deliveries_lost : deliveries (.lost t lock why s :: h) = deliveries h := rfl

@[simp] theorem issues_lost : issues (.lost t lock why s :: h) = issues h := rfl

@[simp] theorem losses_lost : losses (.lost t lock why s :: h) = s :: losses h := rfl

variable (token : LockToken) (how : Settling) (answer : Except QueueFault Unit)

@[simp] theorem sends_settled : sends (.settled t token how answer :: h) = sends h := rfl

@[simp] theorem deliveries_settled :
    deliveries (.settled t token how answer :: h) = deliveries h := rfl

@[simp] theorem issues_settled : issues (.settled t token how answer :: h) = issues h := rfl

@[simp] theorem losses_settled : losses (.settled t token how answer :: h) = losses h := rfl

end Cons

@[simp] theorem deliveries_batch (t : Nat) (lock : Duration) (ds : List Delivery) :
    deliveries (ds.map (.delivered t lock)) = ds := by
  simp [deliveries, List.filterMap_map, Function.comp_def, Record.delivery?]

/-- Whatever was delivered was issued. -/
theorem deliveries_sublist (h : List Record) : (deliveries h).Sublist (issues h) := by
  induction h with
  | nil => exact .refl []
  | cons r h ih =>
      cases r with
      | delivered t lock d => simpa using ih
      | stranded t lock d => simpa using ih.cons d
      | sent id o => simpa using ih
      | lost t lock why s => simpa using ih
      | settled t token how answer => simpa using ih

theorem mem_issues_of_mem {h : List Record} {d : Delivery} (mem : d ∈ deliveries h) :
    d ∈ issues h :=
  (deliveries_sublist h).subset mem

/-- Whether a token has settled its delivery. -/
def Spent (h : List Record) (token : LockToken) : Prop :=
  ∃ time how, .settled time token how (.ok ()) ∈ h

/-- The id of the message that is sent after `n` others. -/
def messageId (name : String) (n : Nat) : String := name ++ "-" ++ toString (n + 1)

/-- The next lock of a queue. -/
def nextLock (q : Queue) (s : Stored) (expiresAt : Nat) : Locked :=
  ⟨q.issued + 1, s.again, expiresAt⟩

/-- Locks one message; `rest` is what stays in the line. -/
def lockNext (q : Queue) (s : Stored) (rest : List Stored) (expiresAt : Nat) : Queue :=
  { q with
    ready := rest
    locked := q.locked ++ [q.nextLock s expiresAt]
    issued := q.issued + 1 }

/-- Takes a lock away. -/
def release (q : Queue) (l : Locked) : Queue :=
  { q with locked := q.locked.filter fun m => m.serial != l.serial }

/-- One thing that happens to a queue at an instant, with what a history tells of it. -/
inductive Move (now : Nat) : Queue → List Record → Queue → Prop where
  /-- What does not concern messages. -/
  | still (q : Queue) (closed : Bool) (arrivals failingReceives : Nat) (failingSettlements : Bool) :
      Move now q [] { q with
        closed := closed
        arrivals := arrivals
        failingReceives := failingReceives
        failingSettlements := failingSettlements }
  | reclaim (q : Queue) : Move now q [] (q.reclaim now)
  /-- The locks have no order of their own. -/
  | reorder (q : Queue) (locked : List Locked) :
      locked.Perm q.locked → Move now q [] { q with locked := locked }
  | send (q : Queue) (o : Outgoing) :
      Move now q [.sent (messageId q.name q.sent) o] (q.send o).1
  | lock {q : Queue} {s : Stored} {rest : List Stored} (lock : Duration) :
      q.ready = s :: rest → s.deliveries ≠ Stored.most →
      Move now q [.delivered now lock (deliveryOf (q.nextLock s (now + lock.nanoseconds)))]
        (q.lockNext s rest (now + lock.nanoseconds))
  | strand {q : Queue} {s : Stored} {rest : List Stored} (lock : Duration) :
      q.ready = s :: rest → s.deliveries ≠ Stored.most →
      Move now q [.stranded now lock (deliveryOf (q.nextLock s (now + lock.nanoseconds)))]
        (q.lockNext s rest (now + lock.nanoseconds))
  | lose {q : Queue} {s : Stored} {rest : List Stored} (lock : Duration) (why : Overflow) :
      q.ready = s :: rest → (why = .instant → Instant.last < now + lock.nanoseconds) →
      Move now q [.lost now lock why s] { q with ready := rest }
  | settle {q : Queue} {l : Locked} (how : Settling) :
      l ∈ q.locked → now < l.expiresAt →
      Move now q [.settled now (.issued l.serial) how (.ok ())] ((q.release l).record l.stored how)
  | refuse (q : Queue) (token : LockToken) (how : Settling) (fault : QueueFault) :
      Move now q [.settled now token how (.error fault)] q

/-- One move after the other. -/
inductive Moves (now : Nat) : Queue → List Record → Queue → Prop where
  | refl (q : Queue) : Moves now q [] q
  | step {q q₁ q' : Queue} {h h' : List Record} :
      Move now q h q₁ → Moves now q₁ h' q' → Moves now q (h ++ h') q'

theorem Move.moves {now : Nat} {q q' : Queue} {h : List Record} (move : Move now q h q') :
    Moves now q h q' := by
  simpa using Moves.step move (.refl q')

namespace Moves

variable {now : Nat} {q q₁ q' : Queue} {h h' : List Record}

theorem trans (first : Moves now q h q₁) (second : Moves now q₁ h' q') :
    Moves now q (h ++ h') q' := by
  induction first with
  | refl => exact second
  | step move _ ih =>
      rw [List.append_assoc]
      exact .step move (ih second)

/-- What every move preserves holds after all moves. -/
theorem preserve {P : Queue → List Record → Prop} (moves : Moves now q h q')
    (step : ∀ {q q' h} past, Move now q h q' → P q past → P q' (past ++ h))
    {past : List Record} (start : P q past) : P q' (past ++ h) := by
  induction moves generalizing past with
  | refl => simpa using start
  | step move _ ih =>
      rw [← List.append_assoc]
      exact ih (step past move start)

end Moves

/-! ## Operations -/

theorem send_moves (now : Nat) (q : Queue) (o : Outgoing) :
    Moves now q [.sent (q.send o).2 o] (q.send o).1 :=
  (Move.send q o).moves

theorem failNextReceives_moves (now : Nat) (q : Queue) (count : Nat) :
    Moves now q [] (q.failNextReceives count) :=
  (Move.still q q.closed q.arrivals count q.failingSettlements).moves

theorem failSettlements_moves (now : Nat) (q : Queue) (on : Bool) :
    Moves now q [] (q.failSettlements on) :=
  (Move.still q q.closed q.arrivals q.failingReceives on).moves

theorem close_moves (now : Nat) (q : Queue) : Moves now q [] q.close :=
  (Move.still q true (q.arrivals + 1) q.failingReceives q.failingSettlements).moves

theorem reorder_moves (now : Nat) {q : Queue} {locked : List Locked}
    (perm : locked.Perm q.locked) : Moves now q [] { q with locked := locked } :=
  (Move.reorder q locked perm).moves

theorem pending_moves (now : Nat) (q : Queue) : Moves now q [] (q.pending now).1 :=
  (Move.reclaim q).moves

theorem inFlight_moves (now : Nat) (q : Queue) : Moves now q [] (q.inFlight now).1 :=
  (Move.reclaim q).moves

/-- What is known of a lock that a token names after expired locks were returned. -/
theorem of_lock?_reclaim {now : Nat} {q : Queue} {token : LockToken} {l : Locked}
    (h : (q.reclaim now).lock? token = some l) :
    l ∈ (q.reclaim now).locked ∧ now < l.expiresAt ∧ token = .issued l.serial := by
  cases token with
  | foreign text => simp [lock?] at h
  | issued n =>
      have named : l.serial = n := by simpa using List.find?_some h
      have mem : l ∈ (q.reclaim now).locked := List.mem_of_find?_eq_some h
      exact ⟨mem, by simpa using (List.mem_filter.mp mem).2, by rw [named]⟩

theorem settle_moves (now : Nat) (q : Queue) (token : LockToken) (how : Settling) :
    Moves now q [.settled now token how (q.settle now token how).2]
      (q.settle now token how).1 := by
  simp only [settle, unlock]
  by_cases failing : q.failingSettlements = true
  · rw [if_pos failing]
    exact (Move.refuse q token how _).moves
  · rw [if_neg failing]
    cases found : (q.reclaim now).lock? token with
    | none => exact .step (.reclaim q) (Move.refuse _ token how _).moves
    | some l =>
        obtain ⟨mem, alive, rfl⟩ := of_lock?_reclaim found
        exact .step (.reclaim q) (Move.settle how mem alive).moves

/-- What a history tells of a receive that broke off. -/
def Spill.records (now : Nat) (lock : Duration) (spill : Spill) : List Record :=
  spill.strays.map (.stranded now lock) ++ spill.lost.map (.lost now lock spill.overflow)

/-- What a history tells of a look for messages. -/
def Take.records (now : Nat) (lock : Duration) : Take → List Record
  | .batch deliveries => deliveries.map (.delivered now lock)
  | .overflow spill => spill.records now lock
  | .failed _ => []

section LockAll

variable {now : Nat} {lock : Duration} {serial : Nat} {s : Stored}

theorem lockOne_eq_ok {l : Locked} (h : lockOne (Instant.plus? now lock) serial s = .ok l) :
    s.deliveries ≠ Stored.most ∧ now + lock.nanoseconds ≤ Instant.last ∧
      l = ⟨serial, s.again, now + lock.nanoseconds⟩ := by
  unfold lockOne at h
  split at h
  · cases h
  · rename_i room
    split at h
    · cases h
    · rename_i t expiry
      obtain ⟨fits, rfl⟩ := Instant.plus?_eq_some_iff.mp expiry
      cases h
      exact ⟨room, fits, rfl⟩

theorem lockOne_eq_error {why : Overflow}
    (h : lockOne (Instant.plus? now lock) serial s = .error why) :
    why = .count ∧ s.deliveries = Stored.most ∨
      why = .instant ∧ Instant.last < now + lock.nanoseconds := by
  unfold lockOne at h
  split at h
  · rename_i full
    cases h
    exact .inl ⟨rfl, full⟩
  · split at h
    · rename_i past
      cases h
      exact .inr ⟨rfl, Instant.plus?_eq_none_iff.mp past⟩
    · cases h

/-- Locking messages of a batch, one after the other, as far as it goes; `tell` is what a history
tells of each. -/
theorem lockAll_moves (tell : Delivery → Record)
    (one : ∀ {q : Queue} {s : Stored} {rest : List Stored}, q.ready = s :: rest →
      s.deliveries ≠ Stored.most →
      Move now q [tell (deliveryOf (q.nextLock s (now + lock.nanoseconds)))]
        (q.lockNext s rest (now + lock.nanoseconds)))
    (chosen rest : List Stored) (q : Queue) (line : q.ready = chosen ++ rest) :
    let (locks, left) := lockAll (Instant.plus? now lock) (q.issued + 1) chosen
    Moves now q ((locks.map deliveryOf).map tell)
      { q with
        ready := (left.elim [] (·.2)) ++ rest
        locked := q.locked ++ locks
        issued := q.issued + locks.length } := by
  induction chosen generalizing q with
  | nil =>
      have same : rest = q.ready := by simpa using line.symm
      subst same
      simpa [lockAll] using (.refl q : Moves now q [] q)
  | cons s chosen ih =>
      rw [lockAll]
      cases locking : lockOne (Instant.plus? now lock) (q.issued + 1) s with
      | error why =>
          have same : s :: chosen ++ rest = q.ready := line.symm
          simpa [same] using (.refl q : Moves now q [] q)
      | ok l =>
          obtain ⟨room, _, rfl⟩ := lockOne_eq_ok locking
          have later := ih (q.lockNext s (chosen ++ rest) (now + lock.nanoseconds)) rfl
          simpa [lockNext, nextLock, Nat.add_assoc, Nat.add_comm 1]
            using Moves.step (one line room) later

/-- What is left of a batch could not be locked. -/
theorem lockAll_left {chosen lost : List Stored} {locks : List Locked} {why : Overflow}
    (h : lockAll (Instant.plus? now lock) serial chosen = (locks, some (why, lost))) :
    ∃ s, lost.head? = some s ∧ (why = .count ∧ s.deliveries = Stored.most ∨
      why = .instant ∧ Instant.last < now + lock.nanoseconds) := by
  induction chosen generalizing serial locks with
  | nil => simp [lockAll] at h
  | cons s chosen ih =>
      rw [lockAll] at h
      cases locking : lockOne (Instant.plus? now lock) serial s with
      | error o =>
          simp only [locking, Prod.mk.injEq, Option.some.injEq] at h
          obtain ⟨_, rfl, rfl⟩ := h
          exact ⟨s, rfl, lockOne_eq_error locking⟩
      | ok l =>
          simp only [locking, Prod.mk.injEq] at h
          exact ih (Prod.ext rfl h.2)

/-- Losing messages, one after the other. -/
theorem lose_moves {why : Overflow}
    (past : why = .instant → Instant.last < now + lock.nanoseconds) (lost rest : List Stored)
    (q : Queue) (line : q.ready = lost ++ rest) :
    Moves now q (lost.map (.lost now lock why)) { q with ready := rest } := by
  induction lost generalizing q with
  | nil =>
      have same : rest = q.ready := by simpa using line.symm
      subst same
      exact .refl q
  | cons s lost ih =>
      exact .step (.lose lock why line past) (ih { q with ready := lost ++ rest } rfl)

end LockAll

theorem take_moves (now max : Nat) (lock : Duration) (q : Queue) :
    Moves now q ((q.take now max lock).2.records now lock) (q.take now max lock).1 := by
  simp only [take]
  split
  · exact .refl q
  · refine .step (h := []) (.reclaim q) ?_
    have line := (List.take_append_drop ((q.reclaim now).batchSize max) (q.reclaim now).ready).symm
    have delivering := lockAll_moves (.delivered now lock) (.lock lock) _ _ _ line
    have stranding := lockAll_moves (.stranded now lock) (.strand lock) _ _ _ line
    have left := @lockAll_left now lock ((q.reclaim now).issued + 1)
      ((q.reclaim now).ready.take ((q.reclaim now).batchSize max))
    generalize lockAll (Instant.plus? now lock) ((q.reclaim now).issued + 1)
      ((q.reclaim now).ready.take ((q.reclaim now).batchSize max)) = locked
      at delivering stranding left ⊢
    obtain ⟨locks, _ | ⟨why, lost⟩⟩ := locked
    · exact delivering
    · obtain ⟨s, _, reason⟩ := left rfl
      have past (instant : why = .instant) : Instant.last < now + lock.nanoseconds := by
        obtain ⟨rfl, _⟩ | ⟨_, past⟩ := reason
        · cases instant
        · exact past
      exact stranding.trans (lose_moves past lost _ _ rfl)

theorem look_moves (now max : Nat) (lock : Duration) (q : Queue) :
    Moves now q ((q.look now max lock).2.records now lock) (q.look now max lock).1 := by
  simp only [look]
  split
  · rename_i n _
    exact (Move.still q q.closed q.arrivals n q.failingSettlements).moves
  · exact take_moves now max lock q

end Queue

namespace Receiving

open Queue (Record Moves)

/-- What a history tells of a receive. -/
def Outcome.records (now : Nat) (lock : Duration) : Outcome → List Record
  | .batch deliveries => deliveries.map (.delivered now lock)
  | .overflow spill => spill.records now lock
  | _ => []

theorem mem_records {now time : Nat} {lock period : Duration} {d : Delivery} {o : Outcome}
    (mem : .delivered time period d ∈ o.records now lock) : time = now ∧ period = lock := by
  cases o with
  | batch ds =>
      obtain ⟨_, _, same⟩ := List.mem_map.mp mem
      cases same
      exact ⟨rfl, rfl⟩
  | _ => simp [Outcome.records, Queue.Spill.records] at mem

theorem settled_not_mem_records {now time : Nat} {lock : Duration} {o : Outcome}
    {token : LockToken} {how : Settling} {answer : Except QueueFault Unit} :
    .settled time token how answer ∉ o.records now lock := by
  cases o <;> simp [Outcome.records, Queue.Spill.records]

theorem deliveries_records_overflow (now : Nat) (lock : Duration) (spill : Queue.Spill) :
    Queue.deliveries (Outcome.records now lock (.overflow spill)) = [] := by
  simp [Outcome.records, Queue.Spill.records, Queue.deliveries, List.filterMap_map,
    Function.comp_def, Queue.Record.delivery?]

theorem look_moves (q : Queue) (now max : Nat) (lock : Duration) (deadline : Nat) :
    Moves now q ((look q now max lock deadline).2.records now lock)
      (look q now max lock deadline).1 := by
  have moves := q.look_moves now max lock
  unfold look
  generalize q.look now max lock = seen at moves ⊢
  obtain ⟨q', take⟩ := seen
  cases take with
  | failed f => exact moves
  | overflow => exact moves
  | batch ds => cases ds <;> exact moves

theorem start_moves (q : Queue) (now max : Nat) (wait lock : Duration) :
    Moves now q ((start q now max wait lock).2.records now lock)
      (start q now max wait lock).1 := by
  unfold start
  split
  · exact look_moves q now max lock _
  · exact .refl q

theorem resume_moves (q : Queue) (clock : Clock) (r : Receiving) :
    Moves clock.now q ((resume q clock r).2.records clock.now r.lock) (resume q clock r).1 := by
  unfold resume
  split
  · exact look_moves q clock.now r.max r.lock r.deadline
  · split
    · split
      · exact .refl q
      · exact look_moves q clock.now r.max r.lock r.deadline
    · exact .refl q

/-! A receive that waits goes on asking for the same locks. -/

theorem look_lock {q : Queue} {now max : Nat} {lock : Duration} {deadline : Nat} {r : Receiving}
    (waits : (look q now max lock deadline).2 = .waiting r) : r.lock = lock := by
  unfold look at waits
  split at waits <;> cases waits
  rfl

theorem start_lock {q : Queue} {now max : Nat} {wait lock : Duration} {r : Receiving}
    (waits : (start q now max wait lock).2 = .waiting r) : r.lock = lock := by
  unfold start at waits
  split at waits
  · exact look_lock waits
  · cases waits

theorem resume_lock {q : Queue} {clock : Clock} {r r' : Receiving}
    (waits : (resume q clock r).2 = .waiting r') : r'.lock = r.lock := by
  unfold resume at waits
  split at waits
  · exact look_lock waits
  · split at waits
    · split at waits
      · simp at waits
      · exact look_lock waits
    · cases waits
      rfl

end Receiving

namespace Exchange

open Queue (Record Moves)

/-- What a history tells of an action. -/
def Action.records (s : State) : Action → List Record
  | .send m => [.sent (s.queue.send m).2 m]
  | .settle token how =>
    [.settled s.clock.now token how (s.queue.settle s.clock.now token how).2]
  | _ => []

theorem State.act_moves (s : State) (a : Action) :
    Moves s.clock.now s.queue (a.records s) (s.act a).1.queue := by
  cases a with
  | send m => exact s.queue.send_moves s.clock.now m
  | settle token how => exact s.queue.settle_moves s.clock.now token how
  | failNextReceives n => exact s.queue.failNextReceives_moves s.clock.now n
  | failSettlements on => exact s.queue.failSettlements_moves s.clock.now on
  | close => exact s.queue.close_moves s.clock.now
  | pending => exact s.queue.pending_moves s.clock.now
  | inFlight => exact s.queue.inFlight_moves s.clock.now
  | completed | abandoned | deadLettered | name | describe => exact .refl s.queue

@[simp] theorem State.act_clock (s : State) (a : Action) : (s.act a).1.clock = s.clock := by
  cases a <;> rfl

end Exchange

end Courier
