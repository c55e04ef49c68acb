import Courier.Proofs.Queue.Moves
import Mathlib.Data.List.Nodup
import Mathlib.Data.List.Range

/-!
# A queue keeps account of its messages

`Queue.Accounts` relates a queue to its history. Every message that was sent is at one place: in
the line, under a lock, completed or dead-lettered; or it was lost, when a receive broke off. The
deliveries of a message, those that nobody got included, count on from the deliveries it had before
it was sent, one by one, and the copy that can still be delivered knows the count of the latest.

`Queue.Move.accounts` is the one proof by cases over all that can happen to a queue.
-/

namespace Courier

namespace Queue

/-! ## Ids -/

theorem messageId_injective (name : String) {m n : Nat} (h : messageId name m = messageId name n) :
    m = n := by
  have same : (m + 1).repr = (n + 1).repr := (String.append_right_inj _).mp h
  have read : ∀ k : Nat, Nat.ofDigitChars 10 k.repr.toList 0 = k := fun k => by
    rw [Nat.toList_repr, Nat.ofDigitChars_toDigits (by decide) (by decide)]
  have := (read (m + 1)).symm.trans ((congrArg (fun s => Nat.ofDigitChars 10 s.toList 0) same).trans
    (read (n + 1)))
  omega

/-! ## Places -/

end Queue

/-- What settlements tell of a message: its id and body. -/
def Stored.key (s : Stored) : String × Bytes := (s.message.id, s.message.body)

def Settled.key (e : Settled) : String × Bytes := (e.id, e.body)

@[simp] theorem Stored.key_settled (s : Stored) (reason : Option String) :
    (s.settled reason).key = s.key := rfl

@[simp] theorem Stored.key_again (s : Stored) : s.again.key = s.key := rfl

@[simp] theorem Stored.message_again (s : Stored) : s.again.message = s.message := rfl

/-- A count that can grow grows by one. -/
theorem Stored.deliveries_again {s : Stored} (room : s.deliveries ≠ Stored.most) :
    s.again.deliveries.toNat = s.deliveries.toNat + 1 := by
  have below : s.deliveries.toNat ≠ 2 ^ 32 - 1 := fun full =>
    room (UInt32.toNat_inj.mp (full.trans (by decide)))
  have bound := s.deliveries.toNat_lt
  have sum : s.again.deliveries.toNat = (s.deliveries.toNat + 1) % 2 ^ 32 := UInt32.toNat_add _ _
  omega

namespace Queue

/-- The messages that can still be delivered: those in the line and those under locks. -/
def live (q : Queue) : List Stored := q.ready ++ q.locked.map (·.stored)

/-- The messages that were completed or dead-lettered. -/
def gone (q : Queue) : List Settled := q.completed ++ q.deadLettered

/-- All messages of a queue, each as often as it is at some place. -/
def places (q : Queue) : List (String × Bytes) := q.live.map Stored.key ++ q.gone.map Settled.key

theorem live_reclaim (q : Queue) (now : Nat) : (q.reclaim now).live.Perm q.live := by
  have later : q.locked.filter (fun l => now < l.expiresAt) =
      q.locked.filter fun l => !decide (l.expiresAt ≤ now) :=
    List.filter_congr fun l _ => decide_eq_decide.mpr Nat.not_le.symm |>.trans (decide_not ..)
  have split : (q.locked.filter (fun l => l.expiresAt ≤ now) ++
      q.locked.filter (fun l => now < l.expiresAt)).Perm q.locked := by
    rw [later]
    exact List.filter_append_perm _ _
  simp only [live, reclaim, List.append_assoc, ← List.map_append]
  exact (split.map _).append_left _

theorem locked_release {q : Queue} {l : Locked} (serials : (q.locked.map (·.serial)).Nodup)
    (mem : l ∈ q.locked) : q.locked.Perm (l :: (q.release l).locked) := by
  have others : q.locked.filter (fun m => m.serial != l.serial) = q.locked.erase l := by
    rw [serials.of_map.erase_eq_filter]
    apply List.filter_congr
    intro m hm
    have apart : m.serial = l.serial ↔ m = l :=
      ⟨fun same => List.inj_on_of_nodup_map serials hm mem same, congrArg _⟩
    rw [bne, bne, Bool.not_inj_iff, Bool.eq_iff_iff, beq_iff_eq, beq_iff_eq, apart]
  simp only [release, others]
  exact List.perm_cons_erase mem

theorem live_release {q : Queue} {l : Locked} (serials : (q.locked.map (·.serial)).Nodup)
    (mem : l ∈ q.locked) : q.live.Perm (l.stored :: (q.release l).live) := by
  have locked := (locked_release serials mem).map (·.stored)
  exact (locked.append_left q.ready).trans List.perm_middle

theorem live_lockNext {q : Queue} {s : Stored} {rest : List Stored} (line : q.ready = s :: rest)
    (expiresAt : Nat) : ∃ others, q.live.Perm (s :: others) ∧
      (q.lockNext s rest expiresAt).live.Perm (s.again :: others) := by
  refine ⟨rest ++ q.locked.map (·.stored), by simp [live, line], ?_⟩
  simp only [live, lockNext, nextLock, List.map_append, List.map_cons, List.map_nil,
    ← List.append_assoc]
  exact List.perm_append_singleton _ _

/-- Settling takes a message from under a lock to one of the other places. -/
theorem places_record (q : Queue) (s : Stored) (how : Settling) :
    (q.record s how).places.Perm (s.key :: q.places) := by
  apply List.perm_iff_count.mpr
  intro key
  cases how <;>
    simp only [places, record, live, gone, List.map_append, List.map_cons, List.map_nil,
      Stored.key_settled, List.count_append, List.count_cons, List.count_nil] <;>
    omega

/-! ## Accounts -/

/-- The deliveries of a message carry it as it was sent, and their counts go on one by one from the
count at which it was sent. -/
def Counted (x : Stored) (k : Nat) (delivered : List Delivery) : Prop :=
  (delivered.filter fun d => d.message.id == x.message.id).map
      (fun d => (d.message, d.count.toNat)) =
    (List.range k).map fun i => (x.message, x.deliveries.toNat + i + 1)

theorem Counted.more {x : Stored} {k : Nat} {delivered : List Delivery} {d : Delivery}
    (counted : Counted x k delivered) (carries : d.message = x.message)
    (count : d.count.toNat = x.deliveries.toNat + k + 1) :
    Counted x (k + 1) (delivered ++ [d]) := by
  simp only [Counted] at counted
  simp [Counted, counted, carries, count, List.range_succ]

theorem Counted.other {x : Stored} {k : Nat} {delivered : List Delivery} {d : Delivery}
    (counted : Counted x k delivered) (other : d.message.id ≠ x.message.id) :
    Counted x k (delivered ++ [d]) := by
  simp only [Counted] at counted
  simp [Counted, counted, other]

/-- What a queue has of its messages is what was sent and not lost, as it was delivered. -/
structure Accounts (q : Queue) (sent : List Stored) (delivered : List Delivery)
    (lost : List Stored) : Prop where
  places : (q.places ++ lost.map Stored.key).Perm (sent.map Stored.key)
  ids : sent.map (·.message.id) = (List.range q.sent).map (messageId q.name)
  tokens : delivered.map (·.token) = (List.range q.issued).map fun n => .issued (n + 1)
  serials : (q.locked.map (·.serial)).Nodup
  held : ∀ l ∈ q.locked, deliveryOf l ∈ delivered
  known : ∀ d ∈ delivered, ∃ x ∈ sent, d.message = x.message
  counts : ∀ x ∈ sent, ∃ k, Counted x k delivered ∧
    ∀ s ∈ q.live, s.message.id = x.message.id →
      s.message = x.message ∧ s.deliveries.toNat = x.deliveries.toNat + k

namespace Accounts

variable {q q' : Queue} {sent lost : List Stored} {delivered : List Delivery}

/-- A new queue has nothing to account for. -/
theorem empty (name : String) (style : TokenStyle) :
    Accounts { name := name, tokens := style } [] [] [] := by
  constructor <;> simp [Queue.places, live, gone]

theorem ids_nodup (acc : Accounts q sent delivered lost) : (sent.map (·.message.id)).Nodup := by
  rw [acc.ids]
  exact List.nodup_range.map fun _ _ => messageId_injective q.name

theorem tokens_nodup (acc : Accounts q sent delivered lost) : (delivered.map (·.token)).Nodup := by
  rw [acc.tokens]
  apply List.nodup_range.map
  intro m n same
  simpa using same

theorem delivery_unique (acc : Accounts q sent delivered lost) {d e : Delivery} (hd : d ∈ delivered)
    (he : e ∈ delivered) (same : d.token = e.token) : d = e :=
  List.inj_on_of_nodup_map acc.tokens_nodup hd he same

/-- No token that was issued has a number above the last one. -/
theorem issued_le (acc : Accounts q sent delivered lost) {d : Delivery} (hd : d ∈ delivered)
    {n : Nat} (token : d.token = .issued n) : n ≤ q.issued := by
  have mem : LockToken.issued n ∈ delivered.map (·.token) := token ▸ List.mem_map_of_mem hd
  rw [acc.tokens] at mem
  obtain ⟨m, below, same⟩ := List.mem_map.mp mem
  rw [LockToken.issued.injEq] at same
  have := List.mem_range.mp below
  omega

/-- No message has the id that the next one gets. -/
theorem fresh_id (acc : Accounts q sent delivered lost) {x : Stored} (hx : x ∈ sent) :
    x.message.id ≠ messageId q.name q.sent := by
  intro same
  have mem : x.message.id ∈ sent.map (·.message.id) := List.mem_map_of_mem hx
  rw [acc.ids, same] at mem
  obtain ⟨n, below, again⟩ := List.mem_map.mp mem
  have := List.mem_range.mp below
  have := messageId_injective q.name again
  omega

theorem places_lost_nodup (acc : Accounts q sent delivered lost) :
    (q.places.map Prod.fst ++ lost.map (·.message.id)).Nodup := by
  have ids := (acc.places.map Prod.fst).nodup_iff
  rw [List.map_map, List.map_append, List.map_map] at ids
  exact ids.mpr acc.ids_nodup

theorem places_nodup (acc : Accounts q sent delivered lost) : (q.places.map Prod.fst).Nodup :=
  acc.places_lost_nodup.of_append_left

theorem live_nodup (acc : Accounts q sent delivered lost) : (q.live.map (·.message.id)).Nodup := by
  have nodup := acc.places_nodup
  rw [Queue.places, List.map_append, List.map_map] at nodup
  exact nodup.of_append_left

/-- What can still be delivered was neither completed nor dead-lettered. -/
theorem live_not_gone (acc : Accounts q sent delivered lost) {s : Stored} (hs : s ∈ q.live) :
    s.message.id ∉ q.gone.map (·.id) := by
  have nodup := acc.places_nodup
  rw [Queue.places, List.map_append, List.map_map, List.map_map] at nodup
  have apart := (List.nodup_append.mp nodup).2.2
  exact fun hg => apart s.message.id (List.mem_map_of_mem hs) _ hg rfl

/-- What can still be delivered was not lost. -/
theorem live_not_lost (acc : Accounts q sent delivered lost) {s : Stored} (hs : s ∈ q.live) :
    s.message.id ∉ lost.map (·.message.id) := by
  have apart := (List.nodup_append.mp acc.places_lost_nodup).2.2
  have mem : s.message.id ∈ q.places.map Prod.fst := by
    rw [Queue.places, List.map_append, List.map_map]
    exact List.mem_append_left _ (List.mem_map_of_mem (f := Prod.fst ∘ Stored.key) hs)
  exact fun hl => apart s.message.id mem _ hl rfl

/-- What can still be delivered was sent. -/
theorem live_known (acc : Accounts q sent delivered lost) {s : Stored} (hs : s ∈ q.live) :
    ∃ x ∈ sent, s.message = x.message := by
  have mem : s.key ∈ sent.map Stored.key :=
    acc.places.subset
      (List.mem_append_left _ (List.mem_append_left _ (List.mem_map_of_mem hs)))
  obtain ⟨x, hx, same⟩ := List.mem_map.mp mem
  obtain ⟨k, _, current⟩ := acc.counts x hx
  exact ⟨x, hx, (current s hs (congrArg Prod.fst same).symm).1⟩

/-- Later deliveries of a message have higher counts. -/
theorem counts_increase (acc : Accounts q sent delivered lost) :
    delivered.Pairwise fun d e => d.message.id = e.message.id → d.count < e.count := by
  apply List.pairwise_iff_forall_sublist.mpr
  intro d e both same
  obtain ⟨x, hx, carried⟩ := acc.known d (both.subset (by simp))
  obtain ⟨k, counted, _⟩ := acc.counts x hx
  have kept := (both.filter fun d => d.message.id == x.message.id).map
    fun d => (d.message, d.count.toNat)
  rw [counted] at kept
  have increase : ((List.range k).map fun i => (x.message, x.deliveries.toNat + i + 1)).Pairwise
      fun a b => a.2 < b.2 := by
    rw [List.pairwise_map]
    exact List.pairwise_lt_range.imp fun lt => by omega
  have ids : d.message.id = x.message.id ∧ e.message.id = x.message.id :=
    ⟨congrArg _ carried, same ▸ congrArg _ carried⟩
  have lt := increase.sublist kept
  simp only [ids, beq_self_eq_true, List.filter_cons_of_pos, List.filter_nil, List.map_cons,
    List.map_nil, List.pairwise_cons, List.mem_singleton, forall_eq] at lt
  exact UInt32.lt_iff_toNat_lt.mpr lt.1

/-- Moving messages from place to place keeps the accounts. -/
theorem rearrange (acc : Accounts q sent delivered lost) (name : q'.name = q.name)
    (same_sent : q'.sent = q.sent) (issued : q'.issued = q.issued)
    (places : q'.places.Perm q.places) (live : ∀ s ∈ q'.live, s ∈ q.live)
    (locked : q'.locked.Sublist q.locked) : Accounts q' sent delivered lost where
  places := (places.append_right _).trans acc.places
  ids := by rw [name, same_sent, acc.ids]
  tokens := by rw [issued, acc.tokens]
  serials := acc.serials.sublist (locked.map _)
  held l hl := acc.held l (locked.subset hl)
  known := acc.known
  counts x hx := by
    obtain ⟨k, counted, current⟩ := acc.counts x hx
    exact ⟨k, counted, fun s hs => current s (live s hs)⟩

theorem reclaim (acc : Accounts q sent delivered lost) (now : Nat) :
    Accounts (q.reclaim now) sent delivered lost :=
  acc.rearrange rfl rfl rfl (((live_reclaim q now).map _).append_right _)
    (fun _ hs => (live_reclaim q now).subset hs) List.filter_sublist

theorem reorder (acc : Accounts q sent delivered lost) {locked : List Locked}
    (perm : locked.Perm q.locked) :
    Accounts { q with locked := locked } sent delivered lost := by
  have live : ({ q with locked := locked } : Queue).live.Perm q.live :=
    (perm.map _).append_left q.ready
  refine ⟨?_, acc.ids, acc.tokens, ?_, ?_, acc.known, ?_⟩
  · exact (((live.map Stored.key).append_right _).append_right _).trans acc.places
  · exact (perm.map _).nodup_iff.mpr acc.serials
  · intro l mem
    exact acc.held l (perm.subset mem)
  · intro x hx
    obtain ⟨k, counted, current⟩ := acc.counts x hx
    exact ⟨k, counted, fun s hs => current s (live.subset hs)⟩

theorem settle (acc : Accounts q sent delivered lost) {l : Locked} (mem : l ∈ q.locked)
    (how : Settling) : Accounts ((q.release l).record l.stored how) sent delivered lost := by
  have parted := live_release acc.serials mem
  refine acc.rearrange ?_ ?_ ?_ ?_ ?_ ?_
  · cases how <;> rfl
  · cases how <;> rfl
  · cases how <;> rfl
  · exact (places_record _ _ how).trans ((parted.map Stored.key).append_right _).symm
  · intro s hs
    apply parted.symm.subset
    cases how with
    | complete => exact List.mem_cons_of_mem _ hs
    | deadLetter reason => exact List.mem_cons_of_mem _ hs
    | abandon fault =>
        simp only [record, live, List.append_assoc, List.mem_append, List.mem_cons,
          List.not_mem_nil, or_false] at hs
        simp only [live, List.mem_cons, List.mem_append]
        tauto
  · cases how <;> exact List.filter_sublist

theorem send (acc : Accounts q sent delivered lost) (o : Outgoing) :
    Accounts (q.send o).1 (sent ++ [o.stored (messageId q.name q.sent)]) delivered lost := by
  have more : (q.send o).1.live.Perm (o.stored (messageId q.name q.sent) :: q.live) := by
    simp only [live, Queue.send, List.append_assoc, List.singleton_append]
    exact List.perm_middle
  have unsent {m : Message} (x) (hx : x ∈ sent) (same : m = x.message) :
      m.id ≠ messageId q.name q.sent := same ▸ acc.fresh_id hx
  refine ⟨?places, ?ids, acc.tokens, acc.serials, acc.held, ?known, ?counts⟩
  case places =>
    rw [List.map_append]
    refine (((more.map Stored.key).append_right _).append_right _).trans ?_
    exact (acc.places.cons _).trans (List.perm_append_singleton _ _).symm
  case ids =>
    simp [acc.ids, Queue.send, List.range_succ, Outgoing.stored]
  case known =>
    intro d hd
    obtain ⟨x, hx, same⟩ := acc.known d hd
    exact ⟨x, List.mem_append_left _ hx, same⟩
  case counts =>
    intro x hx
    obtain hx | hx := List.mem_append.mp hx
    · obtain ⟨k, counted, current⟩ := acc.counts x hx
      refine ⟨k, counted, ?_⟩
      intro s hs same
      obtain rfl | hs := List.mem_cons.mp (more.subset hs)
      · exact absurd same.symm (acc.fresh_id hx)
      · exact current s hs same
    · obtain rfl := List.mem_singleton.mp hx
      refine ⟨0, ?_, fun s hs same => ?_⟩
      · have none_yet :
            delivered.filter (fun d => d.message.id == messageId q.name q.sent) = [] := by
          apply List.filter_eq_nil_iff.mpr
          intro d hd
          obtain ⟨x, hx, same⟩ := acc.known d hd
          simpa using unsent x hx same
        simp [Counted, Outgoing.stored, none_yet]
      · obtain rfl | hs := List.mem_cons.mp (more.subset hs)
        · exact ⟨rfl, rfl⟩
        · obtain ⟨x, hx, known⟩ := acc.live_known hs
          exact absurd same (unsent x hx known)

/-- Locking one message. -/
theorem lock (acc : Accounts q sent delivered lost) {s : Stored} {rest : List Stored}
    (line : q.ready = s :: rest) (room : s.deliveries ≠ Stored.most) (expiresAt : Nat) :
    Accounts (q.lockNext s rest expiresAt) sent
      (delivered ++ [deliveryOf (q.nextLock s expiresAt)]) lost := by
  obtain ⟨others, before, after⟩ := live_lockNext line expiresAt
  have hs : s ∈ q.live := before.symm.subset (List.mem_cons_self ..)
  obtain ⟨y, hy, carried⟩ := acc.live_known hs
  refine ⟨?places, acc.ids, ?tokens, ?serials, ?held, ?known, ?counts⟩
  case places =>
    refine .trans (.append_right _ (.append_right _ ?_)) acc.places
    exact (after.map _).trans (before.map Stored.key).symm
  case tokens =>
    simp [acc.tokens, lockNext, nextLock, deliveryOf, List.range_succ]
  case serials =>
    have fresh : q.issued + 1 ∉ q.locked.map (·.serial) := by
      intro mem
      obtain ⟨l, hl, same⟩ := List.mem_map.mp mem
      have := acc.issued_le (acc.held l hl) rfl
      omega
    simpa [lockNext, nextLock, List.nodup_append] using
      ⟨acc.serials, fun l hl same => fresh (List.mem_map.mpr ⟨l, hl, same⟩)⟩
  case held =>
    intro l hl
    obtain hl | hl := List.mem_append.mp hl
    · exact List.mem_append_left _ (acc.held l hl)
    · obtain rfl := List.mem_singleton.mp hl
      exact List.mem_append_right _ (List.mem_singleton_self _)
  case known =>
    intro d hd
    obtain hd | hd := List.mem_append.mp hd
    · exact acc.known d hd
    · obtain rfl := List.mem_singleton.mp hd
      exact ⟨y, hy, carried⟩
  case counts =>
    intro x hx
    obtain ⟨k, counted, current⟩ := acc.counts x hx
    by_cases same : s.message.id = x.message.id
    · obtain ⟨carries, count⟩ := current s hs same
      have grown : s.again.deliveries.toNat = x.deliveries.toNat + k + 1 := by
        rw [Stored.deliveries_again room, count]
      refine ⟨k + 1, counted.more carries grown, ?_⟩
      intro s' hs' same'
      obtain rfl | hs' := List.mem_cons.mp (after.subset hs')
      · exact ⟨carries, grown⟩
      · -- the message is at one place only, so no other copy of it can be delivered
        have nodup := (before.map (·.message.id)).nodup_iff.mp acc.live_nodup
        have absent := (List.nodup_cons.mp nodup).1
        exact absurd (List.mem_map.mpr ⟨s', hs', same'.trans same.symm⟩) absent
    · refine ⟨k, counted.other same, ?_⟩
      intro s' hs' same'
      obtain rfl | hs' := List.mem_cons.mp (after.subset hs')
      · exact absurd same' same
      · exact current s' (before.symm.subset (List.mem_cons_of_mem _ hs')) same'

/-- Losing one message. -/
theorem lose (acc : Accounts q sent delivered lost) {s : Stored} {rest : List Stored}
    (line : q.ready = s :: rest) :
    Accounts { q with ready := rest } sent delivered (lost ++ [s]) := by
  have live : q.live = s :: ({ q with ready := rest } : Queue).live := by simp [Queue.live, line]
  refine ⟨?_, acc.ids, acc.tokens, acc.serials, acc.held, acc.known, ?_⟩
  · refine .trans ?_ acc.places
    simp only [Queue.places, live, List.map_append, List.map_cons, List.map_nil, List.cons_append]
    rw [← List.append_assoc]
    exact List.perm_append_singleton _ _
  · intro x hx
    obtain ⟨k, counted, current⟩ := acc.counts x hx
    exact ⟨k, counted, fun s' hs' => current s' (live ▸ List.mem_cons_of_mem s hs')⟩

end Accounts

/-- Every move keeps the accounts. -/
theorem Move.accounts {now : Nat} {q q' : Queue} {h past : List Record} (move : Move now q h q')
    (acc : Accounts q (sends past) (issues past) (losses past)) :
    Accounts q' (sends (past ++ h)) (issues (past ++ h)) (losses (past ++ h)) := by
  simp only [sends_append, issues_append, losses_append]
  cases move with
  | still closed arrivals failingReceives failingSettlements =>
      simp only [sends_nil, issues_nil, losses_nil, List.append_nil]
      exact acc.rearrange rfl rfl rfl (.refl _) (fun _ hs => hs) (.refl _)
  | reclaim => simpa using acc.reclaim now
  | reorder locked perm => simpa using acc.reorder perm
  | send o => simpa using acc.send o
  | lock lock line room => simpa using acc.lock line room _
  | strand lock line room => simpa using acc.lock line room _
  | lose lock why line past => simpa using acc.lose line
  | settle how mem alive => simpa using acc.settle mem how
  | refuse token how fault => simpa using acc

theorem Moves.accounts {now : Nat} {q q' : Queue} {h past : List Record} (moves : Moves now q h q')
    (acc : Accounts q (sends past) (issues past) (losses past)) :
    Accounts q' (sends (past ++ h)) (issues (past ++ h)) (losses (past ++ h)) :=
  moves.preserve (P := fun q past => Accounts q (sends past) (issues past) (losses past))
    (fun _ move acc => move.accounts acc) acc

/-- What is completed or dead-lettered stays so. -/
theorem Move.gone_subset {now : Nat} {q q' : Queue} {h : List Record} (move : Move now q h q') :
    q.gone ⊆ q'.gone := by
  intro e he
  cases move with
  | settle how _ _ =>
      cases how with
      | abandon fault => exact he
      | complete =>
          obtain he | he := List.mem_append.mp he
          · exact List.mem_append_left _ (List.mem_append_left _ he)
          · exact List.mem_append_right _ he
      | deadLetter reason =>
          obtain he | he := List.mem_append.mp he
          · exact List.mem_append_left _ he
          · exact List.mem_append_right _ (List.mem_append_left _ he)
  | _ => exact he

/-- What is delivered, to somebody or to nobody, was still to be delivered. -/
theorem Move.issues_live {now : Nat} {q q' : Queue} {h : List Record} (move : Move now q h q')
    {d : Delivery} (hd : d ∈ issues h) : ∃ s ∈ q.live, d.message = s.message := by
  cases move with
  | @lock s rest period line room | @strand s rest period line room =>
      obtain rfl : d = _ := by simpa using hd
      exact ⟨s, by simp [live, line], rfl⟩
  | _ => simp at hd

end Queue

end Courier
