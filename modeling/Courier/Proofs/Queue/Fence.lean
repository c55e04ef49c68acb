import Courier.Proofs.Queue.Accounts

/-!
# Locks fence settlements

A token settles its delivery once, and only before the lock of the delivery expires. Whether a lock
that has expired is still among the locks of the queue makes no difference: `Queue.Fence` relates
the locks to the history and to the present instant, and does not mention when expired locks were
last returned.
-/

namespace Courier

namespace Queue

/-- Whether a token was issued for a delivery, be it that the receive broke off afterwards. -/
def Issued (h : List Record) (time : Nat) (lock : Duration) (d : Delivery) : Prop :=
  .delivered time lock d ∈ h ∨ .stranded time lock d ∈ h

/-- Whether a token could settle its delivery now, as far as a history tells: it was issued for it,
the lock of the delivery has not expired, and the token has not settled it before. -/
def Settleable (h : List Record) (now : Nat) (token : LockToken) : Prop :=
  ∃ time lock d, Issued h time lock d ∧ d.token = token ∧ now < time + lock.nanoseconds ∧
    ¬Spent h token

/-! ## Issued tokens -/

section Issued

variable {h h' : List Record} {time : Nat} {lock : Duration} {d : Delivery}

theorem issued_append :
    Issued (h ++ h') time lock d ↔ Issued h time lock d ∨ Issued h' time lock d := by
  simp only [Issued, List.mem_append]
  tauto

@[simp] theorem issued_delivered {t : Nat} {period : Duration} {e : Delivery} :
    Issued [.delivered t period e] time lock d ↔ time = t ∧ lock = period ∧ d = e := by
  simp [Issued]

@[simp] theorem issued_stranded {t : Nat} {period : Duration} {e : Delivery} :
    Issued [.stranded t period e] time lock d ↔ time = t ∧ lock = period ∧ d = e := by
  simp [Issued]

end Issued

/-! ## Spent tokens -/

section Spent

variable {h h' : List Record} {token : LockToken}

theorem spent_append : Spent (h ++ h') token ↔ Spent h token ∨ Spent h' token := by
  simp only [Spent, List.mem_append, exists_or]

/-- Only settlements that succeed spend a token. -/
theorem spent_append_of (unspent : ∀ time how, .settled time token how (.ok ()) ∉ h') :
    Spent (h ++ h') token ↔ Spent h token := by
  rw [spent_append, or_iff_left]
  rintro ⟨time, how, mem⟩
  exact unspent time how mem

@[simp] theorem spent_append_settled (t : Nat) (other : LockToken) (how : Settling) :
    Spent (h ++ [.settled t other how (.ok ())]) token ↔ Spent h token ∨ token = other := by
  rw [spent_append]
  simp [Spent]

end Spent

theorem mem_deliveries {h : List Record} {time : Nat} {lock : Duration} {d : Delivery}
    (mem : .delivered time lock d ∈ h) : d ∈ deliveries h :=
  List.mem_filterMap.mpr ⟨_, mem, rfl⟩

@[simp] theorem record_locked (q : Queue) (s : Stored) (how : Settling) :
    (q.record s how).locked = q.locked := by
  cases how <;> rfl

/-! ## The fence -/

/-- The locks of a queue are those of deliveries whose tokens are not spent, and a delivery without
a lock is past its time or its token is spent. -/
structure Fence (now : Nat) (q : Queue) (h : List Record) : Prop where
  accounts : Accounts q (sends h) (issues h) (losses h)
  held : ∀ l ∈ q.locked, ¬Spent h (.issued l.serial) ∧
    ∃ time lock, Issued h time lock (deliveryOf l) ∧ l.expiresAt = time + lock.nanoseconds
  fate : ∀ time lock d, Issued h time lock d →
    (∃ l ∈ q.locked, deliveryOf l = d ∧ l.expiresAt = time + lock.nanoseconds) ∨
      time + lock.nanoseconds ≤ now ∨ Spent h d.token
  spent : ∀ {token}, Spent h token → ∃ d ∈ issues h, d.token = token

namespace Fence

variable {now : Nat} {q q' : Queue} {h h' : List Record}

theorem empty (name : String) (style : TokenStyle) (now : Nat) :
    Fence now { name := name, tokens := style } [] where
  accounts := .empty name style
  held l hl := by simp at hl
  fate _ _ _ issued := by simp [Issued] at issued
  spent spent := by simp [Spent] at spent

/-- Time that passes changes nothing that has not expired. -/
theorem later (fence : Fence now q h) {time : Nat} (le : now ≤ time) : Fence time q h where
  accounts := fence.accounts
  held := fence.held
  fate time period d issued := by
    obtain held | expired | spent := fence.fate _ _ _ issued
    · exact .inl held
    · exact .inr (.inl (expired.trans le))
    · exact .inr (.inr spent)
  spent := fence.spent

/-- What issues no token, settles nothing and leaves the locks as they are, but perhaps in another
order, keeps the fence. -/
theorem keep (fence : Fence now q h)
    (accounts : Accounts q' (sends (h ++ h')) (issues (h ++ h')) (losses (h ++ h')))
    (locked : ∀ l, l ∈ q'.locked ↔ l ∈ q.locked)
    (none_issued : ∀ time lock d, ¬Issued h' time lock d)
    (unspent : ∀ time token how, .settled time token how (.ok ()) ∉ h') :
    Fence now q' (h ++ h') where
  accounts := accounts
  held l hl := by
    obtain ⟨unspent', time, lock, issued, expiry⟩ := fence.held l ((locked l).mp hl)
    rw [spent_append_of fun time how => unspent time _ how]
    exact ⟨unspent', time, lock, issued_append.mpr (.inl issued), expiry⟩
  fate time period d issued := by
    rw [spent_append_of fun time how => unspent time _ how]
    obtain issued | issued := issued_append.mp issued
    · obtain ⟨l, hl, same⟩ | after := fence.fate _ _ _ issued
      · exact .inl ⟨l, (locked l).mpr hl, same⟩
      · exact .inr after
    · exact absurd issued (none_issued _ _ _)
  spent spent := by
    rw [spent_append_of fun time how => unspent time _ how] at spent
    obtain ⟨d, hd, token⟩ := fence.spent spent
    exact ⟨d, by simp [hd], token⟩

theorem reclaim (fence : Fence now q h) : Fence now (q.reclaim now) h where
  accounts := fence.accounts.reclaim now
  held l hl := fence.held l (List.mem_of_mem_filter hl)
  fate time period d issued := by
    obtain ⟨l, hl, same, expiry⟩ | after := fence.fate _ _ _ issued
    · by_cases alive : now < l.expiresAt
      · exact .inl ⟨l, List.mem_filter.mpr ⟨hl, by simpa using alive⟩, same, expiry⟩
      · exact .inr (.inl (by omega))
    · exact .inr after
  spent := fence.spent

/-- A message is locked; `told` is what the history tells of it. -/
theorem lock (fence : Fence now q h) {s : Stored} {rest : List Stored} {lock : Duration}
    {told : Record}
    (accounts : Accounts (q.lockNext s rest (now + lock.nanoseconds)) (sends (h ++ [told]))
      (issues (h ++ [told])) (losses (h ++ [told])))
    (issued_iff : ∀ time period d, Issued [told] time period d ↔
      time = now ∧ period = lock ∧ d = deliveryOf (q.nextLock s (now + lock.nanoseconds)))
    (unspent : ∀ time token how, .settled time token how (.ok ()) ∉ [told]) :
    Fence now (q.lockNext s rest (now + lock.nanoseconds)) (h ++ [told]) where
  accounts := accounts
  held l hl := by
    rw [spent_append_of fun time how => unspent time _ how]
    obtain hl | hl := List.mem_append.mp hl
    · obtain ⟨unspent', time, period, issued, expiry⟩ := fence.held l hl
      exact ⟨unspent', time, period, issued_append.mpr (.inl issued), expiry⟩
    · obtain rfl := List.mem_singleton.mp hl
      refine ⟨?_, now, lock, issued_append.mpr (.inr ((issued_iff ..).mpr ⟨rfl, rfl, rfl⟩)), rfl⟩
      intro spent
      obtain ⟨d, hd, token⟩ := fence.spent spent
      have : q.issued + 1 ≤ q.issued := fence.accounts.issued_le hd token
      omega
  fate time period d issued := by
    rw [spent_append_of fun time how => unspent time _ how]
    obtain issued | issued := issued_append.mp issued
    · obtain ⟨l, hl, same⟩ | after := fence.fate _ _ _ issued
      · exact .inl ⟨l, List.mem_append_left _ hl, same⟩
      · exact .inr after
    · obtain ⟨rfl, rfl, rfl⟩ := (issued_iff ..).mp issued
      exact .inl ⟨_, List.mem_append_right _ (List.mem_singleton_self _), rfl, rfl⟩
  spent spent := by
    rw [spent_append_of fun time how => unspent time _ how] at spent
    obtain ⟨d, hd, token⟩ := fence.spent spent
    exact ⟨d, by simp [hd], token⟩

theorem settle (fence : Fence now q h) {l : Locked} (mem : l ∈ q.locked) (how : Settling) :
    Fence now ((q.release l).record l.stored how)
      (h ++ [.settled now (.issued l.serial) how (.ok ())]) where
  accounts := by simpa using fence.accounts.settle mem how
  held m hm := by
    rw [record_locked] at hm
    obtain ⟨hm, other⟩ := List.mem_filter.mp hm
    obtain ⟨unspent, time, lock, issued, expiry⟩ := fence.held m hm
    exact ⟨by simpa using ⟨unspent, by simpa using other⟩, time, lock,
      issued_append.mpr (.inl issued), expiry⟩
  fate time period d issued := by
    have before : Issued h time period d :=
      (issued_append.mp issued).resolve_right (by simp [Issued])
    simp only [record_locked, spent_append_settled]
    obtain ⟨m, hm, rfl, expiry⟩ | expired | spent := fence.fate _ _ _ before
    · by_cases same : m.serial = l.serial
      · exact .inr (.inr (.inr (congrArg LockToken.issued same)))
      · exact .inl ⟨m, List.mem_filter.mpr ⟨hm, by simpa using same⟩, rfl, expiry⟩
    · exact .inr (.inl expired)
    · exact .inr (.inr (.inl spent))
  spent spent := by
    simp only [issues_append, issues_settled, issues_nil, List.append_nil]
    obtain spent | rfl := spent_append_settled .. |>.mp spent
    · exact fence.spent spent
    · exact ⟨deliveryOf l, fence.accounts.held l mem, rfl⟩

end Fence

/-- Every move keeps the fence. -/
theorem Move.fence {now : Nat} {q q' : Queue} {h past : List Record} (move : Move now q h q')
    (fence : Fence now q past) : Fence now q' (past ++ h) := by
  have accounts := move.accounts fence.accounts
  cases move with
  | still | send | lose | refuse =>
      exact fence.keep accounts (fun _ => .rfl) (by simp [Issued]) (by simp)
  | reorder locked perm =>
      exact fence.keep accounts (fun _ => perm.mem_iff) (by simp [Issued]) (by simp)
  | reclaim => simpa using fence.reclaim
  | lock lock line room => exact fence.lock accounts (fun _ _ _ => issued_delivered) (by simp)
  | strand lock line room => exact fence.lock accounts (fun _ _ _ => issued_stranded) (by simp)
  | settle how mem alive => exact fence.settle mem how

theorem Moves.fence {now : Nat} {q q' : Queue} {h past : List Record} (moves : Moves now q h q')
    (fence : Fence now q past) : Fence now q' (past ++ h) :=
  moves.preserve (P := Fence now) (fun _ move => move.fence) fence

/-- A token that was not used can settle what it could settle. -/
theorem Settleable.append {now : Nat} {h h' : List Record} {token : LockToken}
    (settles : Settleable h now token) (unspent : ¬Spent h' token) :
    Settleable (h ++ h') now token := by
  obtain ⟨time, lock, d, issued, same, before, unspent'⟩ := settles
  refine ⟨time, lock, d, issued_append.mpr (.inl issued), same, before, ?_⟩
  intro spent
  exact (spent_append.mp spent).elim unspent' unspent

namespace Fence

variable {now : Nat} {q : Queue} {h : List Record}

/-- What has just been delivered can be settled. -/
theorem settleable_delivered (fence : Fence now q h) {q' : Queue} {h' : List Record}
    (fence' : Fence now q' (h ++ h')) {lock : Duration} {d : Delivery}
    (mem : .delivered now lock d ∈ h') (locked : 0 < lock.nanoseconds)
    (unspent : ¬Spent h' d.token) : Settleable (h ++ h') now d.token := by
  refine ⟨now, lock, d, .inl (List.mem_append_right _ mem), rfl, by omega, ?_⟩
  intro spent
  obtain spent | spent := spent_append.mp spent
  · obtain ⟨e, he, token⟩ := fence.spent spent
    have nodup := fence'.accounts.tokens_nodup
    rw [issues_append, List.map_append, List.nodup_append] at nodup
    exact nodup.2.2 e.token (List.mem_map_of_mem he) d.token
      (List.mem_map_of_mem (mem_issues_of_mem (mem_deliveries mem))) token
  · exact unspent spent

/-- A token could still settle its delivery just when the lock is among those that have not
expired. -/
theorem settleable_iff (fence : Fence now q h) (token : LockToken) :
    Settleable h now token ↔ ∃ l ∈ (q.reclaim now).locked, token = .issued l.serial := by
  constructor
  · rintro ⟨time, lock, d, issued, rfl, before, unspent⟩
    obtain ⟨l, hl, rfl, expiry⟩ | expired | spent := fence.fate _ _ _ issued
    · exact ⟨l, List.mem_filter.mpr ⟨hl, by simpa [expiry] using before⟩, rfl⟩
    · omega
    · exact absurd spent unspent
  · rintro ⟨l, hl, rfl⟩
    obtain ⟨hl, alive⟩ := List.mem_filter.mp hl
    obtain ⟨unspent, time, lock, issued, expiry⟩ := fence.held l hl
    exact ⟨time, lock, deliveryOf l, issued, rfl, by simpa [expiry] using alive, unspent⟩

/-- Unless settlements are made to fail, a settlement succeeds just when its token could settle,
and every other one tells that the lock is lost. -/
theorem settle_answer (fence : Fence now q h) (working : q.failingSettlements = false)
    (token : LockToken) (how : Settling) :
    ((q.settle now token how).2 = .ok () ↔ Settleable h now token) ∧
      (¬Settleable h now token →
        (q.settle now token how).2 = .error (.lockLost (q.tokenText token))) := by
  rw [fence.settleable_iff token]
  simp only [Queue.settle, unlock, working, Bool.false_eq_true, if_false]
  cases found : (q.reclaim now).lock? token with
  | some l =>
      obtain ⟨mem, _, named⟩ := of_lock?_reclaim found
      exact ⟨⟨fun _ => ⟨l, mem, named⟩, fun _ => rfl⟩, fun lost => absurd ⟨l, mem, named⟩ lost⟩
  | none =>
      have lost : ¬∃ l ∈ (q.reclaim now).locked, token = .issued l.serial := by
        rintro ⟨l, mem, rfl⟩
        have := List.find?_eq_none.mp found l mem
        simp at this
      exact ⟨⟨fun settled => by simp at settled, fun held => absurd held lost⟩, fun _ => rfl⟩

/-- Of the deliveries of a message at most one can still be settled. -/
theorem settleable_unique (fence : Fence now q h) {d e : Delivery} (hd : d ∈ issues h)
    (he : e ∈ issues h) (same : d.message.id = e.message.id)
    (settles : Settleable h now d.token) (settles' : Settleable h now e.token) : d = e := by
  have acc := fence.accounts
  have under : ∀ {d}, d ∈ issues h → Settleable h now d.token →
      ∃ l ∈ q.locked, deliveryOf l = d := by
    intro d hd settles
    obtain ⟨l, hl, token⟩ := (fence.settleable_iff _).mp settles
    have hl := List.mem_of_mem_filter hl
    exact ⟨l, hl, acc.delivery_unique (acc.held l hl) hd token.symm⟩
  obtain ⟨l, hl, rfl⟩ := under hd settles
  obtain ⟨m, hm, rfl⟩ := under he settles'
  have nodup : (q.locked.map fun l => l.stored.message.id).Nodup := by
    have nodup := acc.live_nodup
    rw [live, List.map_append, List.map_map] at nodup
    exact nodup.of_append_right
  exact congrArg deliveryOf (List.inj_on_of_nodup_map nodup hl hm same)

end Fence

end Queue

end Courier
