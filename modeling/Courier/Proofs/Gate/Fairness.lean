import Courier.Proofs.Gate.Schedules

/-!
# Fair gates

Whatever callers do at a gate and in whatever order they go on, no slot is lost and none is given
twice, slots are handed out in the order of the requests, and a caller that was cancelled or that
finds the gate closed never gets in (`gate_is_fair`).

A caller changes by what it does itself and by its cancellation only (`Caller.moved`). What becomes
of one in the course of moves is told by induction over them.
-/

namespace Courier

namespace Crowd

variable {s : Crowd} {n i : Nat} {c : Caller} {roll : List Nat}

/-! ## One caller in the course of moves -/

/-- What a move makes of the caller at a place. -/
def Caller.moved (g : Gate) (i : Nat) (c : Caller) : Move → Caller
  | .poll j => if i = j then (c.step g).2 else c
  | .giveBack j => if i = j then (c.leave g).2 else c
  | .cancel j => if i = j then { c with cancelled := true } else c
  | .come .. | .close => c

theorem caller_turn (here : s.callers[i]? = some c) (j : Nat)
    (what : Gate → Caller → Gate × Caller) :
    (s.turn j what).callers[i]? = some (if i = j then (what s.gate c).2 else c) := by
  unfold turn
  split
  · rename_i d there
    simp only
    by_cases same : i = j
    · subst same
      obtain rfl : c = d := Option.some.inj (here.symm.trans there)
      rw [List.getElem?_set_self (List.getElem?_eq_some_iff.mp here).1, if_pos rfl]
    · rw [List.getElem?_set_ne (Ne.symm same), if_neg same, here]
  · rename_i nobody
    have other : i ≠ j := by
      rintro rfl
      exact nomatch here.symm.trans nobody
    rw [if_neg other, here]

theorem caller_move (here : s.callers[i]? = some c) (m : Move) :
    (s.move m).callers[i]? = some (c.moved s.gate i m) := by
  cases m with
  | come name cancelled => exact getElem?_append_of_some here _
  | poll j => exact caller_turn here j _
  | giveBack j => exact caller_turn here j _
  | cancel j => exact caller_turn here j _
  | close => exact here

theorem closed_move (closed : s.gate.closed = true) (m : Move) : (s.move m).gate.closed = true := by
  have turn (j : Nat) (what : Gate → Caller → Gate × Caller)
      (each : ∀ d, (what s.gate d).1.closed = true) : (s.turn j what).gate.closed = true := by
    unfold Crowd.turn
    split
    · exact each _
    · exact closed
  cases m with
  | come => exact closed
  | poll j => exact turn j _ fun d => (d.step_goes s.gate).closed closed
  | giveBack j =>
      refine turn j _ fun d => ?_
      unfold Caller.leave
      split
      · exact (s.gate.release_closed _).trans closed
      · exact closed
  | cancel j => exact turn j (fun g d => (g, { d with cancelled := true })) fun _ => closed
  | close => rfl

namespace Caller

variable {g : Gate}

theorem step_cancelled (g : Gate) (c : Caller) : (c.step g).2.cancelled = c.cancelled := by
  unfold step
  split
  · split
    · rfl
    · split <;> rfl
  · split <;> rfl
  · rfl

theorem moved_cancelled (cancelled : c.cancelled = true) (m : Move) :
    (c.moved g i m).cancelled = true := by
  have leaves : (c.leave g).2.cancelled = c.cancelled := by
    unfold leave
    split <;> rfl
  cases m with
  | come | close => exact cancelled
  | poll j =>
      rw [moved]
      split
      · exact (c.step_cancelled g).trans cancelled
      · exact cancelled
  | giveBack j =>
      rw [moved]
      split
      · exact leaves.trans cancelled
      · exact cancelled
  | cancel j =>
      rw [moved]
      split
      · rfl
      · exact cancelled

theorem holds_of_pending (pending : c.isPending = true) : c.holds? = none := by
  unfold isPending at pending
  unfold holds?
  split
  · rename_i t holding
    rw [holding] at pending
    exact nomatch pending
  · rfl

/-- Who has an answer keeps it, unless it is a slot that is given back. -/
theorem moved_of_answered (answered : c.isPending = false) {m : Move}
    (kept : .giveBack i ≠ m ∨ c.holds? = none) : (c.moved g i m).standing = c.standing := by
  cases m with
  | come | close => rfl
  | poll j =>
      rw [moved, step_of_not_pending answered]
      split <;> rfl
  | giveBack j =>
      rw [moved]
      split
      · rename_i same
        obtain other | nothing := kept
        · exact absurd (congrArg Move.giveBack same) other
        · rw [leave_of_not_holds nothing]
      · rfl
  | cancel j =>
      rw [moved]
      split <;> rfl

/-- Who has no answer gets it by looking only. -/
theorem moved_of_pending (pending : c.isPending = true) {m : Move} (other : .poll i ≠ m) :
    (c.moved g i m).standing = c.standing := by
  cases m with
  | come | close => rfl
  | poll j =>
      rw [moved, if_neg fun same => other (congrArg Move.poll same)]
  | giveBack j =>
      rw [moved]
      split
      · rw [leave_of_not_holds (holds_of_pending pending)]
      · rfl
  | cancel j =>
      rw [moved]
      split <;> rfl

/-- Who was cancelled or finds the gate closed fails. -/
theorem exists_failed (pending : c.isPending = true)
    (barred : c.cancelled = true ∨ g.closed = true) :
    (c.step g).2.standing = .failed (if c.cancelled then .cancelled else .closed) := by
  unfold isPending at pending
  cases standing : c.standing with
  | asking =>
      cases cancelled : c.cancelled with
      | true => rw [step_asking_cancelled standing cancelled]; rfl
      | false =>
          have closed := barred.resolve_left (by simp [cancelled])
          rw [step_asking_closed standing cancelled closed]
          rfl
  | waiting t =>
      cases cancelled : c.cancelled with
      | true => rw [step_waiting_cancelled standing cancelled]; rfl
      | false =>
          have closed := barred.resolve_left (by simp [cancelled])
          rw [step_waiting_closed standing cancelled closed]
          rfl
  | holding | failed | gone => exact nomatch standing ▸ pending

end Caller

/-- A caller that has its answer keeps it, a slot until it gives it back. -/
theorem answered_after (here : s.callers[i]? = some c) (answered : c.isPending = false)
    {later : List Move} (kept : .giveBack i ∉ later ∨ c.holds? = none) :
    ∃ c', (s.after later).callers[i]? = some c' ∧ c'.standing = c.standing ∧
      (c.cancelled = true → c'.cancelled = true) := by
  induction later generalizing s c with
  | nil => exact ⟨c, here, rfl, id⟩
  | cons m later ih =>
      have same : (c.moved s.gate i m).standing = c.standing :=
        Caller.moved_of_answered answered (kept.imp_left fun never => by
          rintro rfl
          exact never List.mem_cons_self)
      have answered' : (c.moved s.gate i m).isPending = false := by
        rw [Caller.isPending, same]
        exact answered
      have kept' : .giveBack i ∉ later ∨ (c.moved s.gate i m).holds? = none := by
        rw [Caller.holds?, same]
        exact kept.imp_left fun never mem => never (List.mem_cons_of_mem m mem)
      obtain ⟨c', there, standing, cancelled⟩ := ih (caller_move here m) answered' kept'
      exact ⟨c', there, standing.trans same, fun h => cancelled (Caller.moved_cancelled h m)⟩

/-- A caller that was cancelled or finds the gate closed fails once it looks. -/
theorem barred_after (here : s.callers[i]? = some c) (pending : c.isPending = true)
    (barred : c.cancelled = true ∨ s.gate.closed = true) (later : List Move) :
    ∃ c', (s.after later).callers[i]? = some c' ∧
      (.poll i ∉ later → c'.standing = c.standing) ∧
      (.poll i ∈ later → ∃ f, c'.standing = .failed f ∧ (c.cancelled = true → f = .cancelled) ∧
        (c'.cancelled = false → f = .closed)) := by
  induction later generalizing s c with
  | nil => exact ⟨c, here, fun _ => rfl, fun mem => absurd mem List.not_mem_nil⟩
  | cons m later ih =>
      by_cases looks : Move.poll i = m
      · subst looks
        have moved : c.moved s.gate i (.poll i) = (c.step s.gate).2 := if_pos rfl
        have failed := Caller.exists_failed pending barred
        have answered : (c.step s.gate).2.isPending = false := by rw [Caller.isPending, failed]
        have nothing : (c.step s.gate).2.holds? = none := by rw [Caller.holds?, failed]
        have here' := moved ▸ caller_move here (.poll i)
        have rests : .giveBack i ∉ later ∨ (c.step s.gate).2.holds? = none := .inr nothing
        obtain ⟨c', there, standing, cancelled⟩ := answered_after here' answered rests
        refine ⟨c', there, fun never => absurd List.mem_cons_self never, fun _ => ?_⟩
        refine ⟨_, standing.trans failed, fun h => by rw [h]; rfl, fun wanted => ?_⟩
        have wanted' : c.cancelled = false := by
          by_contra h
          have cancelled' : (c.step s.gate).2.cancelled = true :=
            (c.step_cancelled s.gate).trans (by simpa using h)
          rw [cancelled cancelled'] at wanted
          cases wanted
        rw [wanted']
        rfl
      · have same := Caller.moved_of_pending (g := s.gate) pending looks
        have pending' : (c.moved s.gate i m).isPending = true := by
          rw [Caller.isPending, same]
          exact pending
        have barred' : (c.moved s.gate i m).cancelled = true ∨ (s.move m).gate.closed = true :=
          barred.imp (Caller.moved_cancelled · m) (closed_move · m)
        obtain ⟨c', there, stays, fails⟩ := ih (caller_move here m) pending' barred'
        refine ⟨c', there, fun never => ?_, fun once => ?_⟩
        · exact (stays fun mem => never (List.mem_cons_of_mem m mem)).trans same
        · obtain ⟨f, failed, cancelled, wanted⟩ :=
            fails ((List.mem_cons.mp once).resolve_left looks)
          exact ⟨f, failed, fun h => cancelled (Caller.moved_cancelled h m), wanted⟩

/-! ## What a gate promises -/

/-- Whether a caller has a slot, be it that the slot was handed to it and it does not know yet. -/
def Caller.HasSlot (g : Gate) (c : Caller) : Prop :=
  match c.standing with
  | .waiting t => t ∈ g.granted
  | .holding _ => True
  | _ => False

/-- How a gate treats the caller at a place. -/
structure Treats (s : Crowd) (roll : List Nat) (i : Nat) (c : Caller) : Prop where
  /-- Who asks gets a ticket later than all others, and waits only if no slot is free. -/
  asks : c.standing = .asking → c.cancelled = false → s.gate.closed = false →
    ∃ t, (∀ u, u ∈ roll ∨ u ∈ s.gate.waiting → u < t) ∧
      (s.move (.poll i)).callers[i]? =
        some { c with standing := if s.gate.free = 0 then .waiting t else .holding t }
  /-- Who waits gets in as soon as it was handed a slot. -/
  waits : ∀ t, c.standing = .waiting t → c.cancelled = false → s.gate.closed = false →
    (s.move (.poll i)).callers[i]? =
      some { c with standing := if t ∈ roll then .holding t else .waiting t }
  /-- Who was cancelled, or finds the gate closed, fails as soon as it looks, even if it was handed
  a slot or one is free. -/
  barred : c.isPending = true → c.cancelled = true ∨ s.gate.closed = true → ∀ later,
    ∃ c', (s.after later).callers[i]? = some c' ∧
      (.poll i ∉ later → c'.standing = c.standing) ∧
      (.poll i ∈ later → ∃ f, c'.standing = .failed f ∧ (c.cancelled = true → f = .cancelled) ∧
        (c'.cancelled = false → f = .closed))
  /-- A slot is held until it is given back, whatever else happens. -/
  holds : ∀ t, c.standing = .holding t → ∀ later, .giveBack i ∉ later →
    ∃ c', (s.after later).callers[i]? = some c' ∧ c'.standing = .holding t
  /-- A slot that is given back, and one that was handed to a caller that fails, goes to the first
  in the queue; if nobody waits, it is free. -/
  leaves : c.HasSlot s.gate → ∀ m ∈ [Move.poll i, .giveBack i],
    ∀ c', (s.move m).callers[i]? = some c' → c'.place = .outside →
      Gate.newlySeated s.gate (s.move m).gate = s.gate.waiting.take 1 ∧
        (s.gate.waiting = [] → (s.move m).gate.free = s.gate.free + 1)

/-- What a gate of `n` slots promises, whose slots were handed out in the order of a roll. -/
structure Fair (n : Nat) (s : Crowd) (roll : List Nat) : Prop where
  capacity : s.gate.capacity = n
  /-- A slot is free, handed to a caller that does not know yet, or held. -/
  slots : s.gate.free + s.gate.granted.length + s.held = n
  bounded : s.held ≤ n
  calm : (∀ c ∈ s.callers, ∀ t, c.standing ≠ .waiting t) → s.gate.free + s.held = n
  /-- Slots are handed out in the order of the requests. -/
  order : roll.Pairwise (· < ·)
  /-- The queue is in the order of the requests too, and behind all that got a slot. -/
  queue : s.gate.waiting.Pairwise (· < ·) ∧ ∀ t ∈ roll, ∀ u ∈ s.gate.waiting, t < u
  /-- Whoever waits is in the queue until it is handed a slot. -/
  queued : s.gate.closed = false → ∀ t,
    t ∈ s.gate.waiting ↔ t ∉ roll ∧ ∃ c ∈ s.callers, c.standing = .waiting t
  busy : s.gate.waiting ≠ [] → s.gate.free = 0
  /-- Nobody fails but who was cancelled and who found the gate closed. -/
  reasons : ∀ c ∈ s.callers, ∀ f, c.standing = .failed f →
    f = .cancelled ∧ c.cancelled = true ∨ f = .closed ∧ s.gate.closed = true
  callers : ∀ i c, s.callers[i]? = some c → s.Treats roll i c

namespace Sound

theorem mem_waits {t : Nat} : t ∈ s.places.filterMap Place.waits? ↔ .waiting t ∈ s.places := by
  rw [List.mem_filterMap]
  constructor
  · rintro ⟨pl, mem, waits⟩
    cases pl with
    | waiting u =>
        obtain rfl := Option.some.inj waits
        exact mem
    | outside | inside => exact nomatch waits
  · exact fun mem => ⟨_, mem, rfl⟩

theorem mem_places {t : Nat} :
    .waiting t ∈ s.places ↔ ∃ c ∈ s.callers, c.standing = .waiting t := by
  rw [places, List.mem_map]
  refine exists_congr fun c => and_congr_right fun _ => ?_
  unfold Caller.place
  cases c.standing <;> simp

/-- Who waits at an open gate was handed a slot, or is still in the queue. -/
theorem mem_roll_iff (sound : s.Sound n roll) (opened : s.gate.closed = false) {t : Nat}
    (waits : .waiting t ∈ s.places) : t ∈ roll ↔ t ∈ s.gate.granted := by
  refine ⟨fun mem => ?_, fun granted => sound.rolled.entered t (List.mem_append_left _ granted)⟩
  obtain queued | granted | closed := sound.queued t waits
  · exact absurd mem (sound.rolled.waiting_not_mem queued)
  · exact granted
  · exact nomatch opened.symm.trans closed

theorem slots (sound : s.Sound n roll) :
    s.gate.free + s.gate.granted.length + s.held = n := by
  rw [sound.held_eq]
  exact sound.seats.slots

theorem calm (sound : s.Sound n roll) (calm : ∀ c ∈ s.callers, ∀ t, c.standing ≠ .waiting t) :
    s.gate.free + s.held = n := by
  have nobody : s.gate.granted = [] := by
    refine List.eq_nil_iff_forall_not_mem.mpr fun t granted => ?_
    have waits := mem_waits.mp (sound.seats.queue t (List.mem_append_right _ granted))
    obtain ⟨c, mem, waiting⟩ := mem_places.mp waits
    exact calm c mem t waiting
  have slots := sound.slots
  rwa [nobody] at slots

theorem queued_iff (sound : s.Sound n roll) (opened : s.gate.closed = false) (t : Nat) :
    t ∈ s.gate.waiting ↔ t ∉ roll ∧ ∃ c ∈ s.callers, c.standing = .waiting t := by
  rw [← mem_places]
  constructor
  · intro waits
    refine ⟨sound.rolled.waiting_not_mem waits, ?_⟩
    exact mem_waits.mp (sound.seats.queue t (List.mem_append_left _ waits))
  · rintro ⟨unseated, waits⟩
    obtain queued | granted | closed := sound.queued t waits
    · exact queued
    · exact absurd (sound.rolled.entered t (List.mem_append_left _ granted)) unseated
    · exact nomatch opened.symm.trans closed

/-- A handed slot that is not taken goes on. -/
theorem withdrawn (sound : s.Sound n roll) {t : Nat} (granted : t ∈ s.gate.granted) :
    Gate.newlySeated s.gate (s.gate.withdraw t) = s.gate.waiting.take 1 ∧
      (s.gate.waiting = [] → (s.gate.withdraw t).free = s.gate.free + 1) := by
  obtain ⟨new, -⟩ := sound.rolled.withdraw sound.orderly t
  refine ⟨new.trans (if_pos granted), fun nobody => ?_⟩
  rw [Gate.withdraw, if_pos (by simpa using granted)]
  exact Gate.passOn_free nobody

/-- A held slot that is given back goes on. -/
theorem released (sound : s.Sound n roll) {t : Nat} (held : t ∈ s.gate.holding) :
    Gate.newlySeated s.gate (s.gate.release t) = s.gate.waiting.take 1 ∧
      (s.gate.waiting = [] → (s.gate.release t).free = s.gate.free + 1) := by
  obtain ⟨new, -⟩ := sound.rolled.release sound.orderly held
  refine ⟨new, fun nobody => ?_⟩
  rw [Gate.release, if_pos (by simpa using held)]
  exact Gate.passOn_free nobody

theorem leaves (sound : s.Sound n roll) (here : s.callers[i]? = some c)
    (slot : c.HasSlot s.gate) {m : Move} (own : m ∈ [Move.poll i, .giveBack i]) {c' : Caller}
    (there : (s.move m).callers[i]? = some c') (outside : c'.place = .outside) :
    Gate.newlySeated s.gate (s.move m).gate = s.gate.waiting.take 1 ∧
      (s.gate.waiting = [] → (s.move m).gate.free = s.gate.free + 1) := by
  obtain rfl := Option.some.inj (there.symm.trans (caller_move here m))
  simp only [List.mem_cons, List.not_mem_nil, or_false] at own
  obtain rfl | rfl := own
  · rw [Caller.moved, if_pos rfl] at outside
    rw [Crowd.move, turn_of_some here]
    unfold Caller.HasSlot at slot
    cases standing : c.standing with
    | waiting t =>
        rw [standing] at slot
        cases cancelled : c.cancelled with
        | true =>
            rw [Caller.step_waiting_cancelled standing cancelled]
            exact sound.withdrawn slot
        | false =>
            cases closed : s.gate.closed with
            | true =>
                rw [Caller.step_waiting_closed standing cancelled closed]
                exact sound.withdrawn slot
            | false =>
                rw [Caller.step_waiting_granted standing cancelled closed slot] at outside
                cases outside
    | holding t =>
        rw [Caller.step_of_not_pending (by rw [Caller.isPending, standing]), Caller.place,
          standing] at outside
        cases outside
    | asking | failed | gone => exact (standing ▸ slot).elim
  · rw [Caller.moved, if_pos rfl] at outside
    rw [Crowd.move, turn_of_some here]
    unfold Caller.HasSlot at slot
    cases standing : c.standing with
    | waiting t =>
        rw [Caller.leave_of_not_holds (by rw [Caller.holds?, standing]), Caller.place,
          standing] at outside
        cases outside
    | holding t =>
        rw [Caller.leave_holding standing]
        exact sound.released (sound.holding here standing)
    | asking | failed | gone => exact (standing ▸ slot).elim

theorem treats (sound : s.Sound n roll) (here : s.callers[i]? = some c) : s.Treats roll i c where
  asks asking wanted opened := by
    refine ⟨s.gate.issued, ?_, ?_⟩
    · rintro u (seated | waits)
      · exact sound.rolled.known u seated
      · exact sound.orderly.known u (.inl waits)
    · rw [caller_move here, Caller.moved, if_pos rfl, Caller.step_asking_open asking wanted opened]
  waits t waiting wanted opened := by
    have place : .waiting t ∈ s.places := mem_places.mpr ⟨c, List.mem_of_getElem? here, waiting⟩
    rw [caller_move here, Caller.moved, if_pos rfl]
    by_cases granted : t ∈ s.gate.granted
    · rw [if_pos ((sound.mem_roll_iff opened place).mpr granted),
        Caller.step_waiting_granted waiting wanted opened granted]
    · rw [if_neg fun mem => granted ((sound.mem_roll_iff opened place).mp mem),
        Caller.step_waiting_on waiting wanted opened granted, ← waiting]
  barred pending barred later := barred_after here pending barred later
  holds t holding later never := by
    have answered : c.isPending = false := by rw [Caller.isPending, holding]
    obtain ⟨c', there, same, -⟩ := answered_after here answered (.inl never)
    exact ⟨c', there, same.trans holding⟩
  leaves slot m own c' there outside := sound.leaves here slot own there outside

theorem fair (sound : s.Sound n roll) : s.Fair n roll where
  capacity := sound.capacity
  slots := sound.slots
  bounded := by
    have slots := sound.slots
    omega
  calm := sound.calm
  order := sound.rolled.sorted
  queue := ⟨sound.orderly.sorted, sound.rolled.ahead⟩
  queued := sound.queued_iff
  busy := sound.orderly.busy
  reasons c mem f failed := by
    have reason := sound.reasons c mem
    rw [Caller.HasReason, failed] at reason
    cases f with
    | cancelled => exact .inl ⟨rfl, reason⟩
    | closed => exact .inr ⟨rfl, reason⟩
  callers i c here := sound.treats here

end Sound

/-- Whatever callers do at a gate of some slots, and in whatever order, the gate is fair. -/
theorem gate_is_fair (n : Nat) (moves : List Move) :
    ((empty n).after moves).Fair n ((empty n).roll moves) :=
  ((Sound.empty n).after moves).fair

/-- A slot comes back, is handed to one who was cancelled, goes on to the next, and is given up
there because the gate was closed. -/
example :
    let moves : List Move := [.come 7 false, .come 8 false, .come 9 false, .poll 0, .poll 1,
      .poll 2, .giveBack 0, .cancel 1, .poll 1, .close, .poll 2]
    (empty 1).roll moves = [0, 1, 2] ∧
      ((empty 1).after moves).callers.map Caller.standing =
        [.gone, .failed .cancelled, .failed .closed] ∧
      ((empty 1).after moves).gate.free = 1 := by
  decide

end Crowd

end Courier
