import Courier.Bench.Crowd
import Courier.Proofs.Gate.Roll
import Courier.Proofs.Handling.Seats
import Courier.Proofs.Places

/-!
# Callers at a gate in any order

Callers come, ask a gate for a slot, wait, are cancelled, hold slots and give them back, and the
gate is closed at some time. A schedule is any sequence of such moves (`Crowd.Move`); in particular
a caller that has been handed a slot or was cancelled may go on at once or after any number of other
moves.
-/

namespace Courier

namespace Crowd

/-- One thing that happens at a gate. Callers are known by their places in the list. -/
inductive Move where
  /-- Someone comes, whose cancellation may have been asked for already. -/
  | come (name : Nat) (cancelled : Bool)
  /-- A caller that asks or waits looks what has become of it. -/
  | poll (i : Nat)
  /-- A caller gives its slot back. -/
  | giveBack (i : Nat)
  | cancel (i : Nat)
  | close
  deriving DecidableEq

namespace Caller

/-- Whether the caller has asked for a slot, or is about to, and has no answer. -/
def isPending (c : Caller) : Bool :=
  match c.standing with
  | .asking | .waiting _ => true
  | _ => false

/-- The ticket by which the caller holds a slot. -/
def holds? (c : Caller) : Option Nat :=
  match c.standing with
  | .holding t => some t
  | _ => none

def place (c : Caller) : Place :=
  match c.standing with
  | .waiting t => .waiting t
  | .holding t => .inside t
  | _ => .outside

/-- The gate once the caller has given its slot back, if it holds one, and the caller. -/
def leave (g : Gate) (c : Caller) : Gate × Caller :=
  match c.standing with
  | .holding t => (g.release t, { c with standing := .gone })
  | _ => (g, c)

end Caller

/-- Lets one caller do something at the gate. -/
def turn (s : Crowd) (i : Nat) (what : Gate → Caller → Gate × Caller) : Crowd :=
  match s.callers[i]? with
  | some c => ⟨(what s.gate c).1, s.callers.set i (what s.gate c).2⟩
  | none => s

theorem turn_of_some {s : Crowd} {i : Nat} {c : Caller} (here : s.callers[i]? = some c)
    (what : Gate → Caller → Gate × Caller) :
    s.turn i what = ⟨(what s.gate c).1, s.callers.set i (what s.gate c).2⟩ := by
  rw [turn, here]

def move (s : Crowd) : Move → Crowd
  | .come name cancelled => { s with callers := s.callers ++ [{ name, cancelled }] }
  | .poll i => s.turn i fun g c => c.step g
  | .giveBack i => s.turn i Caller.leave
  | .cancel i => s.turn i fun g c => (g, { c with cancelled := true })
  | .close => { s with gate := s.gate.close }

def after (s : Crowd) (moves : List Move) : Crowd := moves.foldl move s

/-- The tickets that get slots in the course of moves, in order. -/
def roll (s : Crowd) : List Move → List Nat
  | [] => []
  | m :: moves => Gate.newlySeated s.gate (s.move m).gate ++ (s.move m).roll moves

/-- Nobody at a gate of some slots. -/
def empty (n : Nat) : Crowd := { gate := .ofCapacity n }

def places (s : Crowd) : List Place := s.callers.map Caller.place

/-- How many callers hold a slot. -/
def held (s : Crowd) : Nat := s.callers.countP fun c => c.holds?.isSome

variable {s : Crowd} {n : Nat} {roll : List Nat} {moves : List Move}

/-! ## What becomes of a caller that looks -/

namespace Caller

variable {g : Gate} {c : Caller} {t : Nat}

theorem step_asking_cancelled (asking : c.standing = .asking) (cancelled : c.cancelled = true) :
    c.step g = (g, { c with standing := .failed .cancelled }) := by
  rw [step, asking]
  exact if_pos cancelled

theorem step_asking_closed (asking : c.standing = .asking) (wanted : c.cancelled = false)
    (closed : g.closed = true) : c.step g = (g, { c with standing := .failed .closed }) := by
  have refused : g.request = (g, .refused) := if_pos closed
  simp [step, asking, wanted, refused]

theorem step_asking_open (asking : c.standing = .asking) (wanted : c.cancelled = false)
    (opened : g.closed = false) :
    c.step g = (g.request.1,
      { c with standing := if g.free = 0 then .waiting g.issued else .holding g.issued }) := by
  have entry := Gate.request_answer opened
  unfold step
  rw [asking, wanted]
  generalize g.request = r at entry
  obtain ⟨g', answer⟩ := r
  obtain rfl : answer = _ := entry
  cases g.free <;> rfl

theorem step_waiting_cancelled (waiting : c.standing = .waiting t)
    (cancelled : c.cancelled = true) :
    c.step g = (g.withdraw t, { c with standing := .failed .cancelled }) := by
  simp [step, waiting, Gate.resume, cancelled]

theorem step_waiting_closed (waiting : c.standing = .waiting t) (wanted : c.cancelled = false)
    (closed : g.closed = true) :
    c.step g = (g.withdraw t, { c with standing := .failed .closed }) := by
  simp [step, waiting, Gate.resume, wanted, closed]

theorem step_waiting_granted (waiting : c.standing = .waiting t) (wanted : c.cancelled = false)
    (opened : g.closed = false) (granted : t ∈ g.granted) :
    c.step g = ({ g with granted := g.granted.erase t, holding := g.holding ++ [t] },
      { c with standing := .holding t }) := by
  have taken : g.resume t c.cancelled = ({ g with
      granted := g.granted.erase t, holding := g.holding ++ [t] }, some (.ok ())) := by
    rw [Gate.resume, wanted, opened, if_neg Bool.false_ne_true, if_neg Bool.false_ne_true,
      if_pos (List.contains_iff_mem.mpr granted)]
  unfold step
  rw [waiting]
  dsimp only
  rw [taken]

theorem step_waiting_on (waiting : c.standing = .waiting t) (wanted : c.cancelled = false)
    (opened : g.closed = false) (unserved : t ∉ g.granted) : c.step g = (g, c) := by
  have waits : g.resume t c.cancelled = (g, none) := by
    rw [Gate.resume, wanted, opened, if_neg Bool.false_ne_true, if_neg Bool.false_ne_true,
      if_neg (by simpa using unserved)]
  unfold step
  rw [waiting]
  dsimp only
  rw [waits]

theorem leave_holding (holding : c.standing = .holding t) :
    c.leave g = (g.release t, { c with standing := .gone }) := by
  simp only [leave, holding]

theorem leave_of_not_holds (nothing : c.holds? = none) : c.leave g = (g, c) := by
  unfold holds? at nothing
  unfold leave
  split
  · rename_i t holding
    rw [holding] at nothing
    exact nomatch nothing
  · rfl

theorem step_of_not_pending (answered : c.isPending = false) : c.step g = (g, c) := by
  obtain ⟨name, cancelled, standing⟩ := c
  cases standing with
  | asking | waiting => cases answered
  | holding | failed | gone => rfl

end Caller

/-! ## What holds at any time -/

namespace Caller

/-- A caller has failed because it was cancelled or because the gate was closed. -/
def HasReason (g : Gate) (c : Caller) : Prop :=
  match c.standing with
  | .failed .cancelled => c.cancelled = true
  | .failed .closed => g.closed = true
  | _ => True

/-- A caller does something at a gate that leaves the others where they are. -/
structure Goes (g : Gate) (c : Caller) (g' : Gate) (c' : Caller) : Prop where
  seats {n : Nat} {rest : List Place} :
    g.Seats n (c.place :: rest) → g'.Seats n (c'.place :: rest)
  advances : Gate.Advances c.place.ticket? g g'
  rolled {roll : List Nat} :
    g.Orderly → g.Rolled roll → g'.Rolled (roll ++ Gate.newlySeated g g')
  queued : (∀ t, c.place = .waiting t → g.Queued t) → ∀ t, c'.place = .waiting t → g'.Queued t
  closed : g.closed = true → g'.closed = true
  capacity : g'.capacity = g.capacity
  reason : c.HasReason g → c'.HasReason g'

variable {g g' : Gate} {c c' : Caller} {t : Nat}

theorem HasReason.mono (reason : c.HasReason g) (closed : g.closed = true → g'.closed = true) :
    c.HasReason g' := by
  unfold HasReason at reason ⊢
  split
  · rename_i failed
    rw [failed] at reason
    exact reason
  · rename_i failed
    rw [failed] at reason
    exact closed reason
  · trivial

theorem Goes.same (place : c'.place = c.place) (reason : c.HasReason g → c'.HasReason g) :
    Goes g c g c' where
  seats h := place ▸ h
  advances := .refl _ g
  rolled _ h := by rwa [Gate.newlySeated_self, List.append_nil]
  queued h t waits := h t (place ▸ waits)
  closed h := h
  capacity := rfl
  reason := reason

theorem Goes.withdraw (waiting : c.place = .waiting t) (outside : c'.place = .outside)
    (reason : c'.HasReason (g.withdraw t)) : Goes g c (g.withdraw t) c' where
  seats h := by
    rw [waiting] at h
    rw [outside]
    exact h.withdraw
  advances := by
    rw [waiting]
    exact g.advances_withdraw t
  rolled orderly h := by
    obtain ⟨new, rolled⟩ := h.withdraw orderly t
    rwa [new]
  queued _ t waits := nomatch outside.symm.trans waits
  closed h := (g.withdraw_closed t).trans h
  capacity := g.withdraw_capacity t
  reason _ := reason

theorem Goes.take (waiting : c.place = .waiting t) (inside : c'.standing = .holding t)
    (granted : t ∈ g.granted) :
    Goes g c { g with granted := g.granted.erase t, holding := g.holding ++ [t] } c' where
  seats h := by
    rw [waiting] at h
    rw [place, inside]
    exact h.take granted
  advances := by
    rw [waiting]
    exact g.advances_erase t _
  rolled _ h := by
    obtain ⟨new, rolled⟩ := h.take granted
    rwa [new, List.append_nil]
  queued _ u waits := by
    rw [place, inside] at waits
    exact nomatch waits
  closed h := h
  capacity := rfl
  reason _ := by
    rw [HasReason, inside]
    trivial

theorem Goes.request (outside : c.place = .outside)
    (place' : c'.place = Place.outside.after (.called (.request 0) g.request.2))
    (reason : c'.HasReason g.request.1) : Goes g c g.request.1 c' where
  seats h := by
    rw [outside] at h
    rw [place']
    exact h.request
  advances := (g.advances_request).weaken _
  rolled orderly h := h.request orderly
  queued _ t waits := by
    rw [place'] at waits
    cases answer : g.request.2 with
    | refused | admitted => 
        rw [answer] at waits
        exact nomatch waits
    | queued u =>
        rw [answer] at waits
        obtain rfl : u = t := by injection waits
        obtain ⟨-, -, after⟩ := Gate.of_queued answer
        rw [after]
        exact .inl (by simp)
  closed h := by
    unfold Gate.request
    rw [if_pos h]
    exact h
  capacity := g.request_capacity
  reason _ := reason

theorem Goes.release (inside : c.place = .inside t) (outside : c'.place = .outside)
    (held : t ∈ g.holding) (reason : c'.HasReason (g.release t)) : Goes g c (g.release t) c' where
  seats h := by
    rw [inside] at h
    rw [outside]
    exact h.release
  advances := (g.advances_release t).weaken _
  rolled orderly h := by
    obtain ⟨new, rolled⟩ := h.release orderly held
    rwa [new]
  queued _ t waits := nomatch outside.symm.trans waits
  closed h := (g.release_closed t).trans h
  capacity := g.release_capacity t
  reason _ := reason

theorem step_goes (g : Gate) (c : Caller) : c.Goes g (c.step g).1 (c.step g).2 := by
  cases standing : c.standing with
  | asking =>
      have outside : c.place = .outside := by rw [place, standing]
      cases cancelled : c.cancelled with
      | true =>
          rw [step_asking_cancelled standing cancelled]
          exact .same outside.symm fun _ => cancelled
      | false =>
          cases closed : g.closed with
          | true =>
              rw [step_asking_closed standing cancelled closed]
              exact .same outside.symm fun _ => closed
          | false =>
              rw [step_asking_open standing cancelled closed]
              refine .request outside ?_ ?_
              · rw [Gate.request_answer closed]
                cases g.free <;> rfl
              · cases g.free <;> trivial
  | waiting t =>
      have waiting : c.place = .waiting t := by rw [place, standing]
      cases cancelled : c.cancelled with
      | true =>
          rw [step_waiting_cancelled standing cancelled]
          exact .withdraw waiting rfl cancelled
      | false =>
          cases closed : g.closed with
          | true =>
              rw [step_waiting_closed standing cancelled closed]
              exact .withdraw waiting rfl ((g.withdraw_closed t).trans closed)
          | false =>
              by_cases granted : t ∈ g.granted
              · rw [step_waiting_granted standing cancelled closed granted]
                exact .take waiting rfl granted
              · rw [step_waiting_on standing cancelled closed granted]
                exact .same rfl id
  | holding | failed | gone =>
      rw [step_of_not_pending (by rw [isPending, standing])]
      exact .same rfl id

end Caller

/-- What holds at a gate of `n` slots whose slots were handed out in the order of a roll. -/
structure Sound (n : Nat) (s : Crowd) (roll : List Nat) : Prop where
  seats : s.gate.Seats n s.places
  orderly : s.gate.Orderly
  rolled : s.gate.Rolled roll
  queued : ∀ t, .waiting t ∈ s.places → s.gate.Queued t
  capacity : s.gate.capacity = n
  reasons : ∀ c ∈ s.callers, c.HasReason s.gate

namespace Sound

variable {i : Nat} {c c' : Caller} {g' : Gate}

theorem empty (n : Nat) : (Crowd.empty n).Sound n [] where
  seats := Gate.Seats.ofCapacity n
  orderly := Gate.orderly_ofCapacity n
  rolled := Gate.Rolled.ofCapacity n
  queued _ := nofun
  capacity := rfl
  reasons _ := nofun

theorem holding (sound : s.Sound n roll) (here : s.callers[i]? = some c) {t : Nat}
    (holding : c.standing = .holding t) : t ∈ s.gate.holding := by
  have inside : c.place = .inside t := by rw [Caller.place, holding]
  refine sound.seats.holding.symm.subset (List.mem_filterMap.mpr ⟨.inside t, ?_, rfl⟩)
  exact inside ▸ List.mem_map_of_mem (List.mem_of_getElem? here)

/-- The gate knows how many hold a slot. -/
theorem held_eq (sound : s.Sound n roll) : s.held = s.gate.holding.length := by
  have inside : s.held = s.places.countP Place.isInside := by
    rw [held, places, List.countP_map]
    refine List.countP_congr fun c _ => ?_
    rw [Function.comp, Caller.holds?, Caller.place]
    cases c.standing <;> rfl
  rw [inside, ← Place.length_holds, ← sound.seats.holding.length_eq]

/-- One caller goes on. -/
theorem goes (sound : s.Sound n roll) (here : s.callers[i]? = some c)
    (goes : c.Goes s.gate g' c') :
    Sound n ⟨g', s.callers.set i c'⟩ (roll ++ Gate.newlySeated s.gate g') := by
  obtain ⟨inside, at'⟩ := List.getElem?_eq_some_iff.mp here
  have before : s.callers.Perm (c :: s.callers.eraseIdx i) :=
    at' ▸ (List.getElem_cons_eraseIdx_perm inside).symm
  have now : (s.callers.set i c').Perm (c' :: s.callers.eraseIdx i) :=
    List.set_perm_cons_eraseIdx inside c'
  have seats := sound.seats.of_perm (before.map Caller.place)
  refine ⟨(goes.seats seats).of_perm (now.map Caller.place).symm,
    goes.advances.orderly sound.orderly, goes.rolled sound.orderly sound.rolled,
    fun t waits => ?_, goes.capacity.trans sound.capacity, fun d mem => ?_⟩
  · have waits := (now.map Caller.place).subset waits
    obtain own | other := List.mem_cons.mp waits
    · refine goes.queued (fun u waits => sound.queued u ?_) t own.symm
      exact waits ▸ List.mem_map_of_mem (List.mem_of_getElem? here)
    · have apart : c.place.ticket? ≠ some t := by
        intro same
        have distinct := seats.apart
        rw [List.map_cons, List.filterMap_cons_some same] at distinct
        exact (List.nodup_cons.mp distinct).1 (List.mem_filterMap.mpr ⟨_, other, rfl⟩)
      have old := (before.map Caller.place).symm.subset (List.mem_cons_of_mem _ other)
      exact goes.advances.queued t apart (sound.queued t old)
  · obtain rfl | other := List.mem_cons.mp (now.subset mem)
    · exact goes.reason (sound.reasons c (List.mem_of_getElem? here))
    · have old := before.symm.subset (List.mem_cons_of_mem c other)
      exact (sound.reasons d old).mono goes.closed

theorem move (sound : s.Sound n roll) (m : Move) :
    (s.move m).Sound n (roll ++ Gate.newlySeated s.gate (s.move m).gate) := by
  have turn (i : Nat) (what : Gate → Caller → Gate × Caller)
      (each : ∀ c, s.callers[i]? = some c → c.Goes s.gate (what s.gate c).1 (what s.gate c).2) :
      (s.turn i what).Sound n (roll ++ Gate.newlySeated s.gate (s.turn i what).gate) := by
    unfold Crowd.turn
    cases here : s.callers[i]? with
    | none =>
        simp only [Gate.newlySeated_self, List.append_nil]
        exact sound
    | some c => exact sound.goes here (each c here)
  cases m with
  | come name cancelled =>
      have places : Crowd.places (s.move (.come name cancelled)) = s.places ++ [.outside] :=
        List.map_append
      have same : Gate.newlySeated s.gate (s.move (.come name cancelled)).gate = [] :=
        Gate.newlySeated_self s.gate
      rw [same, List.append_nil]
      refine ⟨?_, sound.orderly, sound.rolled, fun t waits => ?_, sound.capacity, fun d mem => ?_⟩
      · rw [places]
        exact sound.seats.append fun pl mem => List.mem_singleton.mp mem
      · rw [places] at waits
        obtain waits | waits := List.mem_append.mp waits
        · exact sound.queued t waits
        · exact nomatch List.mem_singleton.mp waits
      · obtain old | new := List.mem_append.mp mem
        · exact sound.reasons d old
        · obtain rfl := List.mem_singleton.mp new
          trivial
  | poll i => exact turn i _ fun c _ => c.step_goes s.gate
  | giveBack i =>
      refine turn i _ fun c here => ?_
      cases standing : c.standing with
      | holding t =>
          have inside : c.place = .inside t := by rw [Caller.place, standing]
          rw [Caller.leave_holding standing]
          exact .release inside rfl (sound.holding here standing) trivial
      | asking | waiting | failed | gone =>
          rw [Caller.leave_of_not_holds (by rw [Caller.holds?, standing])]
          exact .same rfl id
  | cancel i =>
      refine turn i (fun g c => (g, { c with cancelled := true })) fun c _ =>
        .same rfl fun old => ?_
      obtain ⟨name, _, standing⟩ := c
      cases standing with
      | failed f =>
          cases f with
          | cancelled => rfl
          | closed => exact old
      | asking | waiting | holding | gone => trivial
  | close =>
      obtain ⟨new, rolled⟩ := sound.rolled.close
      refine ⟨sound.seats.close, (Gate.advances_close s.gate).orderly sound.orderly, ?_, ?_,
        sound.capacity, ?_⟩
      · exact new.symm ▸ (List.append_nil roll).symm ▸ rolled
      · exact fun t _ => .inr (.inr rfl)
      · exact fun d mem => (sound.reasons d mem).mono fun _ => rfl

theorem after (sound : s.Sound n roll) (moves : List Move) :
    (s.after moves).Sound n (roll ++ s.roll moves) := by
  induction moves generalizing s roll with
  | nil =>
      rw [Crowd.roll, List.append_nil]
      exact sound
  | cons m moves ih =>
      rw [Crowd.roll, ← List.append_assoc]
      exact ih (sound.move m)

end Sound

end Crowd

end Courier
