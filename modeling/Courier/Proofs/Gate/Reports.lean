import Courier.Proofs.Gate.Fairness

/-!
# Reports of crowds

A crowd that is told what to do and goes on until nobody can (`Crowd.run`) keeps to one of the
schedules. What is known of all schedules is therefore known of every report: it tells of a gate
and its callers as some moves leave them (`told_of_mem_run`).

Everyone goes on by being polled at its place in the list. The lemmas on parts of the list keep the
callers before that part in front of it, so that the places are those in the whole list.
-/

namespace Courier

namespace Crowd

/-- Some moves lead from one crowd to another. -/
def Reaches (s s' : Crowd) : Prop := ∃ moves, s.after moves = s'

variable {s s' s'' : Crowd} {n : Nat} {roll : List Nat}

namespace Reaches

theorem refl (s : Crowd) : s.Reaches s := ⟨[], rfl⟩

theorem move (s : Crowd) (m : Move) : s.Reaches (s.move m) := ⟨[m], rfl⟩

theorem trans (first : s.Reaches s') (second : s'.Reaches s'') : s.Reaches s'' := by
  obtain ⟨moves, rfl⟩ := first
  obtain ⟨more, rfl⟩ := second
  exact ⟨moves ++ more, List.foldl_append⟩

theorem sound (reaches : s.Reaches s') (sound : s.Sound n roll) : ∃ roll', s'.Sound n roll' := by
  obtain ⟨moves, rfl⟩ := reaches
  exact ⟨_, sound.after moves⟩

end Reaches

/-! ## Everyone in turn -/

/-- The caller behind some others does something at the gate. -/
theorem turn_append (g : Gate) (before rest : List Caller) (c : Caller)
    (what : Gate → Caller → Gate × Caller) :
    turn ⟨g, before ++ c :: rest⟩ before.length what =
      ⟨(what g c).1, before ++ (what g c).2 :: rest⟩ := by
  have here : (before ++ c :: rest)[before.length]? = some c := by simp
  rw [turn_of_some here, List.set_append_right _ _ (Nat.le_refl _), Nat.sub_self]
  rfl

/-- What each caller may do by moves, all may do one after the other. -/
theorem reaches_map {f : Caller → Caller}
    (each : ∀ g before c rest, Reaches ⟨g, before ++ c :: rest⟩ ⟨g, before ++ f c :: rest⟩)
    (g : Gate) (before rest : List Caller) :
    Reaches ⟨g, before ++ rest⟩ ⟨g, before ++ rest.map f⟩ := by
  induction rest generalizing before with
  | nil => exact .refl _
  | cons c rest ih =>
      have others := ih (before ++ [f c])
      rw [List.append_assoc, List.append_assoc] at others
      exact (each g before c rest).trans others

theorem pass_cons (g : Gate) (c : Caller) (rest : List Caller) :
    (pass g (c :: rest)).1 = (pass (c.step g).1 rest).1 ∧
      (pass g (c :: rest)).2.1 = (c.step g).2 :: (pass (c.step g).1 rest).2.1 := by
  rewrite [pass]
  dsimp only
  split <;> exact ⟨rfl, rfl⟩

theorem reaches_pass (g : Gate) (before rest : List Caller) :
    Reaches ⟨g, before ++ rest⟩ ⟨(pass g rest).1, before ++ (pass g rest).2.1⟩ := by
  induction rest generalizing g before with
  | nil => exact .refl _
  | cons c rest ih =>
      have first : Reaches ⟨g, before ++ c :: rest⟩
          ⟨(c.step g).1, before ++ (c.step g).2 :: rest⟩ := by
        have polled := Reaches.move ⟨g, before ++ c :: rest⟩ (.poll before.length)
        rwa [Crowd.move, turn_append] at polled
      have others := ih (c.step g).1 (before ++ [(c.step g).2])
      rw [List.append_assoc, List.append_assoc] at others
      obtain ⟨gate, callers⟩ := pass_cons g c rest
      rw [gate, callers]
      exact first.trans others

theorem reaches_settle (rounds : Nat) (s : Crowd) : s.Reaches (s.settle rounds).1 := by
  induction rounds generalizing s with
  | zero => exact .refl s
  | succ rounds ih => exact (reaches_pass s.gate [] s.callers).trans (ih _)

/-! ## Actions -/

theorem reaches_acquire (s : Crowd) (names : List Nat) (cancelled : Bool) :
    s.Reaches { s with callers := s.callers ++ names.map fun name => { name, cancelled } } := by
  induction names generalizing s with
  | nil =>
      rw [List.map_nil, List.append_nil]
      exact .refl s
  | cons name names ih =>
      have others := ih (s.move (.come name cancelled))
      rw [Crowd.move, List.append_assoc] at others
      exact (Reaches.move s (.come name cancelled)).trans others

theorem reaches_cancel (s : Crowd) (named : Nat → Bool) :
    s.Reaches
      { s with
        callers := s.callers.map fun c =>
          if named c.name then { c with cancelled := true } else c } := by
  refine reaches_map (fun g before c rest => ?_) s.gate [] s.callers
  split
  · have cancelled := Reaches.move ⟨g, before ++ c :: rest⟩ (.cancel before.length)
    rwa [Crowd.move, turn_append] at cancelled
  · exact .refl _

namespace Sound

/-- Nobody else holds a slot under the same ticket. -/
theorem holder_unique (sound : s.Sound n roll) {i j t : Nat} {c d : Caller}
    (here : s.callers[i]? = some c) (there : s.callers[j]? = some d)
    (holding : c.standing = .holding t) (other : d.standing = .holding t) : i = j := by
  by_contra apart
  obtain ⟨inside, at'⟩ := List.getElem?_eq_some_iff.mp here
  have first : s.callers.Perm (c :: s.callers.eraseIdx i) :=
    at' ▸ (List.getElem_cons_eraseIdx_perm inside).symm
  have distinct := (sound.seats.of_perm (first.map Caller.place)).apart
  have ticket : c.place.ticket? = some t := by rw [Caller.place, holding]; rfl
  rw [List.map_cons, List.filterMap_cons_some ticket] at distinct
  have mem : d ∈ s.callers.eraseIdx i :=
    List.mem_eraseIdx_iff_getElem?.mpr ⟨j, Ne.symm apart, there⟩
  have place : d.place = .inside t := by rw [Caller.place, other]
  refine (List.nodup_cons.mp distinct).1 (List.mem_filterMap.mpr ⟨.inside t, ?_, rfl⟩)
  exact place ▸ List.mem_map_of_mem mem

/-- The caller who holds a slot under a ticket gives it back. -/
theorem giveBack_eq (sound : s.Sound n roll) {i t : Nat} {c : Caller}
    (here : s.callers[i]? = some c) (holding : c.standing = .holding t) :
    s.move (.giveBack i) = ⟨s.gate.release t, s.callers.map fun c =>
      if c.standing == .holding t then { c with standing := .gone } else c⟩ := by
  rw [Crowd.move, turn_of_some here, Caller.leave_holding holding]
  refine congrArg (Crowd.mk _) (List.ext_getElem? fun j => ?_)
  rw [List.getElem?_map]
  by_cases same : i = j
  · subst same
    rw [List.getElem?_set_self (List.getElem?_eq_some_iff.mp here).1, here, Option.map_some,
      if_pos (beq_iff_eq.mpr holding)]
  · rw [List.getElem?_set_ne same]
    cases there : s.callers[j]? with
    | none => rfl
    | some d =>
        have other : ¬(d.standing == .holding t) = true := fun other =>
          same (sound.holder_unique here there holding (beq_iff_eq.mp other))
        rw [Option.map_some, if_neg other]

theorem reaches_release (sound : s.Sound n roll) (names : List Nat) :
    s.Reaches (s.releaseAll names) := by
  induction names generalizing s roll with
  | nil => exact .refl s
  | cons name names ih =>
      unfold releaseAll
      dsimp only
      split
      · rename_i found
        obtain ⟨i, here⟩ := List.mem_iff_getElem?.mp (List.mem_of_find?_eq_some found)
        have moved := Reaches.move s (.giveBack i)
        rw [sound.giveBack_eq here rfl] at moved
        obtain ⟨roll', sound'⟩ := moved.sound sound
        exact moved.trans (ih sound')
      · exact ih sound

theorem reaches_act (sound : s.Sound n roll) (a : Action) : s.Reaches (s.act a) := by
  cases a with
  | acquire first count cancelled => exact reaches_acquire s _ cancelled
  | release first count => exact sound.reaches_release _
  | cancel first count => exact reaches_cancel s (within first count)
  | close => exact .move s .close
  | look => exact .refl s

theorem reaches_step (sound : s.Sound n roll) (a : Action) : s.Reaches (s.step a).1 :=
  (sound.reaches_act a).trans (reaches_settle (s.act a).callers.length.succ _)

end Sound

/-! ## Reports -/

/-- What there is to see of a crowd. -/
structure Report.Tells (r : Report) (s : Crowd) : Prop where
  available : r.available = s.gate.free
  capacity : r.capacity = s.gate.capacity
  holding : r.holding = s.held

theorem Sound.tells (sound : s.Sound n roll) (a : Action) : (s.step a).2.Tells (s.step a).1 := by
  obtain ⟨roll', sound'⟩ := (sound.reaches_step a).sound sound
  exact ⟨rfl, rfl, sound'.held_eq.symm⟩

/-- Every report tells of a gate and its callers as some moves leave them. -/
theorem told_of_mem_run {actions : List Action} {r : Report} (mem : r ∈ run n actions) :
    ∃ moves, r.Tells ((empty n).after moves) := by
  let Told (p : Crowd × List Report) : Prop :=
    (empty n).Reaches p.1 ∧ ∀ r ∈ p.2, ∃ moves, r.Tells ((empty n).after moves)
  have start : Told (empty n, []) := ⟨.refl _, fun _ none => absurd none List.not_mem_nil⟩
  refine (List.foldlRecOn (motive := Told) actions _ start ?_).2 r (List.mem_reverse.mp mem)
  rintro ⟨s, reports⟩ ⟨reaches, told⟩ a -
  obtain ⟨roll, sound⟩ := reaches.sound (Sound.empty n)
  have stepped : (empty n).Reaches (s.step a).1 := reaches.trans (sound.reaches_step a)
  refine ⟨stepped, fun r mem => ?_⟩
  obtain rfl | old := List.mem_cons.mp mem
  · obtain ⟨moves, after⟩ := stepped
    exact ⟨moves, after ▸ sound.tells a⟩
  · exact told r old

theorem slots_of_mem_run {actions : List Action} {r : Report} (mem : r ∈ run n actions) :
    r.capacity = n ∧ r.available + r.holding ≤ n := by
  obtain ⟨moves, tells⟩ := told_of_mem_run mem
  have sound := (Sound.empty n).after moves
  refine ⟨tells.capacity.trans sound.capacity, ?_⟩
  rw [tells.available, tells.holding]
  have slots := sound.slots
  omega

end Crowd

end Courier
