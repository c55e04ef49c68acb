import Courier.Bench.Shift
import Courier.Proofs.Places
import Mathlib.Data.List.Nodup
import Mathlib.Data.List.Range

/-!
# Loops that break off

A loop that breaks off leaves attempts behind that are aborted. `Station.Abort` says what becomes of
one of them: it goes no further, it is no longer in flight, and it gives up its tickets. Everything
else stays as it is.

All attempts of the loop are aborted in the same step as the loop breaks off. What each of them
keeps is kept by all (`Aborts.preserve`), and none is in flight afterwards (`Aftermath.over`).
-/

namespace Courier

namespace Premises

/-- Who gives up tickets touches gates alone. -/
theorem surrender_frame (p : Premises) (tickets : List (Nat × Nat)) :
    p.surrender tickets = { p with gates := (p.surrender tickets).gates } := by
  induction tickets generalizing p with
  | nil => rfl
  | cons first rest ih =>
      rw [surrender, ih]
      rfl

@[simp] theorem surrender_queue (p : Premises) (tickets : List (Nat × Nat)) :
    (p.surrender tickets).queue = p.queue := by
  rw [surrender_frame]

@[simp] theorem surrender_registry (p : Premises) (tickets : List (Nat × Nat)) :
    (p.surrender tickets).registry = p.registry := by
  rw [surrender_frame]

@[simp] theorem surrender_author (p : Premises) (tickets : List (Nat × Nat)) :
    (p.surrender tickets).author = p.author := by
  rw [surrender_frame]

end Premises

namespace Attempt

variable {t : Attempt}

theorem isOver_eq_false_iff : t.isOver = false ↔ t.isDone = false ∧ t.aborted = false :=
  Bool.or_eq_false_iff

theorem isOver_of_kept (kept : t.aborted = false) : t.isOver = t.isDone := by
  rw [isOver, kept, Bool.or_false]

end Attempt

namespace Station

/-- An attempt is aborted whose loop broke off. -/
inductive Abort (a : Ambient) (s : Station) : Ambient → Station → Prop where
  | intro {k : Nat} {t : Attempt} {l : ReceiveLoop} {o : Overflow} (telemetry : Telemetry) :
      s.attempts[k]? = some t → t.isOver = false →
      s.loops[t.loop]? = some l → l.phase = .broken o →
      (telemetry = a.telemetry ∨ ∃ span, telemetry = a.telemetry.span span) →
      Abort a s { a with telemetry := telemetry, controller := a.controller.leave }
        { s with
          premises := s.premises.surrender t.tickets
          attempts := s.attempts.set k { t with aborted := true } }

/-- Attempts are aborted one after the other. -/
inductive Aborts : Ambient → Station → Ambient → Station → Prop where
  | refl (a : Ambient) (s : Station) : Aborts a s a s
  | step {a a₁ a' : Ambient} {s s₁ s' : Station} :
      Abort a s a₁ s₁ → Aborts a₁ s₁ a' s' → Aborts a s a' s'

/-- What one that is aborted keeps is kept by all. -/
theorem Aborts.preserve {P : Ambient → Station → Prop} {a a' : Ambient} {s s' : Station}
    (aborts : Aborts a s a' s')
    (one : ∀ {a a' : Ambient} {s s' : Station}, Abort a s a' s' → P a s → P a' s')
    (start : P a s) : P a' s' := by
  induction aborts with
  | refl => exact start
  | step abort _ ih => exact ih (one abort start)

theorem abort_of_going {a : Ambient} {s : Station} {k : Nat} {t : Attempt} {l : ReceiveLoop}
    {o : Overflow} (ht : s.attempts[k]? = some t) (going : t.isOver = false)
    (hl : s.loops[t.loop]? = some l) (broken : l.phase = .broken o) :
    Abort a s (abort a s k).1 (abort a s k).2 := by
  simp only [abort, ht]
  split
  · exact .intro _ ht going hl broken (.inr ⟨_, rfl⟩)
  · exact .intro _ ht going hl broken (.inl rfl)

section

variable {a a' : Ambient} {s s' : Station}

theorem Abort.clock (abort : Abort a s a' s') : a'.clock = a.clock := by
  cases abort
  rfl

theorem Abort.loops (abort : Abort a s a' s') : s'.loops = s.loops := by
  cases abort
  rfl

theorem Abort.receiver (abort : Abort a s a' s') : s'.receiver = s.receiver := by
  cases abort
  rfl

theorem Abort.running (abort : Abort a s a' s') : s'.running = s.running := by
  cases abort
  rfl

theorem Abort.queue (abort : Abort a s a' s') : s'.premises.queue = s.premises.queue := by
  cases abort
  exact Premises.surrender_queue ..

/-- An attempt that is aborted keeps all but that. -/
theorem Abort.attempt (abort : Abort a s a' s') {k : Nat} {t : Attempt}
    (ht : s.attempts[k]? = some t) : ∃ b, s'.attempts[k]? = some { t with aborted := b } := by
  cases abort with
  | @intro j u l o telemetry hu =>
      by_cases here : j = k
      · subst here
        obtain rfl := Option.some.inj (hu.symm.trans ht)
        exact ⟨true, List.getElem?_set_self (List.getElem?_eq_some_iff.mp ht).1⟩
      · exact ⟨t.aborted, (List.getElem?_set_ne here).trans ht⟩

theorem Abort.attempt_before (abort : Abort a s a' s') {k : Nat} {t : Attempt}
    (ht : s'.attempts[k]? = some t) :
    ∃ u, s.attempts[k]? = some u ∧ t = { u with aborted := t.aborted } := by
  cases abort with
  | @intro j u l o telemetry hu =>
      obtain ⟨rfl, rfl⟩ | ⟨_, ht⟩ := getElem?_set_cases hu ht
      · exact ⟨u, hu, rfl⟩
      · exact ⟨t, ht, rfl⟩

theorem Abort.deliveries (abort : Abort a s a' s') :
    s'.attempts.map (·.handling.context.delivery) =
      s.attempts.map (·.handling.context.delivery) := by
  cases abort with
  | intro telemetry hu => exact map_set_same hu rfl

/-- What is over stays so. -/
theorem Abort.over_of_over (abort : Abort a s a' s') {k : Nat} {t u : Attempt}
    (past : t.isOver = true) (ht : s.attempts[k]? = some t) (hu : s'.attempts[k]? = some u) :
    u.isOver = true := by
  cases abort with
  | @intro j v l o telemetry hv =>
      obtain ⟨rfl, rfl⟩ | ⟨_, hu⟩ := getElem?_set_cases hv hu
      · exact Bool.or_true _
      · obtain rfl := Option.some.inj (ht.symm.trans hu)
        exact past

theorem Abort.capacity (abort : Abort a s a' s') : s'.capacity = s.capacity := by
  cases abort
  rfl

theorem Aborts.clock (aborts : Aborts a s a' s') : a'.clock = a.clock :=
  aborts.preserve (P := fun a' _ => a'.clock = a.clock) (fun abort same => abort.clock.trans same)
    rfl

theorem Aborts.loops (aborts : Aborts a s a' s') : s'.loops = s.loops :=
  aborts.preserve (P := fun _ s' => s'.loops = s.loops) (fun abort same => abort.loops.trans same)
    rfl

theorem Aborts.receiver (aborts : Aborts a s a' s') : s'.receiver = s.receiver :=
  aborts.preserve (P := fun _ s' => s'.receiver = s.receiver)
    (fun abort same => abort.receiver.trans same) rfl

theorem Aborts.running (aborts : Aborts a s a' s') : s'.running = s.running :=
  aborts.preserve (P := fun _ s' => s'.running = s.running)
    (fun abort same => abort.running.trans same) rfl

theorem Aborts.attempt (aborts : Aborts a s a' s') {k : Nat} {t : Attempt}
    (ht : s.attempts[k]? = some t) : ∃ b, s'.attempts[k]? = some { t with aborted := b } := by
  refine aborts.preserve
    (P := fun _ s' => ∃ b, s'.attempts[k]? = some { t with aborted := b }) ?_ ⟨t.aborted, ht⟩
  rintro _ _ _ _ abort ⟨_, hu⟩
  obtain ⟨b, hv⟩ := abort.attempt hu
  exact ⟨b, hv⟩

theorem Aborts.attempt_before (aborts : Aborts a s a' s') {k : Nat} {t : Attempt}
    (ht : s'.attempts[k]? = some t) :
    ∃ u, s.attempts[k]? = some u ∧ t = { u with aborted := t.aborted } := by
  refine aborts.preserve (P := fun _ s' => ∀ t, s'.attempts[k]? = some t →
    ∃ u, s.attempts[k]? = some u ∧ t = { u with aborted := t.aborted })
    (fun abort before t ht => ?_) (fun t ht => ⟨t, ht, rfl⟩) t ht
  obtain ⟨u, hu, same⟩ := abort.attempt_before ht
  obtain ⟨v, hv, same'⟩ := before u hu
  refine ⟨v, hv, ?_⟩
  rw [same, same']

/-- An attempt that is over stays as it is, and so does one whose loop did not break off. -/
theorem Aborts.still (aborts : Aborts a s a' s') {k : Nat} {t : Attempt}
    (ht : s.attempts[k]? = some t)
    (spared : t.isOver = true ∨
      ∀ (l : ReceiveLoop) o, s.loops[t.loop]? = some l → l.phase ≠ .broken o) :
    s'.attempts[k]? = some t := by
  refine (aborts.preserve
    (P := fun _ s' => s'.attempts[k]? = some t ∧ s'.loops = s.loops) ?_ ⟨ht, rfl⟩).1
  rintro _ _ _ _ abort ⟨ht, loops⟩
  refine ⟨?_, abort.loops.trans loops⟩
  cases abort with
  | @intro j u l o telemetry hu going hl broken =>
      refine (List.getElem?_set_ne fun here => ?_).trans ht
      subst here
      obtain rfl := Option.some.inj (hu.symm.trans ht)
      obtain past | whole := spared
      · rw [past] at going
        cases going
      · exact whole l o (loops ▸ hl) broken

theorem mem_underway {i k : Nat} : k ∈ s.underway i ↔
    ∃ t, s.attempts[k]? = some t ∧ t.loop = i ∧ t.isOver = false := by
  simp only [underway, List.mem_filter, List.mem_range, Option.any_eq_true, Bool.and_eq_true,
    beq_iff_eq, Bool.not_eq_true']
  constructor
  · rintro ⟨_, t, ht, here⟩
    exact ⟨t, ht, here⟩
  · rintro ⟨t, ht, here⟩
    exact ⟨(List.getElem?_eq_some_iff.mp ht).1, t, ht, here⟩

theorem underway_nodup (s : Station) (i : Nat) : (s.underway i).Nodup :=
  List.nodup_range.filter _

theorem unfinished_eq_zero_iff {i : Nat} :
    s.unfinished i = 0 ↔ ∀ t ∈ s.attempts, t.loop = i → t.isOver = true := by
  simp [unfinished, List.length_eq_zero_iff, List.filter_eq_nil_iff]

/-- The attempts of a loop are aborted, at any places where some are in flight. -/
theorem abortAll_aborts {i : Nat} {l : ReceiveLoop} {o : Overflow} (hl : s.loops[i]? = some l)
    (broken : l.phase = .broken o) {places : List Nat} (apart : places.Nodup)
    (going : ∀ k ∈ places, ∃ t, s.attempts[k]? = some t ∧ t.loop = i ∧ t.isOver = false) :
    Aborts a s (abortAll a s places).1 (abortAll a s places).2 ∧
      ∀ t ∈ (abortAll a s places).2.attempts, t.loop = i → t.isOver = false →
        ∃ k, k ∉ places ∧ s.attempts[k]? = some t := by
  induction places generalizing a s with
  | nil =>
      refine ⟨.refl a s, fun t mem _ _ => ?_⟩
      obtain ⟨k, ht⟩ := List.mem_iff_getElem?.mp mem
      exact ⟨k, List.not_mem_nil, ht⟩
  | cons k rest ih =>
      obtain ⟨other, apart⟩ := List.nodup_cons.mp apart
      obtain ⟨t, ht, rfl, there⟩ := going k List.mem_cons_self
      have first : Abort a s (abort a s k).1 (abort a s k).2 :=
        abort_of_going ht there hl broken
      have attempts : (abort a s k).2.attempts = s.attempts.set k { t with aborted := true } := by
        simp only [abort, ht]
      have here : (s.attempts.set k { t with aborted := true })[k]? =
          some { t with aborted := true } :=
        List.getElem?_set_self (List.getElem?_eq_some_iff.mp ht).1
      rw [← first.loops] at hl
      obtain ⟨later, none⟩ := ih (a := (abort a s k).1) (s := (abort a s k).2) hl apart
        fun j mem => by
          have ne : k ≠ j := fun same => other (same ▸ mem)
          rw [attempts, List.getElem?_set_ne ne]
          exact going j (List.mem_cons_of_mem k mem)
      refine ⟨.step first later, fun u mem mine there => ?_⟩
      obtain ⟨j, away, hu⟩ := none u mem mine there
      rw [attempts] at hu
      obtain ⟨rfl, rfl⟩ | ⟨ne, hu⟩ := getElem?_set_cases ht hu
      · simp [Attempt.isOver] at there
      · exact ⟨j, List.not_mem_cons_of_ne_of_not_mem ne away, hu⟩

/-- What follows at once when a loop breaks off, and nothing otherwise. -/
structure Aftermath (a : Ambient) (s : Station) (i : Nat) (a' : Ambient) (s' : Station) : Prop where
  aborts : Aborts a s a' s'
  emptied : ∀ (l : ReceiveLoop) o, s.loops[i]? = some l → l.phase = .broken o → s'.unfinished i = 0
  still : (∀ (l : ReceiveLoop) o, s.loops[i]? = some l → l.phase ≠ .broken o) → a' = a ∧ s' = s

theorem Aftermath.none {i : Nat}
    (whole : ∀ (l : ReceiveLoop) o, s.loops[i]? = some l → l.phase ≠ .broken o) :
    Aftermath a s i a s :=
  ⟨.refl a s, fun l o hl broken => absurd broken (whole l o hl), fun _ => ⟨rfl, rfl⟩⟩

/-- No loop breaks off that only gets into another phase. -/
theorem Aftermath.setLoop {i : Nat} {l : ReceiveLoop} (sound : ∀ o, l.phase ≠ .broken o) :
    Aftermath a (s.setLoop i l) i a (s.setLoop i l) := by
  refine .none fun m o hm => ?_
  obtain ⟨within, same⟩ := List.getElem?_eq_some_iff.mp hm
  obtain rfl : l = m := by simpa [Station.setLoop] using same
  exact sound o

/-- Aborting does not look at loops. -/
theorem abortAll_setLoop (a : Ambient) (s : Station) (i : Nat) (l : ReceiveLoop)
    (places : List Nat) : abortAll a (s.setLoop i l) places =
      ((abortAll a s places).1, (abortAll a s places).2.setLoop i l) := by
  induction places generalizing a s with
  | nil => rfl
  | cons k rest ih =>
      have first : abort a (s.setLoop i l) k = ((abort a s k).1, (abort a s k).2.setLoop i l) := by
        unfold abort
        simp only [setLoop]
        cases s.attempts[k]? <;> rfl
      simp only [abortAll, first]
      exact ih _ _

/-- A loop that breaks off changes its phase, and then its attempts are aborted. -/
theorem breakOff_aftermath {i : Nat} {l : ReceiveLoop} (o : Overflow)
    (within : i < s.loops.length) :
    Aftermath a (s.setLoop i { l with phase := .broken o }) i (breakOff a s i l o).1
      (breakOff a s i l o).2 := by
  have here : (s.setLoop i { l with phase := .broken o }).loops[i]? =
      some { l with phase := .broken o } := List.getElem?_set_self within
  obtain ⟨aborts, left⟩ := abortAll_aborts (a := a) here rfl
    ((s.setLoop i { l with phase := .broken o }).underway_nodup i) fun _ => mem_underway.mp
  have same : breakOff a s i l o = abortAll a (s.setLoop i { l with phase := .broken o })
      ((s.setLoop i { l with phase := .broken o }).underway i) := by
    rw [abortAll_setLoop]
    rfl
  rw [same]
  refine ⟨aborts, fun _ _ _ _ => unfinished_eq_zero_iff.mpr fun t mem mine => ?_,
    fun whole => absurd rfl (whole _ o here)⟩
  by_contra there
  rw [Bool.not_eq_true] at there
  obtain ⟨k, away, ht⟩ := left t mem mine there
  exact away (mem_underway.mpr ⟨t, ht, mine, there⟩)

end

end Station

end Courier
