import Courier.Bench.Drain
import Courier.Proofs.Plant.Works
import Mathlib.Data.List.Infix

/-!
# Health

A host is starting, ready, draining and stopped, in this order. Whoever holds its controller, or a
clone of it, may touch the controller at any time: say that the start is finished, trigger the
shutdown, take guards and drop them, and wait for a drain. A wait is a number of looks, and others
may touch the controller between two of them.

A phase is stored whatever was stored before. So the health moves forward if and only if the phases
are announced in their order (`InOrder`), and it is for those who hold the controller to see to it.
-/

namespace Courier

/-- How far along a phase is. -/
def Health.rank : Health → Nat
  | .starting => 0
  | .ready => 1
  | .draining => 2
  | .stopped => 3

namespace Controller

/-- One thing that is done to a controller. -/
inductive Touch where
  | setReady
  | trigger
  | enter
  | leave
  /-- A look of a wait for a drain. -/
  | look (now deadline : Nat)

/-- A controller and the tokens that were fired, after a touch. -/
def touch (s : Controller × Cancellations) : Touch → Controller × Cancellations
  | .setReady => (s.1.setReady, s.2)
  | .trigger => s.1.trigger s.2
  | .enter => (s.1.enter, s.2)
  | .leave => (s.1.leave, s.2)
  | .look now deadline => ((s.1.look now deadline).1, s.2)

def touched (s : Controller × Cancellations) (touches : List Touch) : Controller × Cancellations :=
  touches.foldl touch s

variable {s : Controller × Cancellations} {touches done : List Touch} {t : Touch}

@[simp] theorem touched_nil (s : Controller × Cancellations) : touched s [] = s := rfl

@[simp] theorem touched_append (s : Controller × Cancellations) (done more : List Touch) :
    touched s (done ++ more) = touched (touched s done) more :=
  List.foldl_append

@[simp] theorem touched_singleton (s : Controller × Cancellations) (t : Touch) :
    touched s [t] = touch s t := rfl

/-! ## What touches leave -/

theorem look_health (c : Controller) (now deadline : Nat) :
    (c.look now deadline).1.health = if c.inFlight = 0 then .stopped else c.health := by
  unfold look
  split
  · rfl
  · split <;> rfl

theorem look_token (c : Controller) (now deadline : Nat) :
    (c.look now deadline).1.token = c.token := by
  unfold look
  split
  · rfl
  · split <;> rfl

theorem touch_token (s : Controller × Cancellations) (t : Touch) :
    (touch s t).1.token = s.1.token := by
  cases t with
  | look now deadline => exact look_token s.1 now deadline
  | _ => rfl

theorem touched_token (s : Controller × Cancellations) (touches : List Touch) :
    (touched s touches).1.token = s.1.token := by
  induction touches generalizing s with
  | nil => rfl
  | cons t rest ih => exact (ih (touch s t)).trans (touch_token s t)

/-- A controller nobody has touched yet. -/
structure Fresh (s : Controller × Cancellations) : Prop where
  starting : s.1.health = .starting
  untriggered : s.1.isShuttingDown s.2 = false
  own : s.1.token.lineage ≠ []

/-- Only a trigger fires the token. -/
theorem isShuttingDown_touched (fresh : Fresh s) (touches : List Touch) :
    (touched s touches).1.isShuttingDown (touched s touches).2 = true ↔ .trigger ∈ touches := by
  induction touches using List.reverseRecOn with
  | nil => simp [fresh.untriggered]
  | append_singleton done t ih =>
      rw [touched_append, touched_singleton, List.mem_append, ← ih]
      cases t with
      | trigger =>
          have own : (touched s done).1.token.lineage ≠ [] := touched_token s done ▸ fresh.own
          have fired := (touched s done).2.isCancelled_cancel own
          exact iff_of_true fired (.inr (.head _))
      | look now deadline =>
          simp only [touch, isShuttingDown, look_token, List.mem_singleton, reduceCtorEq, or_false]
      | setReady | enter | leave => simp [touch, isShuttingDown, setReady, enter, leave]

end Controller

/-! ## Waits -/

namespace Drain

open Controller

/-- The controller of a bench, and the tokens that were fired. -/
def held (d : Drain) : Controller × Cancellations := (d.controller, d.cancellations)

/-- Guards that are dropped, and looks. -/
def Waits (d d' : Drain) : Prop :=
  ∃ touches : List Touch, (∀ t ∈ touches, t = .leave ∨ ∃ now deadline, t = .look now deadline) ∧
    d'.held = touched d.held touches

variable {d d' d'' : Drain}

theorem Waits.refl (d : Drain) : Waits d d := ⟨[], nofun, rfl⟩

theorem Waits.trans (first : Waits d d') (then' : Waits d' d'') : Waits d d'' := by
  obtain ⟨touches, kinds, same⟩ := first
  obtain ⟨more, kinds', same'⟩ := then'
  refine ⟨touches ++ more, fun t mem => ?_, by rw [touched_append, ← same, same']⟩
  exact (List.mem_append.mp mem).elim (kinds t) (kinds' t)

theorem dropGuard_waits (d : Drain) (name : String) : Waits d (d.dropGuard name) := by
  unfold dropGuard
  split
  · exact ⟨[.leave], by simp, rfl⟩
  · exact .refl d

theorem dropUntil_waits (d : Drain) (now : Nat) : Waits d (d.dropUntil now) := by
  have drops (due : List (Nat × String)) (d : Drain) :
      Waits d (due.foldl (fun s e => s.dropGuard e.2) d) := by
    induction due generalizing d with
    | nil => exact .refl d
    | cons e rest ih => exact (dropGuard_waits d e.2).trans (ih _)
  have later (drops : List (Nat × String)) : Waits d { d with drops := drops } := ⟨[], nofun, rfl⟩
  exact (later _).trans (drops _ _)

/-- A wait for a drain is looks, and guards that are dropped between them. -/
theorem wait_waits (deadline fuel : Nat) (d : Drain) : Waits d (wait deadline fuel d).1 := by
  induction fuel generalizing d with
  | zero => exact .refl d
  | succ fuel ih =>
      have looked : Waits d { d with controller := (d.controller.look d.clock.now deadline).1 } :=
        ⟨[.look d.clock.now deadline], by simp, rfl⟩
      unfold wait
      split
      · rename_i c inTime found
        rwa [found] at looked
      · rename_i c found
        rw [found] at looked
        exact looked.trans ((dropUntil_waits _ _).trans (ih { dropUntil _ _ with clock := _ }))

end Drain

namespace Controller

variable {s : Controller × Cancellations} {touches done : List Touch} {t : Touch}

/-! ## The order of the phases -/

/-- A wait has found no attempt in flight. -/
def Drained (s : Controller × Cancellations) (touches : List Touch) : Prop :=
  ∃ done now deadline, done ++ [.look now deadline] <+: touches ∧
    (touched s done).1.inFlight = 0

/-- Whatever is read later is at least as far along. -/
def Forward (s : Controller × Cancellations) (touches : List Touch) : Prop :=
  ∀ done more, done <+: more → more <+: touches →
    (touched s done).1.health.rank ≤ (touched s more).1.health.rank

instance (s : Controller × Cancellations) (touches : List Touch) :
    Decidable (Forward s touches) :=
  decidable_of_iff (∀ more ∈ touches.inits, ∀ done ∈ more.inits,
      (touched s done).1.health.rank ≤ (touched s more).1.health.rank) <| by
    simp only [List.mem_inits]
    exact ⟨fun all done more first within => all more within done first,
      fun forward more within done first => forward done more first within⟩

/-- The phases are announced in their order. -/
structure InOrder (s : Controller × Cancellations) (touches : List Touch) : Prop where
  ready : ∀ done, done ++ [.setReady] <+: touches → .trigger ∉ done ∧ ¬ Drained s done
  draining : ∀ done, done ++ [.trigger] <+: touches → ¬ Drained s done

theorem Drained.mono (drained : Drained s done) (first : done <+: touches) :
    Drained s touches := by
  obtain ⟨before, now, deadline, looked, none⟩ := drained
  exact ⟨before, now, deadline, looked.trans first, none⟩

theorem InOrder.mono (order : InOrder s touches) (first : done <+: touches) : InOrder s done where
  ready before announced := order.ready before (announced.trans first)
  draining before announced := order.draining before (announced.trans first)

/-- Without a drain the host is not stopped, and without a trigger it is not draining either. -/
theorem rank_le (fresh : Fresh s) (undrained : ¬ Drained s touches) :
    (touched s touches).1.health.rank ≤ 2 ∧
      (.trigger ∉ touches → (touched s touches).1.health.rank ≤ 1) := by
  induction touches using List.reverseRecOn with
  | nil => simp [fresh.starting, Health.rank]
  | append_singleton done t ih =>
      have before := ih fun drained => undrained (drained.mono (List.prefix_append _ _))
      rw [touched_append, touched_singleton]
      cases t with
      | setReady => simp [touch, Health.rank]
      | trigger => simp [touch, Health.rank]
      | enter | leave => simpa [touch, enter, leave] using before
      | look now deadline =>
          have busy : (touched s done).1.inFlight ≠ 0 := fun none =>
            undrained ⟨done, now, deadline, List.prefix_refl _, none⟩
          simpa [touch, look_health, busy] using before

/-- While the health moves forward, the phases that were announced are not left again. -/
theorem Forward.rank_ge (forward : Forward s touches) (first : done <+: touches) :
    (.trigger ∈ done → 2 ≤ (touched s done).1.health.rank) ∧
      (Drained s done → 3 ≤ (touched s done).1.health.rank) := by
  constructor
  · intro triggered
    obtain ⟨before, after, rfl⟩ := List.append_of_mem triggered
    have announced : before ++ [.trigger] <+: before ++ .trigger :: after := by simp
    have kept := forward _ _ announced first
    rwa [touched_append, touched_singleton] at kept
  · rintro ⟨before, now, deadline, looked, none⟩
    have kept := forward _ _ looked first
    rwa [touched_append, touched_singleton, touch, look_health, if_pos none] at kept

theorem Forward.inOrder (forward : Forward s touches) : InOrder s touches := by
  refine ⟨fun done announced => ?_, fun done announced => ?_⟩
  · have moved := forward _ _ (List.prefix_append done _) announced
    have kept := forward.rank_ge ((List.prefix_append done _).trans announced)
    rw [touched_append, touched_singleton, touch, setReady_health, Health.rank] at moved
    refine ⟨fun triggered => ?_, fun drained => ?_⟩
    · have := kept.1 triggered
      omega
    · have := kept.2 drained
      omega
  · have moved := forward _ _ (List.prefix_append done _) announced
    have kept := forward.rank_ge ((List.prefix_append done _).trans announced)
    rw [touched_append, touched_singleton, touch, trigger_health, Health.rank] at moved
    intro drained
    have := kept.2 drained
    omega

/-- One more touch in its order moves the health forward. -/
theorem InOrder.rank_touch (fresh : Fresh s) (order : InOrder s (done ++ [t])) :
    (touched s done).1.health.rank ≤ (touch (touched s done) t).1.health.rank := by
  cases t with
  | setReady =>
      obtain ⟨untriggered, undrained⟩ := order.ready done (List.prefix_refl _)
      exact (rank_le fresh undrained).2 untriggered
  | trigger => exact (rank_le fresh (order.draining done (List.prefix_refl _))).1
  | enter | leave => exact Nat.le_refl _
  | look now deadline =>
      simp only [touch, look_health]
      split
      · cases (touched s done).1.health <;> decide
      · exact Nat.le_refl _

theorem InOrder.forward (fresh : Fresh s) (order : InOrder s touches) : Forward s touches := by
  induction touches using List.reverseRecOn with
  | nil =>
      intro done more first within
      obtain rfl := List.prefix_nil.mp within
      obtain rfl := List.prefix_nil.mp first
      exact Nat.le_refl _
  | append_singleton before t ih =>
      have earlier := ih (order.mono (List.prefix_append _ _))
      intro done more first within
      obtain rfl | within := List.prefix_concat_iff.mp within
      · obtain rfl | first := List.prefix_concat_iff.mp first
        · exact Nat.le_refl _
        · rw [touched_append s before, touched_singleton]
          have kept := earlier done before first (List.prefix_refl _)
          exact Nat.le_trans kept (order.rank_touch fresh)
      · exact earlier done more first within

/-! ## Ready too late, stopped too early -/

/-- Where the host is ready after a trigger, someone has said so after a trigger. -/
theorem ready_of_late (triggered : .trigger ∈ touches)
    (ready : (touched s touches).1.health = .ready) :
    ∃ done, done ++ [.setReady] <+: touches ∧ .trigger ∈ done := by
  induction touches using List.reverseRecOn with
  | nil => cases triggered
  | append_singleton before t ih =>
      rw [touched_append, touched_singleton] at ready
      have earlier (old : .trigger ∈ before) (same : (touched s before).1.health = .ready) :
          ∃ done, done ++ [.setReady] <+: before ++ [t] ∧ .trigger ∈ done := by
        obtain ⟨done, announced, late⟩ := ih old same
        exact ⟨done, announced.trans (List.prefix_append _ _), late⟩
      cases t with
      | setReady => exact ⟨before, List.prefix_refl _, by simpa using triggered⟩
      | trigger => cases ready
      | enter | leave => exact earlier (by simpa using triggered) ready
      | look now deadline =>
          rw [touch, look_health] at ready
          split at ready
          · cases ready
          · exact earlier (by simpa using triggered) ready

theorem drained_of_stopped (fresh : Fresh s) (stopped : (touched s touches).1.health = .stopped) :
    Drained s touches := by
  by_contra undrained
  have below := (rank_le fresh undrained).1
  rw [stopped, Health.rank] at below
  omega

/-- A new controller and whatever is done to it by all who hold it, in any order.

The health moves forward if and only if the phases are announced in their order: nobody says that
the start is finished once the shutdown was triggered or a wait has found no attempt in flight, and
nobody triggers the shutdown after such a wait. It never reads ready after a trigger if and only if
nobody says so after one; and it never reads stopped before a trigger if and only if no wait has
found the host without attempts by then. -/
theorem health_forward_iff (fresh : Fresh s) (touches : List Touch) :
    (Forward s touches ↔ InOrder s touches) ∧
    ((∀ done, done <+: touches → (touched s done).1.isShuttingDown (touched s done).2 = true →
        (touched s done).1.health ≠ .ready) ↔
      ∀ done, done ++ [.setReady] <+: touches → .trigger ∉ done) ∧
    ((∀ done, done <+: touches → (touched s done).1.health = .stopped →
        (touched s done).1.isShuttingDown (touched s done).2 = true) ↔
      ∀ done, done <+: touches → Drained s done → .trigger ∈ done) := by
  refine ⟨⟨Forward.inOrder, InOrder.forward fresh⟩, ⟨fun never done announced late => ?_,
    fun timely done first triggered ready => ?_⟩, ⟨fun never done first drained => ?_,
    fun timely done first stopped => ?_⟩⟩
  · have triggered := (isShuttingDown_touched fresh (done ++ [.setReady])).mpr
      (List.mem_append_left _ late)
    exact never _ announced triggered (by rw [touched_append]; rfl)
  · rw [isShuttingDown_touched fresh] at triggered
    obtain ⟨before, announced, late⟩ := ready_of_late triggered ready
    exact timely before (announced.trans first) late
  · obtain ⟨before, now, deadline, looked, none⟩ := drained
    have stopped : (touched s (before ++ [.look now deadline])).1.health = .stopped := by
      rw [touched_append, touched_singleton, touch, look_health, if_pos none]
    have triggered := (isShuttingDown_touched fresh _).mp (never _ (looked.trans first) stopped)
    exact looked.subset triggered
  · exact (isShuttingDown_touched fresh done).mpr
      (timely done first (drained_of_stopped fresh stopped))

/-- A start, a shutdown and a wait during which the last attempt comes to its end. -/
theorem health_forward_iff_start :
    let s := (Drain.start.controller, Drain.start.cancellations)
    let touches := [.enter, .setReady, .trigger, .look 0 20, .leave, .look 10 20]
    Fresh s ∧ InOrder s touches ∧ (touched s touches).1.health = .stopped := by
  intro s touches
  have fresh : Fresh s := ⟨rfl, rfl, by decide⟩
  have forward : Forward s touches := by decide +kernel
  exact ⟨fresh, (health_forward_iff fresh touches).1.mp forward, by decide⟩

/-- The shutdown is triggered before the start is finished, or a wait comes before it. In a host the
first happens where somebody triggers the shutdown while a part takes its time to start: the host
ends up ready and shutting down. -/
theorem health_turns_back :
    let s := (Drain.start.controller, Drain.start.cancellations)
    let late := touched s [.trigger, .setReady]
    let early := touched s [.look 0 0]
    let slow : Plant :=
      { Shift.emptyPlant with
        doubles := [{ name := "billing", lockId := "billing",
                      starts := [{ delay := .ofMilliseconds 50 }] }]
        host := { config := { instanceId := "node-1" }, parts := [.double 0] } }
    let p := Works.run slow [.launch none, .step .foreground, .pass 10000000, .trigger,
      .pass 50000000, .step .foreground, .step .foreground]
    Fresh s ∧ ¬ Forward s [.trigger, .setReady] ∧
      (late.1.health = .ready ∧ late.1.isShuttingDown late.2 = true) ∧
      (early.1.health = .stopped ∧ early.1.isShuttingDown early.2 = false) ∧
      (p.foreground.map (·.isOver) = some true ∧ p.ambient.controller.health = .ready ∧
        p.ambient.controller.isShuttingDown p.ambient.cancellations = true) := by
  intro s late early slow p
  exact ⟨⟨rfl, rfl, by decide⟩, by decide +kernel, by decide, by decide, by decide +kernel⟩

end Controller

end Courier
