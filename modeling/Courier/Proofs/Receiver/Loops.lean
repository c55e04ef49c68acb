import Courier.Proofs.Queue.Batches
import Courier.Proofs.Receiver.Duty

/-!
# What the steps of a loop do

`Station.LoopStep` says all that a loop does in a step: the phase that it gets into, the attempts
that it makes, and that nothing else changes but the queue. If it breaks off its attempts are
aborted then (`Station.Aftermath`). A step looks into the queue or not. A step without a look makes
no attempts, and `Shifts` lists the phases between which it goes. A step with a look gets into the
phase that the outcome says, and makes an attempt for each delivery of a batch that can be read. A
batch is never larger than the room for which it was asked.

Whoever needs to know about loops takes it from here and looks at no step again.
-/

namespace Courier

open Queue (Record Moves)

/-! ## Looks -/

namespace Receiving

/-- What the outcome of a receive for at most `max` messages can be. -/
structure Outcome.Within (max : Nat) (o : Outcome) : Prop where
  batch : ∀ ds, o = .batch ds → ds.length ≤ max
  waiting : ∀ r, o = .waiting r → r.max = max

variable {q : Queue} {now max : Nat} {lock : Duration}

theorem look_within (some : 0 < max) (deadline : Nat) :
    (look q now max lock deadline).2.Within max := by
  unfold look
  cases seen : q.look now max lock with
  | mk q' take =>
      cases take with
      | failed f => exact ⟨nofun, nofun⟩
      | overflow => exact ⟨nofun, nofun⟩
      | batch ds =>
          cases ds with
          | nil => exact ⟨nofun, by rintro r ⟨rfl⟩; rfl⟩
          | cons d rest =>
              refine ⟨?_, nofun⟩
              rintro ds ⟨rfl⟩
              unfold Queue.look at seen
              split at seen
              · simp at seen
              · exact (Queue.take_served (congrArg Prod.snd seen)).length_le some

theorem start_within (some : 0 < max) (wait : Duration) :
    (start q now max wait lock).2.Within max := by
  unfold start
  split
  · exact look_within some _
  · exact ⟨nofun, nofun⟩

theorem resume_within {r : Receiving} (some : 0 < r.max) (clock : Clock) :
    (resume q clock r).2.Within r.max := by
  unfold resume
  split
  · exact look_within some _
  · split
    · split
      · exact ⟨by rintro ds ⟨rfl⟩; exact Nat.zero_le _, nofun⟩
      · exact look_within some _
    · exact ⟨nofun, by rintro r' ⟨rfl⟩; rfl⟩

end Receiving

/-- A token right below another. -/
def CancelToken.IsChild (child parent : CancelToken) : Prop :=
  ∃ n, child.lineage = n :: parent.lineage

namespace Station

/-- The deliveries of an outcome. -/
def deliveriesOf : Receiving.Outcome → List Delivery
  | .batch ds => ds
  | _ => []

/-- The deliveries that the next step of a loop receives. -/
def received (s : Station) (a : Ambient) (i : Nat) : List Delivery :=
  match s.look? a i with
  | some (_, _, o) => deliveriesOf o
  | none => []

theorem received_of_look {s : Station} {a : Ambient} {i : Nat} (none : s.look? a i = none) :
    s.received a i = [] := by
  rw [received, none]

/-- What is stranded or lost by a look has its reason there. -/
theorem look?_excused {s : Station} {a : Ambient} {i : Nat} {lock : Duration}
    {seen : Queue × Receiving.Outcome} (look : s.look? a i = some (lock, seen)) :
    Queue.Excused (seen.2.records a.now lock) := by
  unfold look? at look
  split at look
  · cases look
  · split at look
    · split at look
      · cases look
      · obtain ⟨rfl, rfl⟩ := Prod.mk.inj (Option.some.inj look)
        exact Receiving.start_excused ..
    · rename_i r _
      split at look
      · cases look
      · obtain ⟨rfl, rfl⟩ := Prod.mk.inj (Option.some.inj look)
        exact Receiving.resume_excused _ a.clock r
    · cases look

/-- What a history tells of a look is what it tells of the look itself and of the deliveries. -/
theorem lookRecords_eq (s : Station) (now : Nat) (lock : Duration) (q : Queue)
    (o : Receiving.Outcome) : s.lookRecords now lock q o =
      o.records now lock ++ rejections s.decode now q (deliveriesOf o) := by
  cases o <;> rfl

/-! ## Attempts -/

/-- An attempt as a loop makes it: for a delivery that can be read, and not begun yet. -/
structure New (s : Station) (i : Nat) (t : Attempt) : Prop where
  loop : t.loop = i
  settlement : t.handling.settlement = {}
  invoked : t.handling.invoked = false
  program : t.program = handle 0 s.own s.processor t.handling.context
  tickets : t.tickets = []
  kept : t.aborted = false
  context : ∃ payload, s.decode t.delivery.message = .ok payload ∧ t.handling.context =
    ⟨s.receiver.name, t.delivery, payload.toValue, s.receiver.settings.deadLetterDeliveryLimit⟩

theorem reject_controller (s : Station) (a : Ambient) (d : Delivery) (f : CodecFault) :
    (s.reject a d f).1.controller = a.controller := by
  simp only [reject]
  split <;> rfl

theorem reject_cancellations (s : Station) (a : Ambient) (d : Delivery) (f : CodecFault) :
    (s.reject a d f).1.cancellations = a.cancellations := by
  simp only [reject]
  split <;> rfl

/-- What comes of the deliveries of a batch: attempts for those that can be read. -/
structure Accepted (a a' : Ambient) (s s' : Station) (i : Nat) (ds : List Delivery)
    (made : List Attempt) : Prop where
  attempts : s'.attempts = s.attempts ++ made
  new : ∀ t ∈ made, s.New i t
  deliveries : made.map (·.delivery) = ds.filter fun d => (s.decode d.message).isOk
  inFlight : a'.controller.inFlight = a.controller.inFlight + made.length
  fired : a'.cancellations.fired = a.cancellations.fired
  clock : a'.clock = a.clock
  rest : s' = { s with
    premises := { s.premises with queue := s'.premises.queue }
    attempts := s'.attempts }

namespace Accepted

variable {a a' a'' : Ambient} {s s' s'' : Station} {i : Nat} {ds : List Delivery}
  {made : List Attempt}

/-- Nothing comes of no deliveries. -/
theorem still (controller : a'.controller = a.controller)
    (cancellations : a'.cancellations = a.cancellations) (clock : a'.clock = a.clock)
    (rest : s' = { s with premises := { s.premises with queue := s'.premises.queue } }) :
    Accepted a a' s s' i [] [] where
  attempts := by rw [rest, List.append_nil]
  new t mem := by simp at mem
  deliveries := rfl
  inFlight := by rw [controller, List.length_nil, Nat.add_zero]
  fired := by rw [cancellations]
  clock := clock
  rest := by rw [rest]

theorem length_le (accepted : Accepted a a' s s' i ds made) : made.length ≤ ds.length := by
  rw [← List.length_map (f := (·.delivery)), accepted.deliveries]
  exact List.length_filter_le _ _

/-- What is new to a station after some of a batch is new to it before. -/
theorem new_after (rest : s' = { s with
      premises := { s.premises with queue := s'.premises.queue }
      attempts := s'.attempts }) {t : Attempt} (new : s'.New i t) : s.New i t := by
  rw [rest] at new
  exact ⟨new.loop, new.settlement, new.invoked, new.program, new.tickets, new.kept, new.context⟩

end Accepted

theorem acceptAll_accepted (i : Nat) (l : ReceiveLoop) (a : Ambient) (s : Station)
    (ds : List Delivery) : ∃ made,
      Accepted a (acceptAll i l a s ds).1 s (acceptAll i l a s ds).2.1 i ds made ∧
        (∀ t ∈ made, t.handling.token.IsChild l.token) ∧
        (acceptAll i l a s ds).2.2 = made.length := by
  induction ds generalizing a s with
  | nil => exact ⟨[], .still rfl rfl rfl rfl, List.forall_mem_nil _, rfl⟩
  | cons d rest ih =>
      cases readable : s.decode d.message with
      | ok payload =>
          obtain ⟨made, later, below, count⟩ := ih (s.dispatch a i l d payload).1
            (s.dispatch a i l d payload).2
          obtain ⟨t, attempts, delivery, token, new⟩ : ∃ t,
              (s.dispatch a i l d payload).2.attempts = s.attempts ++ [t] ∧ t.delivery = d ∧
                t.handling.token.IsChild l.token ∧ s.New i t :=
            ⟨_, rfl, rfl, ⟨_, rfl⟩, rfl, rfl, rfl, rfl, rfl, rfl, payload, readable, rfl⟩
          simp only [acceptAll, readable]
          refine ⟨t :: made, ⟨?_, ?_, ?_, ?_, ?_, ?_, ?_⟩, List.forall_mem_cons.mpr ⟨token, below⟩,
            ?_⟩
          · rw [later.attempts, attempts, List.append_assoc, List.singleton_append]
          · intro u mem
            obtain rfl | mem := List.mem_cons.mp mem
            · exact new
            · exact Accepted.new_after rfl (later.new u mem)
          · rw [List.filter_cons_of_pos (by rw [readable]; rfl), List.map_cons, delivery,
              later.deliveries]
            rfl
          · rw [later.inFlight, List.length_cons]
            simp only [dispatch, Controller.enter, Ambient.child]
            omega
          · exact later.fired
          · exact later.clock
          · exact later.rest
          · rw [count, List.length_cons]
      | error f =>
          obtain ⟨made, later, below, count⟩ := ih (s.reject a d f).1 (s.reject a d f).2
          have frame := s.reject_station a d f
          simp only [acceptAll, readable]
          refine ⟨made, ⟨?_, ?_, ?_, ?_, ?_, ?_, ?_⟩, below, count⟩
          · rw [later.attempts, frame]
            rfl
          · intro u mem
            exact Accepted.new_after (by rw [frame]; rfl) (later.new u mem)
          · rw [List.filter_cons_of_neg (by rw [readable]; exact Bool.false_ne_true),
              later.deliveries, s.reject_decode]
          · rw [later.inFlight, s.reject_controller]
          · rw [later.fired, s.reject_cancellations]
          · rw [later.clock, s.reject_clock]
          · rw [later.rest, frame]
            rfl

/-- What the history of the queue tells of a batch is what happens to the queue. -/
theorem acceptAll_moves (i : Nat) (l : ReceiveLoop) (a : Ambient) (s : Station)
    (ds : List Delivery) : Moves a.now s.premises.queue
      (rejections s.decode a.now s.premises.queue ds)
      (acceptAll i l a s ds).2.1.premises.queue := by
  induction ds generalizing a s with
  | nil => exact .refl _
  | cons d rest ih =>
      simp only [acceptAll, rejections]
      cases readable : s.decode d.message with
      | ok payload => exact ih (s.dispatch a i l d payload).1 (s.dispatch a i l d payload).2
      | error f =>
          have later := ih (s.reject a d f).1 (s.reject a d f).2
          rw [s.reject_now, s.reject_decode, s.reject_queue] at later
          exact (Queue.settle_moves a.now s.premises.queue d.token _).trans later

end Station

/-! ## Steps -/

/-- Whether a loop that is cancelled still has to give up receiving. -/
def LoopPhase.listens : LoopPhase → Bool
  | .ready => true
  | .full => true
  | .receiving _ => true
  | .resting _ => true
  | _ => false

namespace Station

/-- The phase that a loop gets into by the outcome of a look. -/
def phaseAfter (s : Station) (now : Nat) : Receiving.Outcome → LoopPhase
  | .waiting r => .receiving r
  | .batch _ => .ready
  | .failed .closed => .draining
  | .failed _ => .resting (now + s.receiver.config.receiveErrorBackoff.nanoseconds)
  | .overflow spill => .broken spill.overflow

theorem hear_accepted (a : Ambient) (s : Station) (i : Nat) (l : ReceiveLoop) (q : Queue)
    (o : Receiving.Outcome) : ∃ made l', (hear a s i l (q, o)).2.loops = s.loops.set i l' ∧
      l'.token = l.token ∧ l'.phase = s.phaseAfter a.now o ∧
      Accepted a (hear a s i l (q, o)).1 s
        { (hear a s i l (q, o)).2 with loops := s.loops } i (deliveriesOf o) made ∧
      (∀ t ∈ made, t.handling.token.IsChild l.token) ∧
      Moves a.now q (rejections s.decode a.now q (deliveriesOf o))
        (hear a s i l (q, o)).2.premises.queue := by
  cases o with
  | waiting r | overflow spill =>
      exact ⟨[], _, rfl, rfl, rfl, .still rfl rfl rfl rfl, List.forall_mem_nil _, .refl q⟩
  | failed f =>
      cases f <;>
        exact ⟨[], _, rfl, rfl, rfl, .still rfl rfl rfl rfl, List.forall_mem_nil _, .refl q⟩
  | batch ds =>
      obtain ⟨made, accepted, below, _⟩ := acceptAll_accepted i l a (s.withQueue q) ds
      have loops := (acceptAll_aside i l a (s.withQueue q) ds).2.1
      refine ⟨made, { l with
          phase := .ready
          tracked := l.tracked + (acceptAll i l a (s.withQueue q) ds).2.2 },
        congrArg (List.set · i _) loops, rfl, rfl, ?_, below,
        acceptAll_moves i l a (s.withQueue q) ds⟩
      refine ⟨accepted.attempts, fun t mem => ?_, accepted.deliveries, accepted.inFlight,
        accepted.fired, accepted.clock, ?_⟩
      · have new := accepted.new t mem
        exact ⟨new.loop, new.settlement, new.invoked, new.program, new.tickets, new.kept,
          new.context⟩
      · simp only [hear, receive, setLoop]
        rw [accepted.rest]
        rfl

/-- The phases between which a loop goes without a look; `busy` is the number of its attempts that
have not ended. -/
inductive Shifts (s : Station) (cancelled : Bool) (busy : Nat) : LoopPhase → LoopPhase → Prop where
  | misfit : s.receiver.settings.inFlightCapacity? = none →
      Shifts s cancelled busy .begun (.broken .count)
  | begin : s.receiver.settings.inFlightCapacity? ≠ none → Shifts s cancelled busy .begun .ready
  | fill : s.capacity ≤ busy → Shifts s cancelled busy .ready .full
  | room : busy < s.capacity → Shifts s cancelled busy .full .ready
  | rested (t : Nat) : Shifts s cancelled busy (.resting t) .ready
  | quit {phase : LoopPhase} : phase.listens = true → cancelled = true →
      Shifts s cancelled busy phase .draining
  | finish : busy = 0 → Shifts s cancelled busy .draining .ended

/-- What makes a loop go from one phase to another, with the look that it makes. -/
inductive Cause (a : Ambient) (s : Station) (i : Nat) (l : ReceiveLoop) (phase : LoopPhase) :
    Prop where
  | shift : s.look? a i = none → Shifts s (a.isCancelled l.token) (s.unfinished i) l.phase phase →
      Cause a s i l phase
  | look (max : Nat) (lock : Duration) (q : Queue) (o : Receiving.Outcome) :
      s.look? a i = some (lock, q, o) → a.isCancelled l.token = false →
      phase = s.phaseAfter a.now o →
      (l.phase = .ready ∧ max + s.unfinished i = s.capacity ∧ 0 < max ∨
        ∃ r, l.phase = .receiving r ∧ r.max = max) →
      (0 < max → o.Within max) → Cause a s i l phase

/-- All that a loop does in a step, apart from the aborts that follow if it breaks off. -/
structure LoopStep (a a' : Ambient) (s s' : Station) (i : Nat) (l l' : ReceiveLoop)
    (made : List Attempt) : Prop where
  was : s.loops[i]? = some l
  token : l'.token = l.token
  loops : s'.loops = s.loops.set i l'
  cause : Cause a s i l l'.phase
  accepted : Accepted a a' s { s' with loops := s.loops } i (s.received a i) made
  below : ∀ t ∈ made, t.handling.token.IsChild l.token
  moves : Moves a.now s.premises.queue (s.loopRecords a i) s'.premises.queue

theorem LoopStep.of_shift {a a' : Ambient} {s : Station} {i : Nat} {l l' : ReceiveLoop}
    (was : s.loops[i]? = some l) (token : l'.token = l.token) (look : s.look? a i = none)
    (shifts : Shifts s (a.isCancelled l.token) (s.unfinished i) l.phase l'.phase)
    (controller : a'.controller = a.controller)
    (cancellations : a'.cancellations = a.cancellations) (clock : a'.clock = a.clock) :
    LoopStep a a' s (s.setLoop i l') i l l' [] where
  was := was
  token := token
  loops := rfl
  cause := .shift look shifts
  accepted := by
    rw [received, look]
    exact .still controller cancellations clock rfl
  below := List.forall_mem_nil _
  moves := by
    rw [loopRecords, look]
    exact .refl _

/-- A loop that is cancelled looks no more. -/
theorem look?_of_cancelled {s : Station} {a : Ambient} {i : Nat} {l : ReceiveLoop}
    (was : s.loops[i]? = some l) (cancelled : a.isCancelled l.token = true) :
    s.look? a i = none := by
  unfold look?
  simp only [was]
  cases l.phase with
  | ready => exact if_pos (by simp [cancelled])
  | receiving r => exact if_pos (by simp [cancelled])
  | _ => rfl

/-- A shift is all that comes of a step, unless the loop breaks off by it. -/
theorem LoopStep.exists_shift {a a' : Ambient} {s : Station} {i : Nat} {l l' : ReceiveLoop}
    (was : s.loops[i]? = some l) (token : l'.token = l.token) (look : s.look? a i = none)
    (shifts : Shifts s (a.isCancelled l.token) (s.unfinished i) l.phase l'.phase)
    (sound : ∀ o, l'.phase ≠ .broken o) (controller : a'.controller = a.controller)
    (cancellations : a'.cancellations = a.cancellations) (clock : a'.clock = a.clock) :
    ∃ l l'' made a₁ s₁, LoopStep a a₁ s s₁ i l l'' made ∧
      Aftermath a₁ s₁ i a' (s.setLoop i l') :=
  ⟨l, l', [], a', s.setLoop i l', .of_shift was token look shifts controller cancellations clock,
    .setLoop sound⟩

theorem LoopStep.exists_drain {a : Ambient} {s : Station} {i : Nat} {l l₁ : ReceiveLoop}
    (was : s.loops[i]? = some l) (same : l₁.token = l.token)
    (listens : l.phase.listens = true) (cancelled : a.isCancelled l.token = true) :
    ∃ l l' made a₁ s₁, LoopStep a a₁ s s₁ i l l' made ∧
      Aftermath a₁ s₁ i (drain a s i l₁).1 (drain a s i l₁).2 :=
  exists_shift was same (look?_of_cancelled was cancelled) (.quit listens cancelled) nofun rfl rfl
    rfl

theorem LoopStep.of_look {a : Ambient} {s : Station} {i max : Nat} {l : ReceiveLoop}
    {lock : Duration} {seen : Queue × Receiving.Outcome} (l₁ : ReceiveLoop)
    (was : s.loops[i]? = some l) (look : s.look? a i = some (lock, seen))
    (same : l₁.token = l.token) (cancelled : a.isCancelled l.token = false)
    (room : l.phase = .ready ∧ max + s.unfinished i = s.capacity ∧ 0 < max ∨
      ∃ r, l.phase = .receiving r ∧ r.max = max) (within : 0 < max → seen.2.Within max) :
    ∃ l' made, LoopStep a (hear a s i l₁ seen).1 s (hear a s i l₁ seen).2 i l l' made := by
  obtain ⟨q, o⟩ := seen
  obtain ⟨made, l', loops, token, phase, accepted, below, moves⟩ := hear_accepted a s i l₁ q o
  refine ⟨l', made, was, token.trans same, loops,
    .look max lock q o look cancelled phase room within, ?_, same ▸ below, ?_⟩
  · rw [received, look]
    exact accepted
  · rw [loopRecords, look]
    change Moves a.now s.premises.queue (s.lookRecords a.now lock q o)
      (hear a s i l₁ (q, o)).2.premises.queue
    rw [lookRecords_eq]
    exact (look?_moves look).trans moves

/-- A loop that looks for room finds none, gives up or begins to receive. -/
theorem seek_step {s s' : Station} {a a' : Ambient} {i : Nat} {l : ReceiveLoop}
    (was : s.loops[i]? = some l) (phase : l.phase = .ready) (step : seek a s i l = (a', s')) :
    ∃ l l' made a₁ s₁, LoopStep a a₁ s s₁ i l l' made ∧ Aftermath a₁ s₁ i a' s' := by
  have look : s.look? a i = s.look? a i := rfl
  conv at look => rhs; unfold look?; simp only [was, phase]
  simp only [seek] at step
  by_cases full : s.capacity ≤ s.unfinished i
  · rw [if_pos full] at step
    cases step
    rw [if_pos (by simp [full])] at look
    exact LoopStep.exists_shift was rfl look (phase ▸ .fill full) (by simp) rfl rfl rfl
  · rw [if_neg full] at step
    by_cases cancelled : a.isCancelled l.token = true
    · rw [if_pos cancelled] at step
      cases step
      exact LoopStep.exists_drain was rfl (by rw [phase]; rfl) cancelled
    · rw [if_neg cancelled] at step
      rw [if_neg (by simp [full, cancelled])] at look
      obtain ⟨l', made, loop⟩ := LoopStep.of_look { l with tracked := s.unfinished i } was look
        rfl (eq_false_of_ne_true cancelled)
        (.inl ⟨phase, Nat.sub_add_cancel (by omega), by omega⟩)
        (fun some => Receiving.start_within some _)
      exact ⟨l, l', made, _, _, loop,
        hear_aftermath (List.getElem?_eq_some_iff.mp was).1 step⟩

/-- Every step of a loop is one of these, with what follows of it. -/
theorem stepLoop_step {s s' : Station} {a a' : Ambient} {i : Nat}
    (step : s.stepLoop a i = some (a', s')) : ∃ l l' made a₁ s₁,
      LoopStep a a₁ s s₁ i l l' made ∧ Aftermath a₁ s₁ i a' s' := by
  unfold stepLoop at step
  cases was : s.loops[i]? with
  | none => simp [was] at step
  | some l =>
      have within := (List.getElem?_eq_some_iff.mp was).1
      have look : s.look? a i = s.look? a i := rfl
      simp only [was] at step
      conv at look => rhs; unfold look?; simp only [was]
      cases phase : l.phase with
      | begun =>
          simp only [phase] at step look
          split at step
          · rename_i misfit
            cases step
            exact ⟨l, { l with phase := .broken .count }, [], a, _,
              .of_shift was rfl look (phase ▸ .misfit misfit) rfl rfl rfl,
              breakOff_aftermath .count within⟩
          · rename_i capacity fits
            cases step
            have some : s.receiver.settings.inFlightCapacity? ≠ none := by simp [fits]
            exact LoopStep.exists_shift was rfl look (phase ▸ .begin some) (by simp) rfl rfl rfl
      | ready =>
          simp only [phase] at step
          exact seek_step was phase (Option.some.inj step)
      | full =>
          simp only [phase] at step look
          split at step
          · rename_i cancelled
            cases step
            exact LoopStep.exists_drain was rfl (by rw [phase]; rfl) cancelled
          · split at step
            · rename_i room
              cases step
              exact LoopStep.exists_shift was rfl look (phase ▸ .room room) (by simp) rfl rfl rfl
            · simp at step
      | receiving r =>
          simp only [phase] at step look
          by_cases cancelled : a.isCancelled l.token = true
          · rw [if_pos cancelled] at step
            cases step
            exact LoopStep.exists_drain was rfl (by rw [phase]; rfl) cancelled
          · rw [if_neg cancelled] at step
            split at step
            · rename_i roused
              rw [if_neg (by simp [cancelled, roused])] at look
              obtain ⟨l', made, loop⟩ := LoopStep.of_look l was look rfl
                (eq_false_of_ne_true cancelled) (.inr ⟨r, phase, rfl⟩)
                (fun some => Receiving.resume_within some a.clock)
              exact ⟨l, l', made, _, _, loop, hear_aftermath within (Option.some.inj step)⟩
            · simp at step
      | resting t =>
          simp only [phase] at step look
          split at step
          · rename_i cancelled
            cases step
            exact LoopStep.exists_drain was rfl (by rw [phase]; rfl) cancelled
          · split at step
            · cases step
              exact LoopStep.exists_shift was rfl look (phase ▸ .rested t) (by simp) rfl rfl rfl
            · simp at step
      | draining =>
          simp only [phase] at step look
          split at step
          · rename_i none
            cases step
            exact LoopStep.exists_shift was rfl look (phase ▸ .finish none) (by simp) rfl rfl rfl
          · simp at step
      | ended => simp [phase] at step
      | broken => simp [phase] at step

/-! ## Phases -/

section

variable {s : Station} {cancelled : Bool} {busy : Nat} {before after : LoopPhase}

theorem Shifts.going (shifts : s.Shifts cancelled busy before after) :
    before ≠ .ended ∧ ∀ o, before ≠ .broken o := by
  cases shifts with
  | quit listens =>
      refine ⟨?_, fun o => ?_⟩ <;>
        (rintro rfl
         cases listens)
  | _ => exact ⟨nofun, nofun⟩

theorem Shifts.not_receiving (shifts : s.Shifts cancelled busy before after) (r : Receiving) :
    after ≠ .receiving r := by
  cases shifts <;> exact nofun

theorem Shifts.ne_begun (shifts : s.Shifts cancelled busy before after) : after ≠ .begun := by
  cases shifts <;> exact nofun

theorem Shifts.gaveUp (shifts : s.Shifts cancelled busy before .draining) : cancelled = true := by
  cases shifts with
  | quit _ cancelled => exact cancelled

theorem Shifts.ended (shifts : s.Shifts cancelled busy before .ended) :
    before = .draining ∧ busy = 0 := by
  cases shifts with
  | finish none => exact ⟨rfl, none⟩

theorem Shifts.first (shifts : s.Shifts cancelled busy .begun after)
    (none : s.receiver.settings.inFlightCapacity? = none) : after = .broken .count := by
  cases shifts with
  | misfit _ => rfl
  | begin fits => exact absurd none fits
  | quit listens => cases listens

theorem Shifts.broken {o : Overflow} (shifts : s.Shifts cancelled busy before (.broken o)) :
    before = .begun ∧ s.receiver.settings.inFlightCapacity? = none := by
  cases shifts with
  | misfit none => exact ⟨rfl, none⟩

end

/-- A loop that is over steps no more. -/
theorem LoopStep.going {s s' : Station} {a a' : Ambient} {i : Nat} {l l' : ReceiveLoop}
    {made : List Attempt} (step : s.LoopStep a a' s' i l l' made) : l.isOver = false := by
  have listens : l.phase ≠ .ended ∧ ∀ o, l.phase ≠ .broken o := by
    obtain ⟨_, shifts⟩ | ⟨_, _, _, _, _, _, _, ⟨ready, _⟩ | ⟨r, receiving, _⟩, _⟩ := step.cause
    · exact shifts.going
    · rw [ready]
      exact ⟨nofun, nofun⟩
    · rw [receiving]
      exact ⟨nofun, nofun⟩
  unfold ReceiveLoop.isOver
  split
  · rename_i ended
    exact absurd ended listens.1
  · rename_i broken
    exact absurd broken (listens.2 _)
  · rfl

theorem phaseAfter_receiving {s : Station} {now : Nat} {o : Receiving.Outcome} {r : Receiving}
    (h : s.phaseAfter now o = .receiving r) : o = .waiting r := by
  cases o with
  | waiting r' => rw [LoopPhase.receiving.inj h]
  | failed f => cases f <;> cases h
  | _ => cases h

theorem phaseAfter_draining {s : Station} {now : Nat} {o : Receiving.Outcome}
    (h : s.phaseAfter now o = .draining) : o = .failed .closed := by
  cases o with
  | failed f =>
      cases f with
      | closed => rfl
      | _ => cases h
  | _ => cases h

theorem phaseAfter_ne_ended (s : Station) (now : Nat) (o : Receiving.Outcome) :
    s.phaseAfter now o ≠ .ended := by
  cases o with
  | failed f => cases f <;> exact nofun
  | _ => exact nofun

theorem phaseAfter_broken {s : Station} {now : Nat} {o : Receiving.Outcome} {why : Overflow}
    (h : s.phaseAfter now o = .broken why) :
    ∃ spill, o = .overflow spill ∧ spill.overflow = why := by
  cases o with
  | overflow spill => exact ⟨spill, rfl, LoopPhase.broken.inj h⟩
  | failed f => cases f <;> cases h
  | _ => cases h

end Station

end Courier
