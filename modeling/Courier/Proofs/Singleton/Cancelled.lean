import Courier.Proofs.Plant.Works
import Courier.Proofs.Singleton.Renewal

/-!
# Runs that are cancelled

A run notices that it is cancelled where it rests: between two renewals, before a renewal is tried
again, and between two tries to acquire. Everything else it brings to its end first. So what a
cancelled run still does is told by where it stands at that moment (`Fleet.Winding`), and there is
not much of it: at most ten turns, whatever others do and however the store answers.

What a run does that is cancelled before it has asked for a lease, or while it waits for one, is to
acquire the lease and to start its component under it.
-/

namespace Courier

open Courier.Singleton (Phase Request Reply LockState Happening)

namespace Singleton.Phase

/-- How many turns a cancelled run takes at most from the beginning of a phase. -/
def turnsLeft : Phase → Nat
  | .acquiring => 10
  | .starting _ => 8
  | .renewing _ _ => 8
  | .holding _ => 6
  | .pausing _ _ _ => 6
  | .stopping _ .lost => 6
  | .stopping _ .cancelled => 4
  | .releasing _ .lost => 4
  | .releasing _ .cancelled => 2
  | .polling => 2
  | .finished => 0

/-- How many turns are left from the beginning of a phase until a component runs that was to be
started. -/
def turnsToRun : Phase → Nat
  | .acquiring => 4
  | .starting _ => 2
  | _ => 0

variable {c : SingletonConfig} {phase phase' : Phase} {reply : Reply} {shown : Option LockState}

/-- Without a rest that comes to its end the machine only goes on to phases with fewer turns. -/
theorem Moves.turnsLeft_lt (moves : Moves c phase reply phase' shown)
    (cancelled : reply ≠ .elapsed) :
    phase'.turnsLeft + 2 ≤ phase.turnsLeft ∧
      phase'.turnsToRun ≤ phase.turnsToRun - 2 := by
  cases moves with
  | held | retried | polled => exact absurd rfl cancelled
  | stopped lease ending => cases ending <;> simp [turnsLeft, turnsToRun]
  | _ => simp [turnsLeft, turnsToRun]

/-- A lease is made known when the component has started. -/
theorem Moves.of_locked {serial : Nat}
    (moves : Moves c phase reply phase' (some (.locked serial))) :
    reply = .started true := by
  cases moves
  rfl

end Singleton.Phase

namespace Fleet

/-! ## The course of a cancelled run -/

/-- What a run may do while it is cancelled: it asks for what its phase requests, and takes the
reply; but no rest comes to its end. And what it asked for may break off. -/
inductive Course (config : SingletonConfig) : Run → List Happening → Run → Prop where
  | stay (r : Run) : Course config r [] r
  | asks {r r' : Run} {w : Wait} {h : List Happening} :
      r.wait = none → r.phase ≠ .finished → Course config { r with wait := some w } h r' →
      Course config r (.asked (r.phase.request config) :: h) r'
  | told {r r' : Run} {w : Wait} {reply : Reply} {phase : Phase} {shown : Option LockState}
      {h : List Happening} :
      r.wait = some w → (∀ o, w ≠ .broken o) → r.phase.Moves config reply phase shown →
      reply ≠ .elapsed → Course config { r with phase := phase, wait := none } h r' →
      Course config r (.told reply :: h) r'
  | broke {r r' : Run} {w : Wait} {o : Overflow} {h : List Happening} :
      r.wait = some w → (∀ o, w ≠ .broken o) → r.phase ≠ .finished →
      Course config { r with wait := some (.broken o) } h r' → Course config r (.broke o :: h) r'

/-- How many turns a run takes at most once it is cancelled. -/
def turnsLeft (r : Run) : Nat :=
  match r.wait with
  | none => r.phase.turnsLeft
  | some (.broken _) => 0
  | some _ => r.phase.turnsLeft - 1

/-- How many turns are left until the component runs that is to be started. -/
def turnsToRun (r : Run) : Nat :=
  match r.wait with
  | none => r.phase.turnsToRun
  | some (.broken _) => 0
  | some _ => r.phase.turnsToRun - 1

/-- Where on its way to a component that runs something happens in a run. -/
def mark? : Happening → Option Nat
  | .asked .acquire => some 4
  | .told (.acquired _) => some 3
  | .asked .start => some 2
  | .told (.started _) => some 1
  | _ => none

variable {config : SingletonConfig} {r r' : Run} {h : List Happening} {e : Happening} {n : Nat}

theorem two_le_turnsLeft {phase : Phase} (going : phase ≠ .finished) : 2 ≤ phase.turnsLeft := by
  cases phase with
  | finished => exact absurd rfl going
  | stopping lease ending | releasing lease ending => cases ending <;> simp [Phase.turnsLeft]
  | _ => simp [Phase.turnsLeft]

theorem turnsLeft_waiting {w : Wait} (waiting : r.wait = some w) (going : ∀ o, w ≠ .broken o) :
    turnsLeft r = r.phase.turnsLeft - 1 ∧ turnsToRun r = r.phase.turnsToRun - 1 := by
  cases w with
  | broken o => exact absurd rfl (going o)
  | _ => simp [turnsLeft, turnsToRun, waiting]

theorem turnsLeft_asked_lt {w : Wait} (waitless : r.wait = none) (going : r.phase ≠ .finished) :
    turnsLeft { r with wait := some w } < turnsLeft r := by
  have some := two_le_turnsLeft going
  cases w <;> simp only [turnsLeft, waitless] <;> omega

/-- A cancelled run takes a limited number of turns. -/
theorem Course.length_le (course : Course config r h r') :
    h.length + turnsLeft r' ≤ turnsLeft r := by
  induction course with
  | stay => simp
  | @asks r r' w h waitless going _ ih =>
      have less := turnsLeft_asked_lt (w := w) waitless going
      rw [List.length_cons]
      omega
  | told waiting going moves cancelled _ ih =>
      have fewer := (moves.turnsLeft_lt cancelled).1
      rw [(turnsLeft_waiting waiting going).1, List.length_cons]
      simp only [turnsLeft] at ih ⊢
      omega
  | broke waiting going unfinished _ ih =>
      have some := two_le_turnsLeft unfinished
      rw [(turnsLeft_waiting waiting going).1, List.length_cons]
      simp only [turnsLeft] at ih ⊢
      omega

/-- No rest comes to its end. -/
theorem Course.not_elapsed (course : Course config r h r') : .told .elapsed ∉ h := by
  induction course with
  | stay => exact List.not_mem_nil
  | asks _ _ _ ih => simpa using ih
  | told _ _ _ cancelled _ ih => simpa using ⟨Ne.symm cancelled, ih⟩
  | broke _ _ _ _ ih => simpa using ih

/-! ### On the way to a component that runs -/

theorem turnsToRun_asked {w : Wait} (waitless : r.wait = none) :
    turnsToRun { r with wait := some w } ≤ turnsToRun r - 1 := by
  cases w <;> simp [turnsToRun, waitless]

theorem turnsToRun_told {w : Wait} {reply : Reply} {phase : Phase} {shown : Option LockState}
    (waiting : r.wait = some w) (going : ∀ o, w ≠ .broken o)
    (moves : r.phase.Moves config reply phase shown) (cancelled : reply ≠ .elapsed) :
    turnsToRun { r with phase := phase, wait := none } ≤ turnsToRun r - 1 := by
  have fewer := (moves.turnsLeft_lt cancelled).2
  rw [(turnsLeft_waiting waiting going).2]
  simp only [turnsToRun]
  omega

theorem mark?_asked (waitless : r.wait = none)
    (mark : mark? (.asked (r.phase.request config)) = some n) : turnsToRun r = n ∧ 0 < n := by
  simp only [turnsToRun, waitless]
  cases phase : r.phase <;> simp_all [Phase.request, mark?, Phase.turnsToRun]
  all_goals omega

theorem mark?_told {w : Wait} {reply : Reply} {phase : Phase} {shown : Option LockState}
    (waiting : r.wait = some w) (going : ∀ o, w ≠ .broken o)
    (moves : r.phase.Moves config reply phase shown)
    (mark : mark? (.told reply) = some n) : turnsToRun r = n ∧ 0 < n := by
  rw [(turnsLeft_waiting waiting going).2]
  generalize r.phase = before at moves
  cases moves <;> simp_all [mark?, Phase.turnsToRun]
  all_goals omega

/-- What lies behind a run on its way does not happen any more, and nothing on it happens twice. -/
theorem Course.mark (course : Course config r h r') (mark : mark? e = some n) :
    (e ∈ h → n ≤ turnsToRun r) ∧ h.count e ≤ 1 := by
  -- Where the first thing on the way happens, less than its mark is left for what follows.
  have first {a : Happening} {h : List Happening} {m l : Nat}
      (here : mark? a = some n → m = n ∧ 0 < n) (less : l ≤ m - 1)
      (ih : (e ∈ h → n ≤ l) ∧ h.count e ≤ 1) :
      (e ∈ a :: h → n ≤ m) ∧ (a :: h).count e ≤ 1 := by
    by_cases same : a = e
    · subst same
      obtain ⟨rfl, some⟩ := here mark
      have gone : a ∉ h := fun mem => by
        have := ih.1 mem
        omega
      exact ⟨fun _ => Nat.le_refl _, by simp [List.count_eq_zero.mpr gone]⟩
    · rw [List.count_cons_of_ne same]
      refine ⟨fun mem => ?_, ih.2⟩
      obtain same' | mem := List.mem_cons.mp mem
      · exact absurd same'.symm same
      · have := ih.1 mem
        omega
  induction course with
  | stay => simp
  | asks waitless _ _ ih =>
      exact first (mark?_asked waitless) (turnsToRun_asked waitless) ih
  | told waiting going moves cancelled _ ih =>
      exact first (mark?_told waiting going moves) (turnsToRun_told waiting going moves cancelled)
        ih
  | broke _ _ _ _ ih => exact first (by simp [mark?]) (Nat.zero_le _) ih

/-- A run that has asked is on its way by one turn less than its phase. -/
theorem turnsToRun_le (r : Run) :
    turnsToRun r + r.wait.toList.length ≤ max r.phase.turnsToRun 1 := by
  cases wait : r.wait with
  | none => simpa [turnsToRun, wait] using Nat.le_max_left _ _
  | some w =>
      cases w <;> simp only [turnsToRun, wait, Option.toList_some, List.length_singleton] <;> omega

theorem turnsToRun_eq_four (far : 4 ≤ turnsToRun r) : r.phase = .acquiring ∧ r.wait = none := by
  have near := turnsToRun_le r
  cases phase : r.phase <;> cases wait : r.wait <;> simp_all [Phase.turnsToRun]
  all_goals omega

theorem turnsToRun_ge_two (far : 2 ≤ turnsToRun r) :
    r.phase = .acquiring ∨ ∃ lease, r.phase = .starting lease ∧ r.wait = none := by
  have near := turnsToRun_le r
  cases phase : r.phase <;> cases wait : r.wait <;> simp_all [Phase.turnsToRun]
  all_goals omega

theorem turnsToRun_ge_one (far : 1 ≤ turnsToRun r) :
    r.phase = .acquiring ∨ ∃ lease, r.phase = .starting lease := by
  unfold turnsToRun at far
  cases phase : r.phase <;> split at far <;> simp_all [Phase.turnsToRun]

/-- A run that waits for a lease starts its component only under the lease it gets. -/
theorem Course.granted (course : Course config r h r') (acquiring : r.phase = .acquiring)
    (starts : .asked .start ∈ h) : ∃ lease, .told (.acquired (some lease)) ∈ h := by
  induction course with
  | stay => cases starts
  | asks waitless _ _ ih =>
      rw [acquiring] at starts
      obtain ⟨lease, mem⟩ := ih acquiring (by simpa [Phase.request] using starts)
      exact ⟨lease, .tail _ mem⟩
  | broke _ _ _ _ ih =>
      obtain ⟨lease, mem⟩ := ih acquiring (by simpa using starts)
      exact ⟨lease, .tail _ mem⟩
  | @told r _ _ _ _ _ _ _ _ moves _ course _ =>
      rw [acquiring] at moves
      cases moves with
      | acquired lease => exact ⟨lease, .head _⟩
      | refused =>
          have near := (course.mark (e := .asked .start) rfl).1 (by simpa using starts)
          simp [turnsToRun, Phase.turnsToRun] at near

/-! ## Cancelled runs in a fleet -/

/-- The states that a run of a member makes known. -/
def shownBy (m k : Nat) (p : Plant) : Deed → List LockState
  | .step (.run i j) =>
    if i = m ∧ j = k then
      match p.coordinators[m]?, (act p (.step (.run m k))).coordinators[m]? with
      | some c, some c' => if c'.state = c.state then [] else [c'.state]
      | _, _ => []
    else []
  | _ => []

def shown (m k : Nat) (p : Plant) : List Deed → List LockState
  | [] => []
  | d :: rest => shownBy m k p d ++ shown m k (act p d) rest

variable {p p' : Plant} {d : Deed} {m k : Nat} {c : Coordinator}

theorem shownBy_other (others : d ≠ .step (.run m k)) : shownBy m k p d = [] := by
  unfold shownBy
  split
  · split
    · rename_i i j same
      exact absurd (by rw [same.1, same.2]) others
    · rfl
  · rfl

/-- What is cancelled stays so. -/
theorem act_cancelled (d : Deed) {token : CancelToken}
    (cancelled : p.ambient.isCancelled token = true) :
    (act p d).ambient.isCancelled token = true := by
  have fired : p.ambient.cancellations.fired ⊆ (act p d).ambient.cancellations.fired := by
    cases d with
    | step task =>
        simp only [act]
        cases step : p.step? task with
        | none => exact List.Subset.refl _
        | some p' => exact (Plant.step_changes step).fired
    | start m parent => exact (Plant.beginStart_goes p _ parent).ambient.fired
    | stop m => exact (Plant.beginStop_goes p _).ambient.fired
    | cancel token => exact p.ambient.cancellations.fired_cancel token
    | store a => cases a <;> exact List.Subset.refl _
    | tamper | pass => exact List.Subset.refl _
  exact Cancellations.isCancelled_mono fired cancelled

theorem rest_of_elapsed {phase : Phase} {token : CancelToken} {w : Wait} {locks : Locks}
    (told : p.Told c token phase w .elapsed locks) : ∃ t, w = .rest t := by
  cases told
  exact ⟨_, rfl⟩

/-- A step of a cancelled run, and what is made known by it. -/
theorem cancelled_turn (manned : p.Manned) (here : p.At m k c r)
    (cancelled : p.ambient.isCancelled r.token = true) (turn : p.turn? m k = some (e, p')) :
    ∃ c₁ r₁, p'.At m k c₁ r₁ ∧ c₁.config = c.config ∧ r₁.token = r.token ∧
      (∀ {h r'}, Course c.config r₁ h r' → Course c.config r (e :: h) r') ∧
      (shownBy m k p (.step (.run m k))).countP (·.isLocked) ≤
        [e].count (.told (.started true)) := by
  have after := act_taken turn
  cases manned.turned turn with
  | asked here' waitless asked _ changed =>
      obtain ⟨rfl, rfl⟩ := at_unique here here'
      have there := at_setRun here changed
      refine ⟨_, _, there, rfl, rfl, fun course => .asks waitless asked.unfinished course, ?_⟩
      simp [shownBy, here.coordinator, after, there.coordinator, Coordinator.setRun]
  | broke here' waiting broke _ changed =>
      obtain ⟨rfl, rfl⟩ := at_unique here here'
      have there := at_setRun here changed
      refine ⟨_, _, there, rfl, rfl, fun course => .broke waiting (fun _ => broke.unbroken)
        (manned.unfinished here waiting) course, ?_⟩
      simp [shownBy, here.coordinator, after, there.coordinator, Coordinator.setRun]
  | @told _ _ w reply _ here' waiting told _ changed =>
      obtain ⟨rfl, rfl⟩ := at_unique here here'
      have there := at_told here changed
      have moves := Phase.next_moves told.answers
      have unrested : reply ≠ .elapsed := by
        rintro rfl
        obtain ⟨t, rfl⟩ := rest_of_elapsed told
        rw [uncancelled_of_elapsed here waiting turn] at cancelled
        cases cancelled
      refine ⟨_, _, there, Coordinator.told_config _ _ _ _, rfl,
        fun course => .told waiting (fun _ => told.unbroken) moves unrested course, ?_⟩
      simp only [shownBy, and_self, if_true, here.coordinator, after, there.coordinator]
      split
      · exact Nat.zero_le _
      · rename_i differs
        rw [Coordinator.told_state] at differs ⊢
        cases announced : r.phase.announcement (r.phase.next c.config reply) with
        | none => exact absurd (by rw [announced]; rfl) differs
        | some state =>
            rw [announced] at moves
            cases state with
            | locked serial => simp [moves.of_locked, LockState.isLocked]
            | _ => exact Nat.zero_le _

/-- Whatever is done, a cancelled run follows its course. -/
theorem cancelled_course (manned : p.Manned) (here : p.At m k c r)
    (cancelled : p.ambient.isCancelled r.token = true) (deeds : List Deed) :
    ∃ c' r', (run p deeds).At m k c' r' ∧
      (run p deeds).ambient.isCancelled r'.token = true ∧
      Course c.config r ((trail m k p deeds).map (·.event)) r' ∧
      (shown m k p deeds).countP (·.isLocked) ≤
        ((trail m k p deeds).map (·.event)).count (.told (.started true)) := by
  induction deeds generalizing p c r with
  | nil => exact ⟨c, r, here, cancelled, .stay r, Nat.le_refl _⟩
  | cons d rest ih =>
      have manned' := act_manned manned d
      have cancelled' := act_cancelled d cancelled
      rw [trail, shown, run_cons, List.countP_append]
      by_cases own : d = .step (.run m k)
      · subst own
        rw [moments_own, moment?_eq here]
        cases turn : p.turn? m k with
        | none =>
            have still : act p (.step (.run m k)) = p := act_untaken turn
            have silent : shownBy m k p (.step (.run m k)) = [] := by
              simp [shownBy, still, here.coordinator]
            rw [silent, still]
            simpa using ih manned here cancelled
        | some taken =>
            obtain ⟨e, p'⟩ := taken
            obtain ⟨c₁, r₁, there, config, token, follows, locks⟩ :=
              cancelled_turn manned here cancelled turn
            have after := act_taken turn
            rw [after] at manned' cancelled' ⊢
            obtain ⟨c', r', there', cancelled'', course, more⟩ :=
              ih manned' there (token ▸ cancelled')
            refine ⟨c', r', there', cancelled'', ?_, ?_⟩
            · exact follows (config ▸ course)
            · rw [List.map_append, List.count_append]
              exact Nat.add_le_add (by simpa using locks) more
      · obtain ⟨c₁, there, alike⟩ := (act_change manned d).keeps_run (absurd · own) here
        obtain ⟨c', r', there', cancelled'', course, more⟩ := ih manned' there cancelled'
        rw [moments_other own, shownBy_other own]
        exact ⟨c', r', there', cancelled'', alike.config ▸ course, by simpa using more⟩

/-- A cancelled run gets stuck only where it waits for the store or for its component. -/
theorem cancelled_goes_on (manned : p.Manned) (here : p.At m k c r)
    (cancelled : p.ambient.isCancelled r.token = true) :
    r.isOver = true ∨ (p.turn? m k).isSome = true ∨
      ∃ w, r.wait = some w ∧ (∀ t, w ≠ .rest t) ∧ p.due w.dueAt = false := by
  simp only [Plant.turn?, here.coordinator, here.run]
  cases waiting : r.wait with
  | none =>
      by_cases ended : r.phase = .finished
      · exact .inl (by simp [Run.isOver, ended])
      · exact .inr (.inl (by simpa using Plant.ask_isSome ended))
  | some w =>
      have suits := manned.waits here waiting
      by_cases broken : ∃ o, w = .broken o
      · obtain ⟨o, rfl⟩ := broken
        exact .inl (by simp [Run.isOver, Run.overflow?, waiting])
      have going (o : Overflow) : w ≠ .broken o := fun same => broken ⟨o, same⟩
      cases due : p.due w.dueAt with
      | true => exact .inr (.inl (by simpa using Plant.reply?_isSome suits going due))
      | false =>
          by_cases rest : ∃ t, w = .rest t
          · obtain ⟨t, rfl⟩ := rest
            exact .inr (.inl (by simp [Plant.reply?, cancelled]))
          · exact .inr (.inr ⟨w, rfl, fun t same => rest ⟨t, same⟩, due⟩)

/-! ## What a cancelled run still does -/

/-- What a run still does, and makes known, that was as `r` when it was cancelled. -/
structure Winding (r : Run) (h : List Happening) (shown : List LockState) : Prop where
  /-- It acquires if it is about to. -/
  acquires : .asked .acquire ∈ h ↔ r.phase = .acquiring ∧ r.wait = none ∧ h ≠ []
  acquiresOnce : h.count (.asked .acquire) ≤ 1
  /-- It starts its component if it is about to, or if it gets the lease it is about to acquire. -/
  starts : .asked .start ∈ h → (∃ lease, r.phase = .starting lease ∧ r.wait = none) ∨
    r.phase = .acquiring ∧ ∃ lease, .told (.acquired (some lease)) ∈ h
  startsOnce : h.count (.asked .start) ≤ 1
  /-- It makes a lease known if its component comes to run. -/
  locks : shown.countP (·.isLocked) ≤ h.count (.told (.started true))
  runs : .told (.started true) ∈ h → r.phase = .acquiring ∨ ∃ lease, r.phase = .starting lease
  runsOnce : h.count (.told (.started true)) ≤ 1
  /-- It rests no longer. -/
  rests : .told .elapsed ∉ h

theorem Course.winding {shown : List LockState} (course : Course config r h r')
    (locks : shown.countP (·.isLocked) ≤ h.count (.told (.started true))) : Winding r h shown := by
  have acquire := course.mark (e := .asked .acquire) rfl
  have start := course.mark (e := .asked .start) rfl
  have started := course.mark (e := .told (.started true)) rfl
  refine ⟨⟨fun mem => ?_, fun ⟨acquiring, waitless, busy⟩ => ?_⟩, acquire.2, fun mem => ?_, start.2,
    locks, fun mem => turnsToRun_ge_one (started.1 mem), started.2, course.not_elapsed⟩
  · obtain ⟨acquiring, waitless⟩ := turnsToRun_eq_four (acquire.1 mem)
    exact ⟨acquiring, waitless, List.ne_nil_of_mem mem⟩
  · cases course with
    | stay => exact absurd rfl busy
    | asks =>
        rw [acquiring]
        exact .head _
    | told waiting | broke waiting => cases waitless.symm.trans waiting
  · obtain acquiring | starting := turnsToRun_ge_two (start.1 mem)
    · exact .inr ⟨acquiring, course.granted acquiring mem⟩
    · exact .inl starting

theorem turnsLeft_le (r : Run) : turnsLeft r ≤ 10 := by
  have few : r.phase.turnsLeft ≤ 10 := by
    cases r.phase with
    | stopping lease ending | releasing lease ending => cases ending <;> simp [Phase.turnsLeft]
    | _ => simp [Phase.turnsLeft]
  unfold turnsLeft
  split <;> omega

/-- A run that is cancelled at any moment, and others that do what they like before and after it.

What the run still does is told by where it stands: it acquires if it is about to, and then or while
it waits for the lease it starts its component and makes the lease known, each once at most. It
takes at most ten more turns, and it stops short of its end only while the store or its component
does not answer, or where a call to the store breaks off. -/
theorem cancelled_run_winds_up (clock : Clock) (locks : Locks) (members : List Relay.Member)
    (before after : List Deed) (m k : Nat) (c : Coordinator) (r : Run)
    (here : (run (begin clock locks members) before).At m k c r)
    (cancelled : (run (begin clock locks members) before).ambient.isCancelled r.token = true) :
    let p := run (begin clock locks members) before
    let q := run p after
    let h := (trail m k p after).map (·.event)
    Winding r h (shown m k p after) ∧ h.length ≤ 10 ∧
      ∃ c' r', q.At m k c' r' ∧ h.length + turnsLeft r' ≤ turnsLeft r ∧
        (r'.isOver = true ∨ (q.turn? m k).isSome = true ∨
          ∃ w, r'.wait = some w ∧ (∀ t, w ≠ .rest t) ∧ q.due w.dueAt = false) := by
  intro p q h
  have manned : p.Manned := run_manned (begin_manned clock locks members) before
  obtain ⟨c', r', there, cancelled', course, locked⟩ := cancelled_course manned here cancelled after
  have few := course.length_le
  refine ⟨course.winding locked, ?_, c', r', there, few,
    cancelled_goes_on (run_manned manned after) there cancelled'⟩
  exact Nat.le_trans (Nat.le_trans (Nat.le_add_right _ _) few) (turnsLeft_le r)

/-- A fleet of one member that is stopped before its run has done anything. -/
def recalled : Plant :=
  run (begin { resolution := 1 } {} [retrier]) [.start 0 ⟨[1]⟩, .stop 0]

theorem cancelled_run_winds_up_recalled :
    let h := (trail 0 0 recalled (steps 0 0 10)).map (·.event)
    ∃ c r, recalled.At 0 0 c r ∧ r.phase = .acquiring ∧ r.wait = none ∧
      recalled.ambient.isCancelled r.token = true ∧ h.length = 10 ∧
      Winding r h (shown 0 0 recalled (steps 0 0 10)) ∧
      ∃ c' r', (run recalled (steps 0 0 10)).At 0 0 c' r' ∧
        h.length + turnsLeft r' ≤ turnsLeft r := by
  intro h
  obtain ⟨c, found, run⟩ : ∃ c, recalled.coordinators[0]? = some c ∧
      c.runs[0]?.map (fun r => (r.phase, r.wait.isNone, recalled.ambient.isCancelled r.token)) =
        some (.acquiring, true, true) :=
    ⟨_, (Option.some_get (by decide +kernel)).symm, by decide +kernel⟩
  obtain ⟨r, run, state⟩ := Option.map_eq_some_iff.mp run
  simp only [Prod.mk.injEq, Option.isNone_iff_eq_none] at state
  obtain ⟨acquiring, waitless, cancelled⟩ := state
  obtain ⟨winding, _, c', r', there, few, _⟩ :=
    cancelled_run_winds_up _ _ _ _ (steps 0 0 10) 0 0 c r
    ⟨found, run⟩ cancelled
  exact ⟨c, r, ⟨found, run⟩, acquiring, waitless, cancelled, by decide +kernel, winding, c', r',
    there, few⟩

/-- A run that is cancelled before it has done anything acquires a lease, starts its component and
makes the lease known; and so does one that is cancelled while the store takes its time to grant the
lease. -/
theorem cancelled_runs_start :
    let slow : Turn := { delay := .ofNanoseconds 50 }
    let waiting := run (begin { resolution := 1 } { acquires := [slow] } [retrier])
      (.start 0 ⟨[1]⟩ :: steps 0 0 1 ++ [.pass 10, .cancel ⟨[1]⟩])
    let answer := .pass 50 :: steps 0 0 3
    let token (p : Plant) := (p.coordinators[0]?.bind (·.runs[0]?)).map (·.token)
    ((token recalled).map recalled.ambient.isCancelled = some true ∧
      (trail 0 0 recalled (steps 0 0 4)).map (·.event) =
        [.asked .acquire, .told (.acquired (some ⟨"digest", 1⟩)), .asked .start,
          .told (.started true)] ∧
      shown 0 0 recalled (steps 0 0 4) = [.locked 1]) ∧
    ((token waiting).map waiting.ambient.isCancelled = some true ∧
      (trail 0 0 waiting answer).map (·.event) =
        [.told (.acquired (some ⟨"digest", 1⟩)), .asked .start, .told (.started true)] ∧
      shown 0 0 waiting answer = [.locked 1]) := by
  intro slow waiting answer token
  exact ⟨by decide +kernel, by decide +kernel⟩

end Fleet

end Courier
