import Courier.Proofs.Plant.Works

/-!
# What a host does with its parts

A host that is started or shut down asks parts to start and to stop, hears their answers, gives up
waiting for some, and in the end looks at the attempts in flight. A step of its errand is one such
dealing at most (`Plant.dealing?`), and the dealings of a run are its `history`. What a step can be
is a `Stride`: only those that deal a start or a stop touch a part (`Stride.untouched`), and each
takes the errand nearer to its end (`Stride.nearer`).

What all others do meanwhile leaves alone what the errand relies on (`Plant.Beside`).
-/

namespace Courier

/-- Something that a host does with its parts, or hears of them. -/
inductive Dealing where
  | start (lead : Part)
  | stop (lead : Part)
  | answered (answer : Except Cause Unit)
  /-- A stop is not waited for any longer. -/
  | overran (time : Nat)
  /-- The attempts in flight are counted. -/
  | looked (time inFlight : Nat)

def Dealing.isAnswer : Dealing → Bool
  | .answered _ => true
  | _ => false

/-- Parts are asked to stop, one after the other; each is given with what came of it. -/
def stops (ends : List (Part × Dealing)) : List Dealing :=
  ends.flatMap fun e => [.stop e.1, e.2]

/-- How many steps a start takes at most. A part that is to be started may have to be stopped
again. -/
def Host.Opening.stepsLeft {π : Type} : Host.Opening π → Nat
  | .toStart rest started => 4 * rest.length + 2 * started.length + 1
  | .starting _ rest started => 4 * rest.length + 2 * started.length + 3
  | .toStop started _ => 2 * started.length + 1
  | .stopping rest _ => 2 * rest.length + 1

/-- How many steps a shutdown takes at most before the attempts in flight are waited for. -/
def Host.Closing.stepsLeft {π : Type} : Host.Closing π → Nat
  | .toStop started _ => 2 * started.length
  | .stopping rest _ => 2 * rest.length

namespace Errand

/-- The call whose answer an errand waits for. -/
def awaits : Errand → Option Call
  | .calling call => some call
  | .opening _ call _ => call
  | .closing _ call _ _ => call
  | _ => none

/-- Whether the host has been started. -/
def isOpen : Errand → Bool
  | .opened (.ok ()) => true
  | _ => false

theorem eq_opened {e : Errand} (ready : e.isOpen = true) : e = .opened (.ok ()) := by
  unfold isOpen at ready
  split at ready
  · rfl
  · cases ready

/-- How many steps an errand takes at most until it is over, or until the host stays. Attempts in
flight are looked at until the deadline has passed. -/
def stepsLeft : Errand → Nat
  | .calling _ => 1
  | .opening o call _ => o.stepsLeft + call.toList.length
  | .closing c call deadline _ =>
    c.stepsLeft + call.toList.length + deadline / Controller.drainStep.nanoseconds + 3
  | .draining deadline _ wake _ =>
    (deadline + Controller.drainStep.nanoseconds - wake) / Controller.drainStep.nanoseconds + 1
  | _ => 0

end Errand

namespace Plant

variable {p p' : Plant} {e e' : Errand}

/-! ## Dealings -/

/-- What a step of an errand deals, if it takes one. -/
def dealing? (p : Plant) : Errand → Option Dealing
  | .opening o none _ =>
    match o.move with
    | .start part _ _ => some (.start (p.wrap part).2)
    | .stop part _ _ => some (.stop part)
    | _ => none
  | .opening _ (some call) _ => (p.poll call).map fun (_, answer) => .answered answer
  | .closing c none _ _ =>
    match c.move with
    | .stop part _ _ => some (.stop part)
    | _ => none
  | .closing _ (some call) deadline _ =>
    match p.poll call with
    | some (_, answer) => some (.answered answer)
    | none => if p.due deadline then some (.overran p.now) else none
  | .draining _ _ wake _ =>
    if p.due wake then some (.looked p.now p.ambient.controller.inFlight) else none
  | _ => none

/-- Who takes no step deals nothing. -/
theorem dealing?_none (stuck : p.stepErrand e = none) : p.dealing? e = none := by
  cases e with
  | opening o call stay =>
      cases call with
      | some call =>
          have silent : p.poll call = none := Option.map_eq_none_iff.mp stuck
          simp [dealing?, silent]
      | none =>
          simp only [stepErrand, stepOpening] at stuck
          cases move : o.move with
          | opened => cases stay <;> simp [move] at stuck
          | wait => simp [dealing?, move]
          | _ => simp [move] at stuck
  | closing c call deadline stayed =>
      cases call with
      | some call =>
          simp only [stepErrand] at stuck
          cases silent : p.poll call with
          | some answer => simp [silent] at stuck
          | none =>
              simp only [silent] at stuck
              split at stuck
              · simp at stuck
              · rename_i early
                simp [dealing?, silent, early]
      | none =>
          simp only [stepErrand, stepClosing] at stuck
          cases move : c.move with
          | wait => simp [dealing?, move]
          | _ => simp [move] at stuck
  | draining deadline inTime wake stayed =>
      simp only [stepErrand] at stuck
      split at stuck
      · split at stuck <;> simp at stuck
      · rename_i early
        simp [dealing?, early]
  | _ => rfl

/-! ## Strides -/

/-- What a step of an errand can be, with what it deals. A start that is dealt is a call to the
part, or to a coordinator that is made for it, below the token of the host; a stop that is dealt is
a call to the part. -/
inductive Stride (p : Plant) : Errand → Option Dealing → Plant → Errand → Prop where
  | called {call : Call} {answer : Except Cause Unit} {p' : Plant} :
      p.poll call = some (p', answer) →
      Stride p (.calling call) none p' (.called answer p'.now)
  | start {part x : Part} {rest started : List Part} {stay : Option Duration} {q : Plant}
      {a : Ambient} {token : CancelToken} :
      p.wrap part = (q, x) → q.ambient.child q.ambient.controller.token = (a, token) →
      Stride p (.opening (.toStart (part :: rest) started) none stay) (some (.start x))
        ((q.withAmbient a).beginStart x token).1
        (.opening (.starting x rest started) (some ((q.withAmbient a).beginStart x token).2) stay)
  | heard {o : Host.Opening Part} {call : Call} {stay : Option Duration}
      {answer : Except Cause Unit} {p' : Plant} :
      p.poll call = some (p', answer) →
      Stride p (.opening o (some call) stay) (some (.answered answer)) p'
        (.opening (o.answered (p'.openingName o) answer) none stay)
  | opened {started : List Part} {stay : Option Duration} {e : Errand} :
      e = (match stay with
        | none => .opened (.ok ())
        | some d => .staying (p.now + d.nanoseconds)) →
      Stride p (.opening (.toStart [] started) none stay) none
        { p with
          ambient := { p.ambient with controller := p.ambient.controller.setReady }
          host := { p.host with started := started } } e
  | undo {part : Part} {rest : List Part} {fault : HostFault} {stay : Option Duration} :
      Stride p (.opening (.toStop (part :: rest) fault) none stay) (some (.stop part))
        (p.beginStop part).1 (.opening (.stopping rest fault) (some (p.beginStop part).2) stay)
  | failed {fault : HostFault} {stay : Option Duration} :
      Stride p (.opening (.toStop [] fault) none stay) none p (.opened (.error fault))
  | leave {t : Nat} :
      Stride p (.staying t) none (p.beginClosing true).1 (p.beginClosing true).2
  | stop {part : Part} {rest : List Part} {inTime stayed : Bool} {deadline : Nat} :
      Stride p (.closing (.toStop (part :: rest) inTime) none deadline stayed) (some (.stop part))
        (p.beginStop part).1
        (.closing (.stopping rest inTime) (some (p.beginStop part).2) deadline stayed)
  | stopped {c : Host.Closing Part} {call : Call} {deadline : Nat} {stayed : Bool}
      {answer : Except Cause Unit} {p' : Plant} :
      p.poll call = some (p', answer) →
      Stride p (.closing c (some call) deadline stayed) (some (.answered answer)) p'
        (.closing (c.answered true) none deadline stayed)
  | overran {c : Host.Closing Part} {call : Call} {deadline : Nat} {stayed : Bool} :
      p.due deadline = true →
      Stride p (.closing c (some call) deadline stayed) (some (.overran p.now)) p
        (.closing (c.answered false) none deadline stayed)
  | drain {inTime stayed : Bool} {deadline : Nat} :
      Stride p (.closing (.toStop [] inTime) none deadline stayed) none p
        (.draining (max deadline p.now) inTime p.now stayed)
  | again {inTime stayed : Bool} {deadline wake : Nat} :
      p.due wake = true → p.ambient.controller.inFlight ≠ 0 → p.now < deadline →
      Stride p (.draining deadline inTime wake stayed)
        (some (.looked p.now p.ambient.controller.inFlight)) p
        (.draining deadline inTime (p.now + Controller.drainStep.nanoseconds) stayed)
  | closed {inTime stayed drained : Bool} {deadline wake : Nat} {c : Controller} :
      drained = (p.ambient.controller.inFlight == 0) → drained = true ∨ deadline ≤ p.now →
      Stride p (.draining deadline inTime wake stayed)
        (some (.looked p.now p.ambient.controller.inFlight))
        (p.withAmbient { p.ambient with controller := c })
        (if stayed then .opened (.ok ()) else .closed (inTime && drained))

/-- A step of an errand is one of them. -/
theorem stepErrand_stride (step : p.stepErrand e = some (p', e')) :
    Stride p e (p.dealing? e) p' e' := by
  cases e with
  | calling call =>
      obtain ⟨_, polled, same⟩ := Option.map_eq_some_iff.mp step
      cases same
      exact .called polled
  | opening o call stay =>
      cases call with
      | some call =>
          obtain ⟨_, polled, same⟩ := Option.map_eq_some_iff.mp step
          cases same
          simp only [dealing?, polled, Option.map_some]
          exact .heard polled
      | none =>
          cases o with
          | toStart rest started =>
              cases rest with
              | nil =>
                  simp only [stepErrand, stepOpening, Host.Opening.move] at step
                  cases stay <;> cases step <;> exact .opened rfl
              | cons part rest =>
                  cases step
                  exact .start rfl rfl
          | toStop started fault =>
              cases started with
              | nil =>
                  cases step
                  exact .failed
              | cons part rest =>
                  cases step
                  exact .undo
          | starting | stopping => cases step
  | staying t =>
      simp only [stepErrand] at step
      split at step
      · have left : Stride p (.staying t) none (p.beginClosing true).1 (p.beginClosing true).2 :=
          .leave
        rwa [Option.some.inj step] at left
      · cases step
  | closing c call deadline stayed =>
      cases call with
      | some call =>
          cases polled : p.poll call with
          | some next =>
              simp only [stepErrand, polled] at step
              cases step
              simp only [dealing?, polled]
              exact .stopped polled
          | none =>
              simp only [stepErrand, polled] at step
              split at step
              · rename_i late
                cases step
                simp only [dealing?, polled, late, if_true]
                exact .overran late
              · cases step
      | none =>
          cases c with
          | toStop started inTime =>
              cases started with
              | nil =>
                  cases step
                  exact .drain
              | cons part rest =>
                  cases step
                  exact .stop
          | stopping => cases step
  | draining deadline inTime wake stayed =>
      simp only [stepErrand] at step
      split at step
      · rename_i due
        simp only [dealing?, due, if_true]
        by_cases idle : p.ambient.controller.inFlight = 0
        · simp only [Controller.look, idle, if_true] at step
          cases step
          exact .closed (by simp [idle]) (.inl rfl)
        · by_cases late : deadline ≤ p.now
          · simp only [Controller.look, idle, late, if_false, if_true] at step
            cases step
            exact .closed (by simp [idle]) (.inr late)
          · simp only [Controller.look, idle, late, if_false] at step
            cases step
            exact .again due idle (Nat.lt_of_not_le late)
      · cases step
  | called | opened | closed | broken => cases step

/-! ### What they touch -/

/-- The same parts in the same state. -/
structure Untouched (p p' : Plant) : Prop where
  doubles : p'.doubles = p.doubles
  stations : p'.stations = p.stations
  coordinators : p'.coordinators = p.coordinators

theorem Untouched.refl (p : Plant) : Untouched p p := ⟨rfl, rfl, rfl⟩

/-- To hear an answer touches no part. -/
theorem poll_untouched {call : Call} {answer : Except Cause Unit}
    (answered : p.poll call = some (p', answer)) : Untouched p p' := by
  have still := poll_still answered
  refine ⟨?_, still.stations, still.members⟩
  cases call with
  | answered => cases answered; rfl
  | starting i token t turn =>
      simp only [poll] at answered
      split at answered
      · split at answered <;> cases answered <;> rfl
      · cases answered
  | stopping t turn =>
      simp only [poll] at answered
      split at answered <;> cases answered
      rfl
  | loop i l =>
      simp only [poll] at answered
      split at answered
      · cases answered
        rfl
      · obtain ⟨_, _, same⟩ := Option.map_eq_some_iff.mp answered
        cases same
        rfl
  | run i r =>
      simp only [poll] at answered
      split at answered
      · cases answered
        rfl
      · split at answered
        · cases answered
          rfl
        · split at answered
          · cases answered
            rfl
          · split at answered <;> cases answered
            rfl

/-- A step that deals no start and no stop touches no part. -/
theorem Stride.untouched {deal : Option Dealing} (stride : Stride p e deal p' e')
    (start : ∀ x, deal ≠ some (.start x)) (stop : ∀ x, deal ≠ some (.stop x)) :
    Untouched p p' := by
  cases stride with
  | called polled | heard polled | stopped polled => exact poll_untouched polled
  | start => exact absurd rfl (start _)
  | undo | stop => exact absurd rfl (stop _)
  | opened | closed => exact ⟨rfl, rfl, rfl⟩
  | leave =>
      simp only [beginClosing]
      split <;> exact ⟨rfl, rfl, rfl⟩
  | failed | overran | drain | again => exact .refl p

/-! ### How many there are -/

theorem now_of_due (ticks : 0 < p.ambient.clock.resolution) {t : Nat} (due : p.due t = true) :
    t ≤ p.now :=
  Nat.le_trans (p.ambient.clock.le_alarm t ticks) (of_decide_eq_true due)

theorem Opening.stepsLeft_answered (o : Host.Opening Part) (name : String)
    (answer : Except Cause Unit) : (o.answered name answer).stepsLeft ≤ o.stepsLeft := by
  cases o <;> cases answer <;> simp [Host.Opening.answered, Host.Opening.stepsLeft] <;> omega

theorem Closing.stepsLeft_answered (c : Host.Closing Part) (returned : Bool) :
    (c.answered returned).stepsLeft = c.stepsLeft := by
  cases c <;> rfl

/-- Each step takes an errand nearer to its end, unless the host stays. -/
theorem Stride.nearer {deal : Option Dealing} (stride : Stride p e deal p' e')
    (ticks : 0 < p.ambient.clock.resolution) (leaves : ∀ t, e ≠ .staying t) :
    e'.stepsLeft < e.stepsLeft := by
  have period : Controller.drainStep.nanoseconds = 10000000 := rfl
  cases stride with
  | called => exact Nat.one_pos
  | leave => exact absurd rfl (leaves _)
  | @opened started stay e' next =>
      cases stay <;> subst next <;> simp [Errand.stepsLeft, Host.Opening.stepsLeft]
  | @heard o call stay answer =>
      have less := Opening.stepsLeft_answered o (p'.openingName o) answer
      simp only [Errand.stepsLeft, Option.toList_some, Option.toList_none, List.length_cons,
        List.length_nil]
      omega
  | start | undo | failed | stop =>
      simp only [Errand.stepsLeft, Host.Opening.stepsLeft, Host.Closing.stepsLeft,
        Option.toList_some, Option.toList_none, List.length_cons, List.length_nil]
      omega
  | stopped | overran =>
      simp only [Errand.stepsLeft, Closing.stepsLeft_answered, Option.toList_some,
        Option.toList_none, List.length_cons, List.length_nil]
      omega
  | drain =>
      simp only [Errand.stepsLeft, Host.Closing.stepsLeft, period]
      omega
  | again due idle early =>
      -- The alarm has gone off, so the next one is later by a whole period at least.
      have past := now_of_due ticks due
      simp only [Errand.stepsLeft, period]
      omega
  | @closed _ stayed =>
      cases stayed <;> simp [Errand.stepsLeft]

/-! ## Meanwhile -/

/-- A change that leaves alone what an errand of the host relies on; the health of the host only if
it is quiet, that is, if nobody announces a shutdown. -/
structure Beside (quiet : Prop) (p p' : Plant) : Prop where
  now : p.now ≤ p'.now
  resolution : p'.ambient.clock.resolution = p.ambient.clock.resolution
  health : quiet → p'.ambient.controller.health = p.ambient.controller.health
  host : p'.host = p.host
  badges : p'.badge? = p.badge?
  coordinators : p'.coordinators.map (·.badge) = p.coordinators.map (·.badge)
  background : ∀ e ∈ p'.background, e ∈ p.background ∨ e.isCall = true

theorem Keeps.beside (keeps : Keeps p p') (quiet : Prop) : Beside quiet p p' where
  now := keeps.ambient.now
  resolution := keeps.ambient.resolution
  health _ := keeps.ambient.health
  host := keeps.host
  badges := keeps.badge?
  coordinators := keeps.coordinators
  background := keeps.background

theorem Beside.calls {quiet : Prop} (beside : Beside quiet p p')
    (calls : ∀ e ∈ p.background, e.isCall = true) : ∀ e ∈ p'.background, e.isCall = true :=
  fun e mem => (beside.background e mem).elim (calls e) id

end Plant

namespace Works

open Plant (Stride Beside)

/-- Who starts the host or shuts it down has it to himself until that is over. -/
def Deed.isExclusive : Deed → Bool
  | .launch _ => true
  | .shutDown => true
  | _ => false

def Deed.isTrigger : Deed → Bool
  | .trigger => true
  | _ => false

/-- What the host deals in a deed. -/
def dealings (p : Plant) : Deed → List Dealing
  | .step .foreground => (p.foreground.bind p.dealing?).toList
  | _ => []

/-- What the host deals in a run. -/
def history (p : Plant) : List Deed → List Dealing
  | [] => []
  | d :: rest => dealings p d ++ history (act p d) rest

variable {p : Plant} {e : Errand} {quiet : Prop}

/-- Of what the errand of the host relies on nothing changes where the errand takes no step. -/
theorem act_beside (calls : ∀ b ∈ p.background, b.isCall = true) {d : Deed}
    (others : d ≠ .step .foreground) (shared : d.isExclusive = false)
    (silent : quiet → d.isTrigger = false) :
    Beside quiet p (act p d) ∧ (act p d).foreground = p.foreground ∧ dealings p d = [] := by
  have none : dealings p d = [] := by
    unfold dealings
    split
    · exact absurd rfl others
    · rfl
  cases trigger : d.isTrigger with
  | false =>
      have aside : d.isHosts = false := by
        cases d with
        | step task => cases task <;> first | rfl | exact absurd rfl others
        | launch | shutDown => cases shared
        | trigger => cases trigger
        | _ => rfl
      have keeps := act_keeps calls aside
      exact ⟨keeps.beside quiet, keeps.foreground, none⟩
  | true =>
      -- To announce a shutdown cancels tokens; of what the errand relies on it changes the health.
      have loud (q : quiet) : False := by
        have calm := silent q
        rw [trigger] at calm
        cases calm
      cases d with
      | trigger =>
          have keeps := (Plant.Keeps.refl p).beside quiet
          exact ⟨{ keeps with health := fun q => (loud q).elim }, rfl, none⟩
      | _ => cases trigger

/-- In a deed the errand of the host takes a stride, or everything it relies on stays. -/
theorem act_cases (here : p.foreground = some e) (calls : ∀ b ∈ p.background, b.isCall = true)
    {d : Deed} (shared : d.isExclusive = false) (silent : quiet → d.isTrigger = false) :
    (∃ p' e' deal, Stride p e deal p' e' ∧ act p d = { p' with foreground := some e' } ∧
      dealings p d = deal.toList) ∨
    Beside quiet p (act p d) ∧ (act p d).foreground = some e ∧ dealings p d = [] := by
  by_cases own : d = .step .foreground
  · subst own
    simp only [act, Plant.step?, here, dealings, Option.bind_some]
    cases step : p.stepErrand e with
    | none =>
        rw [Plant.dealing?_none step]
        exact .inr ⟨(Plant.Keeps.refl p).beside quiet, here, rfl⟩
    | some next =>
        obtain ⟨p', e'⟩ := next
        exact .inl ⟨p', e', _, Plant.stepErrand_stride step, rfl, rfl⟩
  · rw [← here]
    exact .inr (act_beside calls own shared silent)

/-- What holds of the errand of the host and of what it has dealt so far, holds after a run if all
strides keep it, and all that is done beside them. -/
theorem run_dealt {P : Plant → Errand → List Dealing → Prop}
    (calls : ∀ {s e h}, P s e h → ∀ b ∈ s.background, b.isCall = true)
    (beside : ∀ {s s' e h}, P s e h → Beside quiet s s' → P s' e h)
    (stride : ∀ {s s' e e' deal h}, P s e h → Stride s e deal s' e' →
      P { s' with foreground := some e' } e' (h ++ deal.toList))
    {h : List Dealing} (here : p.foreground = some e) (holds : P p e h) {deeds : List Deed}
    (shared : ∀ d ∈ deeds, d.isExclusive = false)
    (silent : quiet → ∀ d ∈ deeds, d.isTrigger = false) :
    ∃ e', (run p deeds).foreground = some e' ∧ P (run p deeds) e' (h ++ history p deeds) := by
  -- What has been dealt grows with the strides, so the induction is for any history so far.
  induction deeds generalizing p e h with
  | nil => exact ⟨e, here, by simpa [history] using holds⟩
  | cons d rest ih =>
      have shared' : ∀ d ∈ rest, d.isExclusive = false := fun d mem => shared d (.tail _ mem)
      have silent' (q : quiet) : ∀ d ∈ rest, d.isTrigger = false := fun d mem =>
        silent q d (.tail _ mem)
      have first := act_cases here (calls holds) (shared d (.head _)) fun q => silent q d (.head _)
      rw [run_cons, history, ← List.append_assoc]
      obtain ⟨p', e', deal, took, after, dealt⟩ | ⟨stays, same, dealt⟩ := first
      · rw [after, dealt]
        exact ih rfl (stride holds took) shared' silent'
      · rw [dealt, List.append_nil]
        exact ih same (beside holds stays) shared' silent'

end Works

end Courier
