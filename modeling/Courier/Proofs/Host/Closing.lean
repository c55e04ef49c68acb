import Courier.Proofs.Host.Opening

/-!
# Shutting a host down

A shutdown stops the parts that are started, the latest first, and each exactly once: a stop that
fails, or that is not waited for any longer, does not keep the next part from being stopped. Then
the attempts in flight are looked at, until there are none or the deadline has passed. The shutdown
is said to have succeeded if every stop has answered in time and no attempt was left (`Closes`).

So a host brackets its parts, whatever is done meanwhile: what a start has started is stopped by
that start itself if it fails, and by the shutdown otherwise. Only where the time to drain would end
past the last instant a shutdown breaks off before it has stopped anything.
-/

namespace Courier

open Plant (Stride Beside)

/-! ## Dealings of a shutdown -/

/-- What may come of a stop: an answer, or none before the deadline. -/
def Dealing.Ends (deadline : Nat) : Dealing → Prop
  | .answered _ => True
  | .overran time => deadline ≤ time
  | _ => False

/-- A look before the deadline that has found attempts in flight. -/
def Dealing.Busy (deadline : Nat) : Dealing → Prop
  | .looked time inFlight => inFlight ≠ 0 ∧ time < deadline
  | _ => False

/-- The errand of a shutdown and what has been dealt, where the parts of `line` are to be
stopped. -/
inductive Closes (line : List Part) (deadline : Nat) : Errand → List Dealing → Prop where
  | next {ends : List (Part × Dealing)} {left : List Part} : line = ends.map (·.1) ++ left →
      (∀ e ∈ ends, e.2.Ends deadline) →
      Closes line deadline (.closing (.toStop left (ends.all (·.2.isAnswer))) none deadline false)
        (stops ends)
  | waits {ends : List (Part × Dealing)} {y : Part} {left : List Part} {q : Plant} {call : Call} :
      line = ends.map (·.1) ++ y :: left → (∀ e ∈ ends, e.2.Ends deadline) →
      call = (q.beginStop y).2 →
      Closes line deadline
        (.closing (.stopping left (ends.all (·.2.isAnswer))) (some call) deadline false)
        (stops ends ++ [.stop y])
  /-- All have been stopped, and attempts are in flight. -/
  | drains {ends : List (Part × Dealing)} {looks : List Dealing} {limit wake : Nat} :
      line = ends.map (·.1) → (∀ e ∈ ends, e.2.Ends deadline) → (∀ l ∈ looks, l.Busy deadline) →
      Closes line deadline (.draining limit (ends.all (·.2.isAnswer)) wake false)
        (stops ends ++ looks)
  | closed {ends : List (Part × Dealing)} {looks : List Dealing} {time inFlight : Nat}
      {drained : Bool} :
      line = ends.map (·.1) → (∀ e ∈ ends, e.2.Ends deadline) → (∀ l ∈ looks, l.Busy deadline) →
      drained = (inFlight == 0) → drained = true ∨ deadline ≤ time →
      Closes line deadline (.closed (ends.all (·.2.isAnswer) && drained))
        (stops ends ++ looks ++ [.looked time inFlight])

/-! ## The plant meanwhile -/

variable {p s s' : Plant} {e e' : Errand} {quiet : Prop} {line : List Part} {deadline : Nat}
  {deal : Option Dealing} {h : List Dealing}

/-- A drain gives up at the deadline, or at once where it began after it; and it does not sleep for
longer than that, and the time between two looks. -/
def Errand.Timely (deadline now : Nat) : Errand → Prop
  | .draining limit _ wake _ => deadline ≤ limit ∧ (limit = deadline ∨ limit ≤ now) ∧
      wake ≤ max (deadline + Controller.drainStep.nanoseconds) now
  | _ => True

theorem Errand.Timely.mono {now now' : Nat} (timely : e.Timely deadline now) (later : now ≤ now') :
    e.Timely deadline now' := by
  cases e with
  | draining limit inTime wake stayed =>
      obtain ⟨after, due, sleep⟩ := timely
      refine ⟨after, ?_, ?_⟩ <;> omega
  | _ => trivial

/-- A plant in which the host is being shut down. -/
structure Ebbing (s : Plant) (deadline : Nat) (e : Errand) : Prop where
  ticks : 0 < s.ambient.clock.resolution
  calls : ∀ b ∈ s.background, b.isCall = true
  started : s.host.started = []
  timely : e.Timely deadline s.now

theorem Ebbing.beside (ebbing : Ebbing s deadline e) (beside : Beside quiet s s') :
    Ebbing s' deadline e where
  ticks := beside.resolution ▸ ebbing.ticks
  calls := beside.calls ebbing.calls
  started := by rw [beside.host, ebbing.started]
  timely := ebbing.timely.mono beside.now

/-- The next errand is no drain. -/
theorem Ebbing.stops (ebbing : Ebbing s deadline e) (beside : Beside quiet s s')
    (timely : e'.Timely deadline s'.now) : Ebbing s' deadline e' :=
  { ebbing.beside beside with timely := timely }

/-! ## Strides of a shutdown -/

/-- What came of a stop is added to what came of those before. -/
theorem Closes.ended {ends : List (Part × Dealing)} {y : Part} {left : List Part}
    (now : line = ends.map (·.1) ++ y :: left) (before : ∀ e ∈ ends, e.2.Ends deadline)
    (outcome : Dealing) (ended : outcome.Ends deadline) :
    Closes line deadline
      (.closing (.toStop left (ends.all (·.2.isAnswer) && outcome.isAnswer)) none deadline false)
      (stops ends ++ [.stop y] ++ [outcome]) := by
  have further : line = (ends ++ [(y, outcome)]).map (·.1) ++ left := by simpa using now
  have closes := @Closes.next line deadline _ _ further fun e mem => by
    obtain old | new := List.mem_append.mp mem
    · exact before e old
    · rw [List.mem_singleton.mp new]
      exact ended
  rw [stops_concat] at closes
  simpa using closes

/-- A stride of a shutdown deals what comes next. -/
theorem Closes.stride (closes : Closes line deadline e h) (ebbing : Ebbing s deadline e)
    (stride : Stride s e deal s' e') :
    Closes line deadline e' (h ++ deal.toList) ∧ Ebbing s' deadline e' := by
  cases closes with
  | @next ends left now before =>
      cases left with
      | nil =>
          cases stride with
          | drain =>
              rw [List.append_nil] at now
              refine ⟨.drains now before nofun, { ebbing with timely := ⟨?_, ?_, ?_⟩ }⟩ <;> omega
      | cons y left =>
          cases stride with
          | stop =>
              have stopped := (Plant.beginStop_goes s y).toKeeps.beside True
              exact ⟨.waits now before rfl, ebbing.stops stopped trivial⟩
  | @waits ends y left _ call now before =>
      cases stride with
      | @stopped _ _ _ _ answer _ polled =>
          have heard := (Plant.poll_still polled).toKeeps.beside True
          exact ⟨.ended now before (.answered answer) trivial, ebbing.stops heard trivial⟩
      | overran due =>
          have late : deadline ≤ s.now := Plant.now_of_due ebbing.ticks due
          exact ⟨.ended now before (.overran s.now) late, { ebbing with timely := trivial }⟩
  | @drains ends looks limit wake now before busy =>
      obtain ⟨after, given, _⟩ := ebbing.timely
      cases stride with
      | again due going early =>
          -- A drain that began after the deadline gives up at its first look.
          have early : s.now < deadline := by omega
          rw [List.append_assoc]
          refine ⟨.drains now before fun l mem => ?_, { ebbing with timely := ⟨after, given, ?_⟩ }⟩
          · obtain old | new := List.mem_append.mp mem
            · exact busy l old
            · rw [List.mem_singleton.mp new]
              exact ⟨going, early⟩
          · omega
      | @closed _ _ drained _ _ c found ended =>
          have given' : drained = true ∨ deadline ≤ s.now := ended.imp_right (Nat.le_trans after)
          exact ⟨.closed now before busy found given', { ebbing with timely := trivial }⟩
  | closed => cases stride

/-- A shutdown is over, or it takes a step that brings it nearer to its end, or it sleeps until an
instant that is not far away. -/
theorem Closes.progress (closes : Closes line deadline e h) (ebbing : Ebbing s deadline e) :
    e.isOver = true ∨ (∃ s' e', s.stepErrand e = some (s', e') ∧ e'.stepsLeft < e.stepsLeft) ∨
      ∃ wake ∈ Plant.errandWakes e, s.due wake = false ∧
        wake ≤ max (deadline + Controller.drainStep.nanoseconds) s.now := by
  cases step : s.stepErrand e with
  | some next =>
      have leaves (t : Nat) : e ≠ .staying t := by
        rintro rfl
        cases closes
      exact .inr (.inl ⟨_, _, rfl, (Plant.stepErrand_stride step).nearer ebbing.ticks leaves⟩)
  | none =>
      cases closes with
      | @next ends left => cases left <;> cases step
      | waits =>
          have early : s.due deadline = false := by
            simp only [Plant.stepErrand] at step
            split at step
            · cases step
            · simpa using step
          exact .inr (.inr ⟨deadline, .head _, early, by omega⟩)
      | @drains ends looks limit wake =>
          have early : s.due wake = false := by
            simp only [Plant.stepErrand] at step
            split at step
            · split at step <;> cases step
            · rename_i early
              simpa using early
          exact .inr (.inr ⟨wake, .head _, early, ebbing.timely.2.2⟩)
      | closed => exact .inl rfl

/-- In `s` the host is being shut down, and `h` has been dealt. -/
def Ebbs (line : List Part) (deadline : Nat) (s : Plant) (e : Errand) (h : List Dealing) : Prop :=
  Closes line deadline e h ∧ Ebbing s deadline e

theorem Ebbs.beside (ebbs : Ebbs line deadline s e h) (beside : Beside quiet s s') :
    Ebbs line deadline s' e h :=
  ⟨ebbs.1, ebbs.2.beside beside⟩

theorem Ebbs.stride (ebbs : Ebbs line deadline s e h) (stride : Stride s e deal s' e') :
    Ebbs line deadline { s' with foreground := some e' } e' (h ++ deal.toList) := by
  obtain ⟨closes, ebbing⟩ := ebbs.1.stride ebbs.2 stride
  exact ⟨closes, { ebbing with }⟩

/-! ## The beginning of a shutdown -/

namespace Plant

/-- A shutdown is announced, whatever comes of it. -/
def announced (p : Plant) : Plant :=
  let (controller, cs) := p.ambient.controller.trigger p.ambient.cancellations
  p.withAmbient { p.ambient with controller := controller, cancellations := cs }

theorem beginClosing_of_le (stayed : Bool)
    (fits : p.now + p.host.config.drainTimeout.nanoseconds ≤ Instant.last) :
    p.beginClosing stayed =
      ({ p.announced with host := { p.host with started := [] } },
        .closing (.toStop p.host.started true) none
          (p.now + p.host.config.drainTimeout.nanoseconds) stayed) := by
  simp only [beginClosing]
  split
  · rename_i past
    exact absurd (Instant.plus?_eq_none_iff.mp past) (Nat.not_lt.mpr fits)
  · rename_i deadline found
    obtain ⟨_, rfl⟩ := Instant.plus?_eq_some_iff.mp found
    rfl

theorem beginClosing_of_lt (stayed : Bool)
    (past : Instant.last < p.now + p.host.config.drainTimeout.nanoseconds) :
    p.beginClosing stayed = (p.announced, .broken .instant) := by
  simp only [beginClosing]
  split
  · rfl
  · rename_i found
    exact absurd past (Nat.not_lt.mpr (Instant.plus?_eq_some_iff.mp found).1)

end Plant

namespace Works

variable {deeds : List Deed}

theorem shutDown_ebbs (ticks : 0 < p.ambient.clock.resolution)
    (calls : ∀ b ∈ p.background, b.isCall = true)
    (fits : p.now + p.host.config.drainTimeout.nanoseconds ≤ Instant.last) :
    Ebbs p.host.started (p.now + p.host.config.drainTimeout.nanoseconds) (act p .shutDown)
      (p.beginClosing false).2 [] := by
  simp only [act, Plant.beginClosing_of_le false fits]
  exact ⟨@Closes.next _ _ [] p.host.started rfl (by simp),
    { ticks := ticks, calls := calls, started := rfl, timely := trivial }⟩

/-- The parts that are started are stopped, the latest first. -/
theorem shutDown_closes (ticks : 0 < p.ambient.clock.resolution)
    (calls : ∀ b ∈ p.background, b.isCall = true) (shared : ∀ d ∈ deeds, d.isExclusive = false)
    (fits : p.now + p.host.config.drainTimeout.nanoseconds ≤ Instant.last) :
    ∃ e, (run (act p .shutDown) deeds).foreground = some e ∧
      Ebbs p.host.started (p.now + p.host.config.drainTimeout.nanoseconds)
        (run (act p .shutDown) deeds) e (history (act p .shutDown) deeds) := by
  exact run_dealt (P := Ebbs p.host.started (p.now + p.host.config.drainTimeout.nanoseconds))
    (fun ebbs => ebbs.2.calls) Ebbs.beside Ebbs.stride rfl (shutDown_ebbs ticks calls fits)
    shared False.elim

/-- Where the time to drain would end past the last instant nothing is stopped. -/
theorem shutDown_breaks (calls : ∀ b ∈ p.background, b.isCall = true)
    (shared : ∀ d ∈ deeds, d.isExclusive = false)
    (past : Instant.last < p.now + p.host.config.drainTimeout.nanoseconds) :
    (run (act p .shutDown) deeds).foreground = some (.broken .instant) ∧
      history (act p .shutDown) deeds = [] ∧ (run (act p .shutDown) deeds).host = p.host := by
  let Broken (s : Plant) (e : Errand) (h : List Dealing) : Prop :=
    (∀ b ∈ s.background, b.isCall = true) ∧ s.host = p.host ∧ e = .broken .instant ∧ h = []
  have broken : Broken (act p .shutDown) (p.beginClosing false).2 [] := by
    simp only [act, Plant.beginClosing_of_lt false past]
    exact ⟨calls, rfl, rfl, rfl⟩
  have meanwhile {s s' : Plant} {e : Errand} {h : List Dealing} (broken : Broken s e h)
      (beside : Beside False s s') : Broken s' e h := by
    obtain ⟨calls, host, ended, silent⟩ := broken
    exact ⟨beside.calls calls, beside.host.trans host, ended, silent⟩
  have stuck {s s' : Plant} {e e' : Errand} {deal : Option Dealing} {h : List Dealing}
      (broken : Broken s e h) (stride : Stride s e deal s' e') :
      Broken { s' with foreground := some e' } e' (h ++ deal.toList) := by
    obtain ⟨_, _, rfl, _⟩ := broken
    cases stride
  obtain ⟨e, ended, _, host, rfl, nothing⟩ :=
    run_dealt (P := Broken) (·.1) meanwhile stuck rfl broken shared False.elim
  exact ⟨ended, nothing, host⟩

/-- A host that is not started yet, and others meanwhile, whatever they do with its parts.

If something is in the way of a start no part is touched. Otherwise the leads of the parts are
started in order until all have started, or until one has failed; then exactly those that have
started are stopped, each once and the latest first, and the host can be started again. A start that
waits for no part comes to its end.

After a start that has succeeded, a shutdown stops all leads, each once and the latest first,
whatever comes of the stops. It comes to its end with the deadline at the latest, and it is said to
have succeeded exactly if all stops have answered before and no attempt was left in flight. This
holds exactly where the deadline is an instant; a shutdown with a deadline past the last one breaks
off without an answer, and all leads stay started. -/
theorem host_brackets_its_parts (idle : p.Idle) (shared : ∀ d ∈ deeds, d.isExclusive = false) :
    let q := act p (.launch none)
    let s := run q deeds
    let quiet := ∀ d ∈ deeds, d.isTrigger = false
    (¬ p.MayOpen → ∃ fault, s.foreground = some (.opened (.error fault)) ∧ history q deeds = [] ∧
      s.host = p.host ∧ (quiet → s.Idle)) ∧
    (p.MayOpen → ∃ e touched, s.foreground = some e ∧
      Opens p touched e (history q deeds) ∧
      Underway p s quiet e.isOpen touched ∧
      (e.isOpen = false → s.host = p.host ∧ (quiet → s.Idle)) ∧
      (e.isOver = true ∨ (∃ s' e', s.stepErrand e = some (s', e') ∧ e'.stepsLeft < e.stepsLeft) ∨
        ∃ call, e.awaits = some call ∧ s.poll call = none)) ∧
    (s.foreground = some (.opened (.ok ())) → ∀ more, (∀ d ∈ more, d.isExclusive = false) →
      let r := act s .shutDown
      let t := run r more
      let deadline := s.now + p.host.config.drainTimeout.nanoseconds
      (deadline ≤ Instant.last → ∃ e, t.foreground = some e ∧
        Closes (leads p.lineup) deadline e (history r more) ∧
        t.host.started = [] ∧
        (e.isOver = true ∨ (∃ t' e', t.stepErrand e = some (t', e') ∧ e'.stepsLeft < e.stepsLeft) ∨
          ∃ wake ∈ Plant.errandWakes e, t.due wake = false ∧
            wake ≤ max (deadline + Controller.drainStep.nanoseconds) t.now)) ∧
      (Instant.last < deadline → t.foreground = some (.broken .instant) ∧ history r more = [] ∧
        t.host.started = leads p.lineup)) := by
  intro q s quiet
  refine ⟨fun not => ?_, fun may => ?_, fun open' more shared' => ?_⟩
  · obtain ⟨fault, e, after, rfl, nothing, under⟩ :=
      launch_refuses idle not shared (id : quiet → quiet)
    exact ⟨fault, after, nothing, under.host_same idle, under.idle idle⟩
  · obtain ⟨e, after, touched, opens, under⟩ :=
      launch_opens idle may shared (id : quiet → quiet)
    refine ⟨e, touched, after, opens, under, fun below => ?_, opens.progress under.ticks⟩
    rw [below] at under
    exact ⟨under.host_same idle, under.idle idle⟩
  · intro r t deadline
    by_cases may : p.MayOpen
    · obtain ⟨e, after, touched, opens, under⟩ :=
        launch_opens idle may shared (id : quiet → quiet)
      obtain rfl := Option.some.inj (after.symm.trans open')
      obtain ⟨rfl, _⟩ := opens.all
      have host : s.host = { p.host with started := leads p.lineup } := under.host
      have drain : s.host.config = p.host.config := by rw [host]
      refine ⟨fun fits => ?_, fun past => ?_⟩
      · obtain ⟨e, ended, closes, ebbing⟩ :=
          shutDown_closes under.ticks under.calls shared' (by rw [drain]; exact fits)
        rw [host] at closes ebbing
        exact ⟨e, ended, closes, ebbing.started, closes.progress ebbing⟩
      · obtain ⟨ended, nothing, same⟩ :=
          shutDown_breaks under.calls shared' (by rw [drain]; exact past)
        exact ⟨ended, nothing, by rw [same, host]⟩
    · obtain ⟨fault, e, after, rfl, _⟩ :=
        launch_refuses idle may shared (id : quiet → quiet)
      cases after.symm.trans open'

/-- Three parts: one of which only one may run, and one that fails to start at first and takes long
to stop. -/
def shop : Plant :=
  { Shift.emptyPlant with
    doubles := [{ name := "orders", lockId := "orders" },
      { name := "reports", lockId := "reports", singleton := true },
      { name := "billing", lockId := "billing",
        starts := [{ fault := some (.ofText "port already in use") }]
        stops := [{ delay := .ofSeconds 31 }] }]
    host := { config := { instanceId := "node-1" }, hasLocks := true,
              parts := [.double 0, .double 1, .double 2] } }

theorem shop_idle : shop.Idle := ⟨by decide, rfl, rfl, by decide, by decide⟩

/-- The last part fails to start, and the run of the coordinator comes to its end. -/
def shopFails : List Deed :=
  .replicate 7 (.step .foreground) ++ .replicate 10 (.step (.run 0 0)) ++
    .replicate 4 (.step .foreground)

def shopOpens : List Deed := .replicate 7 (.step .foreground)

/-- The stop of the last part takes longer than the host waits. -/
def shopCloses : List Deed :=
  [.step .foreground, .pass 30000000000] ++ .replicate 7 (.step .foreground)

/-- The host is started in vain and can be started again. Then it is started, and shut down, which
does not succeed in time. -/
theorem host_brackets_its_parts_shop :
    let s := run (act shop (.launch none)) shopFails
    let t := run (act s (.launch none)) shopOpens
    let r := act t .shutDown
    shop.Idle ∧ shop.MayOpen ∧ (∀ d ∈ shopFails, d.isExclusive = false) ∧
      (s.foreground.map (·.isOver) = some true ∧ s.Idle) ∧
      t.foreground = some (.opened (.ok ())) ∧ ∃ e, (run r shopCloses).foreground = some e ∧
        e.isOver = true ∧ Closes (leads s.lineup) 30000000000 e (history r shopCloses) := by
  intro s t r
  have may : shop.MayOpen := ⟨rfl, fun _ _ _ => ⟨rfl, rfl⟩⟩
  have shared : ∀ d ∈ shopFails, d.isExclusive = false := by decide
  have failed : s.foreground.map (·.isOver) = some true ∧
      s.foreground.map (·.isOpen) = some false := by decide +kernel
  have again : s.Idle := by
    obtain ⟨e, _, after, _, _, below, _⟩ := (host_brackets_its_parts shop_idle shared).2.1 may
    rw [show s.foreground = some e from after] at failed
    exact (below (Option.some.inj failed.2)).2 (by decide)
  have opened : t.foreground = some (.opened (.ok ())) := by
    have ready : t.foreground.map (·.isOpen) = some true := by decide +kernel
    obtain ⟨e, after, ready⟩ := Option.map_eq_some_iff.mp ready
    rw [after, Errand.eq_opened ready]
  have deadline : t.now + s.host.config.drainTimeout.nanoseconds = 30000000000 := by decide +kernel
  have fits : t.now + s.host.config.drainTimeout.nanoseconds ≤ Instant.last := by
    rw [deadline]
    decide
  have ended : (run r shopCloses).foreground.map (·.isOver) = some true := by decide +kernel
  obtain ⟨e, after, closes, _⟩ :=
    ((host_brackets_its_parts again (by decide)).2.2 opened shopCloses (by decide)).1 fits
  rw [show (run r shopCloses).foreground = some e from after] at ended
  rw [deadline] at closes
  exact ⟨shop_idle, may, shared, ⟨failed.1, again⟩, opened, e, after, Option.some.inj ended, closes⟩

/-- A host that has all the time there is to drain, and its one part. -/
def haven : Plant :=
  { Shift.emptyPlant with
    doubles := [{ name := "orders", lockId := "orders" }]
    host := { config := { instanceId := "node-1", drainTimeout := .ofNanoseconds Duration.limit },
              parts := [.double 0] } }

def havenOpens : List Deed := .replicate 3 (.step .foreground)

/-- The host is valid, and is started. Its shutdown is over without an answer, and the part has not
been asked to stop. -/
theorem endless_shutdown_stops_nothing :
    let s := run (act haven (.launch none)) havenOpens
    let r := act s .shutDown
    haven.host.config.validate.isOk = true ∧ s.foreground.map (·.isOpen) = some true ∧
      r.foreground.map (·.isOver) = some true ∧ r.ambient.controller.health = .draining ∧
      (match r.foreground with
        | some (.closed _) => true
        | _ => false) = false ∧
      r.host.started = [.double 0] ∧ r.plays.map (·.act) = ["start"] := by
  decide +kernel

end Works

end Courier
