import Courier.Plant.State

/-!
# Steps of a plant

Everything in a plant moves by steps, and a step is taken only where nothing has to be waited for.
A run of a coordinator asks for what its phase requests and, in another step, takes the reply. The
errands of a host ask their machines what to do next in the same way.
-/

namespace Courier

namespace Plant

/-! ## Calls -/

/-- Begins to start a part below a token. -/
def beginStart (p : Plant) (part : Part) (token : CancelToken) : Plant × Call :=
  match part with
  | .double i =>
    match p.doubles[i]? with
    | none => (p, .answered (.ok ()))
    | some d =>
      let (turn, rest) := Turn.next d.starts
      let p := { p with doubles := p.doubles.set i { d with starts := rest } }
      (p.play i "start", .starting i token (p.now + turn.delay.nanoseconds) turn)
  | .station i =>
    match p.stations[i]? with
    | none => (p, .answered (.ok ()))
    | some s =>
      match s.start p.ambient token with
      | .ok (a, s) => ((p.withAmbient a).setStation i s, .answered (.ok ()))
      | .error cause => (p, .answered (.error cause))
  | .coordinator i =>
    match p.coordinators[i]? with
    | none => (p, .answered (.ok ()))
    | some c =>
      match c.start p.ambient token with
      | .ok (a, c) => ((p.withAmbient a).setCoordinator i c, .answered (.ok ()))
      | .error cause => (p, .answered (.error cause))

/-- Begins to stop a part. -/
def beginStop (p : Plant) (part : Part) : Plant × Call :=
  match part with
  | .double i =>
    match p.doubles[i]? with
    | none => (p, .answered (.ok ()))
    | some d =>
      let (turn, rest) := Turn.next d.stops
      let p := { p with doubles := p.doubles.set i { d with stops := rest } }
      (p.play i "stop", .stopping (p.now + turn.delay.nanoseconds) turn)
  | .station i =>
    match p.stations[i]? with
    | none => (p, .answered (.ok ()))
    | some s =>
      let (a, s, loop) := s.stop p.ambient
      ((p.withAmbient a).setStation i s,
        match loop with
        | some l => .loop i l
        | none => .answered (.ok ()))
  | .coordinator i =>
    match p.coordinators[i]? with
    | none => (p, .answered (.ok ()))
    | some c =>
      let (a, c, run) := c.stop p.ambient
      ((p.withAmbient a).setCoordinator i c,
        match run with
        | some r => .run i r
        | none => .answered (.ok ()))

/-- The answer to a call, if there is one by now. -/
def poll (p : Plant) : Call → Option (Plant × Except Cause Unit)
  | .answered answer => some (p, answer)
  | .starting i token t turn =>
    if p.due t then
      match turn.answer with
      | .ok () => some ({ p with watchers := p.watchers ++ [⟨i, token, false⟩] }, .ok ())
      | .error cause => some (p.play i "start failed", .error cause)
    else none
  | .stopping t turn => if p.due t then some (p, turn.answer) else none
  | .loop i l =>
    match p.stations[i]? with
    | none => some (p, .ok ())
    | some s => (s.loopResult? l).map fun answer => (p, answer)
  | .run i r =>
    match p.coordinators[i]? with
    | none => some (p, .ok ())
    | some c =>
      match c.runs[r]? with
      | none => some (p, .ok ())
      | some run =>
        match run.overflow? with
        | some o =>
          some (p, .error (.ofText ("singleton " ++ c.lockId ++ " task failed: " ++ o.message)))
        | none => if run.isOver then some (p, .ok ()) else none

/-! ## Runs of coordinators -/

/-- Asks for what a phase of a run requests; nothing is asked for once the run is over. -/
def ask (p : Plant) (c : Coordinator) (r : Run) : Option (Plant × Wait) :=
  match r.phase.request c.config with
  | .acquire =>
    let (turn, rest) := Turn.next p.locks.acquires
    some ({ p with locks := { p.locks with acquires := rest } },
      .locks turn (p.now + turn.delay.nanoseconds) none)
  | .start =>
    let (a, token) := p.ambient.child r.token
    let (p, call) := (p.withAmbient a).beginStart c.part token
    some (p, .part call)
  | .rest period => some (p, .rest (p.now + period.nanoseconds))
  | .renew _ within =>
    let (turn, rest) := Turn.next p.locks.renewals
    some ({ p with locks := { p.locks with renewals := rest } },
      .locks turn (p.now + turn.delay.nanoseconds) (some (p.now + within.nanoseconds)))
  | .stop =>
    let (p, call) := p.beginStop c.part
    some (p, .part call)
  | .release _ =>
    let (turn, rest) := Turn.next p.locks.releases
    some ({ p with locks := { p.locks with releases := rest } },
      .locks turn (p.now + turn.delay.nanoseconds) none)
  | .nothing => none

/-- The call to the store that a phase makes at the end of a turn. -/
def callStore (p : Plant) (c : Coordinator) (phase : Singleton.Phase) (turn : Turn) :
    Except Overflow (Plant × Singleton.Reply) :=
  match phase with
  | .renewing lease _ =>
    (p.locks.renew turn p.now lease).map fun (l, good) => ({ p with locks := l }, .renewed good)
  | .releasing lease _ => .ok ({ p with locks := p.locks.release turn lease }, .released)
  | _ =>
    (p.locks.acquire turn p.now c.lockId c.config.leasePeriod).map fun (l, lease) =>
      ({ p with locks := l }, .acquired lease)

/-- The reply to a part that was asked to start or to stop. -/
def partReply (phase : Singleton.Phase) (answer : Except Cause Unit) : Singleton.Reply :=
  match phase with
  | .starting _ => .started answer.isOk
  | _ => .stopped

/-- The reply to what a run waits for, if there is one by now. A call to the store that comes to
its end when the time is up still counts. -/
def reply? (p : Plant) (c : Coordinator) (r : Run) :
    Wait → Option (Except Overflow (Plant × Singleton.Reply))
  | .locks turn t deadline =>
    if p.due t then some (p.callStore c r.phase turn)
    else
      match deadline with
      | some d => if p.due d then some (.ok (p, .renewed none)) else none
      | none => none
  | .part call => (p.poll call).map fun (p, answer) => .ok (p, partReply r.phase answer)
  | .rest t =>
    if p.ambient.isCancelled r.token then some (.ok (p, .cancelled))
    else if p.due t then some (.ok (p, .elapsed))
    else none
  | .broken _ => none

/-- A run enters the phase after a reply. -/
def enter (p : Plant) (i k : Nat) (r : Run) (reply : Singleton.Reply) : Plant :=
  match p.coordinators[i]? with
  | none => p
  | some c =>
    let phase := r.phase.next c.config reply
    let c := { c with runs := c.runs.set k { r with phase := phase, wait := none } }
    let c := match r.phase.announcement phase with
      | some s => c.publish s
      | none => c
    let p := p.setCoordinator i c
    match r.phase.gauge phase with
    | some n =>
      let a := p.ambient
      p.withAmbient { a with telemetry := a.telemetry.gauge (.locked c.lockId) n }
    | none => p

/-- Keeps what a run has asked for. -/
def keepWait (p : Plant) (i k : Nat) (r : Run) (w : Wait) : Plant :=
  match p.coordinators[i]? with
  | none => p
  | some c => p.setCoordinator i { c with runs := c.runs.set k { r with wait := some w } }

/-- A step of a run. -/
def stepRun (p : Plant) (i k : Nat) : Option Plant :=
  match p.coordinators[i]? with
  | none => none
  | some c =>
    match c.runs[k]? with
    | none => none
    | some r =>
      match r.wait with
      | none => (p.ask c r).map fun (p, w) => p.keepWait i k r w
      | some w =>
        (p.reply? c r w).map fun
          | .ok (p, reply) => p.enter i k r reply
          | .error o => p.keepWait i k r (.broken o)

/-! ## Stations, watchers and guards -/

/-- A step of a receive loop. -/
def stepLoop (p : Plant) (i l : Nat) : Option Plant :=
  match p.stations[i]? with
  | none => none
  | some s => (s.stepLoop p.ambient l).map fun (a, s) => (p.withAmbient a).setStation i s

/-- A step of an attempt. -/
def stepAttempt (p : Plant) (i k : Nat) : Option Plant :=
  match p.stations[i]? with
  | none => none
  | some s => (s.stepAttempt p.ambient k).map fun (a, s) => (p.withAmbient a).setStation i s

/-- Tells a double that its token was cancelled. -/
def stepWatcher (p : Plant) (w : Nat) : Option Plant :=
  match p.watchers[w]? with
  | none => none
  | some watcher =>
    if !watcher.told && p.ambient.isCancelled watcher.token then
      some
        { p with
          watchers := p.watchers.set w { watcher with told := true }
          cancelled := ⟨watcher.double, "cancelled", p.now⟩ :: p.cancelled }
    else none

/-- Drops the guards whose time has come. -/
def stepDepartures (p : Plant) : Option Plant :=
  let (gone, left) := p.departures.partition p.due
  if gone.isEmpty then none
  else
    let controller := gone.foldl (fun c _ => c.leave) p.ambient.controller
    some { p with departures := left, ambient := { p.ambient with controller := controller } }

/-! ## Errands -/

/-- The part that a host starts: a part of which only one may run goes under a lease. -/
def wrap (p : Plant) (part : Part) : Plant × Part :=
  if p.partIsSingleton part && p.host.hasLocks then
    let c : Coordinator :=
      { name := p.partName part
        lockId := p.partLockId part
        part := part
        config := p.host.config.singleton }
    ({ p with coordinators := p.coordinators ++ [c] }, .coordinator p.coordinators.length)
  else (p, part)

/-- Begins to shut the host down. Where the time to drain would end past the last instant it breaks
off, and nothing is stopped. -/
def beginClosing (p : Plant) (stayed : Bool) : Plant × Errand :=
  let (controller, cs) := p.ambient.controller.trigger p.ambient.cancellations
  let started := p.host.started
  let p := p.withAmbient { p.ambient with controller := controller, cancellations := cs }
  match Instant.plus? p.now p.host.config.drainTimeout with
  | none => (p, .broken .instant)
  | some deadline =>
    ({ p with host := { p.host with started := [] } },
      .closing (.toStop started true) none deadline stayed)

/-- Begins to start the host, or says what is in the way. -/
def beginOpening (p : Plant) (stay : Option Duration) : Errand :=
  if !p.host.started.isEmpty || p.ambient.controller.health != .starting then
    .opened (.error .alreadyStarted)
  else
    match p.host.config.validate with
    | .error f => .opened (.error (.configuration f.message))
    | .ok () =>
      match p.host.parts.find? p.partIsSingleton with
      | none => .opening (.toStart p.host.parts []) none stay
      | some singleton =>
        if !p.host.hasLocks then .opened (.error (.missingLockManager (p.partName singleton)))
        else
          match p.locks.store.prepare with
          | .error f => .opened (.error (.lock f))
          | .ok () => .opening (.toStart p.host.parts []) none stay

/-- A step of a start of the host. -/
def stepOpening (p : Plant) (o : Host.Opening Part) (stay : Option Duration) :
    Option (Plant × Errand) :=
  match o.move with
  | .wait => none
  | .start part rest started =>
    let (p, part) := p.wrap part
    let (a, token) := p.ambient.child p.ambient.controller.token
    let (p, call) := (p.withAmbient a).beginStart part token
    some (p, .opening (.starting part rest started) (some call) stay)
  | .stop part rest fault =>
    let (p, call) := p.beginStop part
    some (p, .opening (.stopping rest fault) (some call) stay)
  | .failed fault => some (p, .opened (.error fault))
  | .opened started =>
    let a := { p.ambient with controller := p.ambient.controller.setReady }
    let p := { p with ambient := a, host := { p.host with started := started } }
    match stay with
    | none => some (p, .opened (.ok ()))
    | some d => some (p, .staying (p.now + d.nanoseconds))

/-- The name of the part whose start is waited for. -/
def openingName (p : Plant) : Host.Opening Part → String
  | .starting current _ _ => p.partName current
  | _ => ""

/-- A step of a shutdown of the host. -/
def stepClosing (p : Plant) (c : Host.Closing Part) (deadline : Nat) (stayed : Bool) :
    Option (Plant × Errand) :=
  match c.move with
  | .wait => none
  | .stop part rest inTime =>
    let (p, call) := p.beginStop part
    some (p, .closing (.stopping rest inTime) (some call) deadline stayed)
  | .drain inTime => some (p, .draining (max deadline p.now) inTime p.now stayed)

/-- A step of an errand. -/
def stepErrand (p : Plant) : Errand → Option (Plant × Errand)
  | .calling call => (p.poll call).map fun (p, answer) => (p, .called answer p.now)
  | .opening o none stay => p.stepOpening o stay
  | .opening o (some call) stay =>
    (p.poll call).map fun (p, answer) =>
      (p, .opening (o.answered (p.openingName o) answer) none stay)
  | .staying t => if p.due t then some (p.beginClosing true) else none
  | .closing c none deadline stayed => p.stepClosing c deadline stayed
  | .closing c (some call) deadline stayed =>
    match p.poll call with
    | some (p, _) => some (p, .closing (c.answered true) none deadline stayed)
    | none =>
      if p.due deadline then some (p, .closing (c.answered false) none deadline stayed) else none
  | .draining deadline inTime wake stayed =>
    if p.due wake then
      let (controller, drained) := p.ambient.controller.look p.now deadline
      let p := p.withAmbient { p.ambient with controller := controller }
      match drained with
      | some drained =>
        some (p, if stayed then .opened (.ok ()) else .closed (inTime && drained))
      | none =>
        some (p, .draining deadline inTime (p.now + Controller.drainStep.nanoseconds) stayed)
    else none
  | _ => none

end Plant

end Courier
