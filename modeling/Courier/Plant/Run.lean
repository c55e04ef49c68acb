import Courier.Plant.Step

/-!
# Letting a plant run

A plant runs by rounds in which everything that can take a step takes one, until nothing can. Then
observers look, and the clock moves on to the next alarm. What is waited for in the foreground
comes first in every round.
-/

namespace Courier

namespace Plant

/-- Something that can take steps. -/
inductive Task where
  | foreground
  | loop (station loop : Nat)
  | attempt (station attempt : Nat)
  | run (coordinator run : Nat)
  | watcher (i : Nat)
  | background (i : Nat)
  | departures
  deriving DecidableEq

/-- A step of a task, where nothing has to be waited for. -/
def step? (p : Plant) : Task → Option Plant
  | .foreground =>
    match p.foreground with
    | none => none
    | some e => (p.stepErrand e).map fun (p, e) => { p with foreground := some e }
  | .loop i l => p.stepLoop i l
  | .attempt i k => p.stepAttempt i k
  | .run i k => p.stepRun i k
  | .watcher w => p.stepWatcher w
  | .background b =>
    match p.background[b]? with
    | none => none
    | some e =>
      (p.stepErrand e).map fun (p, e) => { p with background := p.background.set b e }
  | .departures => p.stepDepartures

/-- Everything that can take steps, the foreground first. -/
def tasks (p : Plant) : List Task :=
  .foreground ::
    ((List.range p.stations.length).flatMap fun i =>
      match p.stations[i]? with
      | none => []
      | some s =>
        (List.range s.loops.length).map (Task.loop i) ++
          (List.range s.attempts.length).map (Task.attempt i)) ++
    ((List.range p.coordinators.length).flatMap fun i =>
      match p.coordinators[i]? with
      | none => []
      | some c => (List.range c.runs.length).map (Task.run i)) ++
    (List.range p.watchers.length).map Task.watcher ++
    (List.range p.background.length).map Task.background ++ [.departures]

/-- One step of every task that can take one, and whether there was any. -/
def round (p : Plant) : Plant × Bool :=
  p.tasks.foldl (fun (p, moved) t =>
    match p.step? t with
    | some p => (p, true)
    | none => (p, moved)) (p, false)

/-- A state is seen; a lease that was never seen before is remembered. -/
def sight (sighted : List Nat) : Singleton.LockState → List Nat
  | .locked serial => if sighted.contains serial then sighted else sighted ++ [serial]
  | _ => sighted

/-- Observers look at every coordinator. -/
def notice (p : Plant) : Plant :=
  { p with
    coordinators := p.coordinators.map (·.notice p.now)
    sighted := p.coordinators.foldl (fun seen c => sight seen c.state) p.sighted }

/-- Rounds until nothing can take a step. -/
def settle : Nat → Plant → Plant
  | 0, p => p.notice
  | fuel + 1, p =>
    match p.round with
    | (p, true) => settle fuel p
    | (p, false) => p.notice

/-! ## Time -/

/-- The instants for which a call is waited for. -/
def callWakes : Call → List Nat
  | .starting _ _ t _ => [t]
  | .stopping t _ => [t]
  | _ => []

/-- The instants for which a run waits. -/
def waitWakes : Wait → List Nat
  | .locks _ t deadline => t :: deadline.toList
  | .part call => callWakes call
  | .rest t => [t]
  | .broken _ => []

/-- The instants for which an errand waits. -/
def errandWakes : Errand → List Nat
  | .calling call => callWakes call
  | .opening _ call _ => call.toList.flatMap callWakes
  | .staying t => [t]
  | .closing _ call deadline _ => deadline :: call.toList.flatMap callWakes
  | .draining _ _ wake _ => [wake]
  | _ => []

/-- All instants for which something waits. -/
def wakes (p : Plant) : List Nat :=
  p.stations.flatMap (·.wakes) ++
    (p.coordinators.flatMap fun c => c.runs.flatMap fun r => r.wait.toList.flatMap waitWakes) ++
    p.foreground.toList.flatMap errandWakes ++ p.background.flatMap errandWakes ++ p.departures

/-- The next alarm after the present instant. -/
def nextAlarm? (p : Plant) : Option Nat :=
  ((p.wakes.map p.ambient.clock.alarm).filter fun t => p.now < t).min?

/-- Moves the clock on. -/
def moveTo (p : Plant) (t : Nat) : Plant :=
  p.withAmbient { p.ambient with clock := p.ambient.clock.advanceTo t }

/-- How many rounds may pass at one instant, and how many alarms may go off. -/
def patience : Nat := 1000000

/-- Lets the plant run until nothing can take a step at an instant. -/
def runUntil (t : Nat) : Nat → Plant → Plant
  | 0, p => p
  | fuel + 1, p =>
    let p := p.settle patience
    match p.nextAlarm? with
    | some next =>
      if next ≤ t then runUntil t fuel (p.moveTo next) else (p.moveTo t).settle patience
    | none => (p.moveTo t).settle patience

/-- Lets the plant run until what is waited for in the foreground is over. -/
def runForeground : Nat → Plant → Plant
  | 0, p => p
  | fuel + 1, p =>
    let p := p.settle patience
    match p.foreground with
    | none => p
    | some e =>
      if e.isOver then p
      else
        match p.nextAlarm? with
        | some next => runForeground fuel (p.moveTo next)
        | none => p

/-- Takes up an errand, waits for it, and gives the errand back as it ended. -/
def await (p : Plant) (e : Errand) : Plant × Errand :=
  let p := runForeground patience { p with foreground := some e }
  ({ p with foreground := none }, p.foreground.getD e)

end Plant

end Courier
