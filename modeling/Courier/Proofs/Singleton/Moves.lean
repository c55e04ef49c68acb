import Courier.Singleton.Phase

/-!
# Moves of the machine

The machine that keeps a component under a lease is told only what it asked for. `Moves` lists what
can follow: from which phase a reply leads to which, and what is made known by it. Whatever is said
about the machine goes through this list. A call to the store that breaks off leads nowhere.
-/

namespace Courier

namespace Singleton

/-- What the machine does in one step: it asks for something, or it is told something, or what it
asked for breaks off. -/
inductive Happening where
  | asked (request : Request)
  | told (reply : Reply)
  | broke (o : Overflow)
  deriving DecidableEq

/-- Whether a reply is one to a request. -/
inductive Request.AnsweredBy : Request → Reply → Prop where
  | acquired (lease) : AnsweredBy .acquire (.acquired lease)
  | started (running) : AnsweredBy .start (.started running)
  | elapsed (period) : AnsweredBy (.rest period) .elapsed
  | cancelled (period) : AnsweredBy (.rest period) .cancelled
  | renewed (lease within good) : AnsweredBy (.renew lease within) (.renewed good)
  | stopped : AnsweredBy .stop .stopped
  | released (lease) : AnsweredBy (.release lease) .released

namespace Phase

/-- What a reply to the request of a phase leads to, and what is then made known. -/
inductive Moves (c : SingletonConfig) : Phase → Reply → Phase → Option LockState → Prop where
  | acquired (lease) : Moves c .acquiring (.acquired (some lease)) (.starting lease) none
  | refused : Moves c .acquiring (.acquired none) .polling (some .polling)
  | started (lease : LeaseHandle) :
      Moves c (.starting lease) (.started true) (.holding lease) (some (.locked lease.serial))
  | failed (lease) : Moves c (.starting lease) (.started false) (.stopping lease .lost) none
  | held (lease) : Moves c (.holding lease) .elapsed (.renewing lease (delays c)) none
  | letGo (lease) : Moves c (.holding lease) .cancelled (.stopping lease .cancelled) none
  | renewed (lease left) :
      Moves c (.renewing lease left) (.renewed (some true)) (.holding lease) none
  | lost (lease left) :
      Moves c (.renewing lease left) (.renewed (some false)) (.stopping lease .lost) none
  | paused {left left' : Backoff} {pause : Duration} (lease) :
      left.next? = some (pause, left') →
      Moves c (.renewing lease left) (.renewed none) (.pausing lease pause left') none
  | exhausted {left : Backoff} (lease) : left.next? = none →
      Moves c (.renewing lease left) (.renewed none) (.stopping lease .lost) none
  | retried (lease pause left) :
      Moves c (.pausing lease pause left) .elapsed (.renewing lease left) none
  | brokenOff (lease pause left) :
      Moves c (.pausing lease pause left) .cancelled (.stopping lease .cancelled) none
  | stopped (lease ending) :
      Moves c (.stopping lease ending) .stopped (.releasing lease ending) none
  | released (lease) : Moves c (.releasing lease .lost) .released .polling (some .polling)
  | left (lease) : Moves c (.releasing lease .cancelled) .released .finished (some .unlocked)
  | polled : Moves c .polling .elapsed .acquiring none
  | ended : Moves c .polling .cancelled .finished (some .unlocked)

variable {c : SingletonConfig} {phase phase' : Phase} {reply : Reply} {shown : Option LockState}
  {lease : LeaseHandle}

/-- The machine makes no other moves. -/
theorem next_moves (answered : (phase.request c).AnsweredBy reply) :
    Moves c phase reply (phase.next c reply) (phase.announcement (phase.next c reply)) := by
  cases phase with
  | acquiring =>
      cases answered with
      | acquired lease =>
          cases lease with
          | none => exact .refused
          | some lease => exact .acquired lease
  | starting lease =>
      cases answered with
      | started running =>
          cases running with
          | true => exact .started lease
          | false => exact .failed lease
  | holding lease =>
      cases answered with
      | elapsed => exact .held lease
      | cancelled => exact .letGo lease
  | renewing lease left =>
      cases answered with
      | renewed _ _ good =>
          match good with
          | some true => exact .renewed lease left
          | some false => exact .lost lease left
          | none =>
              cases next : left.next? with
              | none => simpa only [Phase.next, next] using .exhausted lease next
              | some delayed => simpa only [Phase.next, next] using .paused lease next
  | pausing lease pause left =>
      cases answered with
      | elapsed => exact .retried lease pause left
      | cancelled => exact .brokenOff lease pause left
  | stopping lease ending =>
      cases answered
      exact .stopped lease ending
  | releasing lease ending =>
      cases answered
      cases ending with
      | lost => exact .released lease
      | cancelled => exact .left lease
  | polling =>
      cases answered with
      | elapsed => exact .polled
      | cancelled => exact .ended
  | finished => cases answered

/-- A lease in hand was there before, or it has just been acquired. -/
theorem Moves.of_lease? (moves : Moves c phase reply phase' shown)
    (held : phase'.lease? = some lease) :
    phase.lease? = some lease ∨ phase = .acquiring ∧ reply = .acquired (some lease) := by
  cases moves with
  | acquired => exact .inr ⟨rfl, congrArg (Reply.acquired) held⟩
  | refused | released | left | polled | ended => simp [lease?] at held
  | _ => exact .inl held

/-- What makes a lease known holds it, and what drops a lease makes something else known. -/
theorem Moves.shows (moves : Moves c phase reply phase' shown) :
    (∀ serial, shown = some (.locked serial) → ∃ lease,
      phase'.lease? = some lease ∧ lease.serial = serial) ∧
      (shown = none → ∀ lease, phase.lease? = some lease → phase'.lease? = some lease) := by
  cases moves with
  | started lease => exact ⟨fun _ same => ⟨lease, rfl, by simpa using same⟩, nofun⟩
  | acquired | polled => exact ⟨nofun, fun _ _ held => by simp [lease?] at held⟩
  | refused | released | left | ended => exact ⟨nofun, nofun⟩
  | _ => exact ⟨nofun, fun _ _ held => held⟩

end Phase

end Singleton

end Courier
