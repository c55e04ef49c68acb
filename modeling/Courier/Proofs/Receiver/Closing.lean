import Courier.Proofs.Receiver.Seating

/-!
# How loops end

A loop gives up receiving for two reasons: it is cancelled, or its queue tells it that it is closed
(`Farewell`). It has ended when all of its attempts have. It breaks off where its capacity does not
fit a word, or where a receive does (`Hitch`), and its attempts are aborted then. All this is so in
every run (`Ending`). So no attempt of a loop that is over is in flight.

In an orderly run nobody starts a receiver before its last loop is over, no receive breaks off, and
others give back only what they took. Then, if the number of attempts in flight fits a word, no loop
breaks off, only the last one may be at work, and the attempts hold the guards of the controller
that nobody else holds (`Ordered`). So when the last loop has ended, nothing is left of what the
loops have begun.
-/

namespace Courier

namespace Station

/-- Why a loop gives up receiving in its next step: it is cancelled, or the queue is closed. -/
inductive Farewell (a : Ambient) (s : Station) (i : Nat) : Prop where
  | cancelled {l : ReceiveLoop} : s.loops[i]? = some l → a.isCancelled l.token = true →
      Farewell a s i
  | closed {lock : Duration} {q : Queue} : s.look? a i = some (lock, q, .failed .closed) →
      Farewell a s i

/-- Why a receive of a loop breaks off in its next step: the end of the wait or that of the locks is
past the last instant, or there is a message that was delivered so often that its count cannot
grow. -/
inductive Hitch (a : Ambient) (s : Station) (i : Nat) : Prop where
  | wait {l : ReceiveLoop} : s.loops[i]? = some l → l.phase = .ready →
      Instant.last < a.now + s.receiver.config.receiveWait.nanoseconds → Hitch a s i
  | lock {m : Stored} : m ∈ (s.premises.queue.reclaim a.now).ready →
      Instant.last < a.now + s.receiver.settings.lockTimeout.nanoseconds → Hitch a s i
  | count {m : Stored} : m ∈ (s.premises.queue.reclaim a.now).ready →
      m.deliveries = Stored.most → Hitch a s i

/-- Loops ask for locks as the settings have them. -/
def Locks (s : Station) : Prop :=
  ∀ l ∈ s.loops, ∀ lock, l.phase.lock? = some lock → lock = s.receiver.settings.lockTimeout

/-- Whether the next step of a loop begins a receive, or goes on with one, that breaks off. -/
def overflows (s : Station) (a : Ambient) (i : Nat) : Bool :=
  match s.look? a i with
  | some (_, _, .overflow _) => true
  | _ => false

theorem hitch_of_look? {s : Station} {a : Ambient} {i : Nat} (locks : s.Locks) {lock : Duration}
    {q : Queue} {spill : Queue.Spill} (look : s.look? a i = some (lock, q, .overflow spill)) :
    s.Hitch a i := by
  have same : lock = s.receiver.settings.lockTimeout := by
    obtain same | ⟨l, mem, asks⟩ := (look?_lock look).1
    · exact same
    · exact locks l mem lock asks
  have stuck {q' : Queue} {max : Nat} (spilled : s.premises.queue.Spilled a.now max lock spill q') :
      s.Hitch a i := by
    obtain ⟨m, mem, full | past⟩ := spilled.stuck
    · exact .count mem full
    · exact .lock mem (same ▸ past)
  unfold look? at look
  split at look
  · cases look
  · rename_i l here
    split at look
    · rename_i ready
      split at look
      · cases look
      · obtain ⟨rfl, seen⟩ := Prod.mk.inj (Option.some.inj look)
        obtain spilled | past := Receiving.start_spilled (congrArg Prod.snd seen)
        · exact stuck spilled
        · exact .wait here ready past
    · split at look
      · cases look
      · obtain ⟨rfl, seen⟩ := Prod.mk.inj (Option.some.inj look)
        exact stuck (Receiving.resume_spilled (congrArg Prod.snd seen))
    · cases look

/-- The number of attempts that have not ended. -/
def underWay (s : Station) : Nat := s.inFlightOf fun _ => true

/-! ## Steps of loops -/

variable {s s' : Station} {a a' : Ambient} {i : Nat} {l l' : ReceiveLoop} {made : List Attempt}

theorem LoopStep.farewell (step : s.LoopStep a a' s' i l l' made)
    (gaveUp : l'.phase = .draining) : s.Farewell a i := by
  obtain ⟨_, shifts⟩ | ⟨_, _, q, o, look, _, after, _, _⟩ := step.cause
  · exact .cancelled step.was (gaveUp ▸ shifts).gaveUp
  · obtain rfl := phaseAfter_draining (after.symm.trans gaveUp)
    exact .closed look

/-- A loop ends when it has given up receiving and none of its attempts is in flight. -/
theorem LoopStep.finish (step : s.LoopStep a a' s' i l l' made) (ended : l'.phase = .ended) :
    l.phase = .draining ∧ s'.unfinished i = 0 := by
  obtain ⟨look, shifts⟩ | ⟨_, _, q, o, _, _, after, _, _⟩ := step.cause
  · obtain ⟨draining, none⟩ := (ended ▸ shifts).ended
    rw [step.unfinished_self, step.none_of_received (received_of_look look), none]
    exact ⟨draining, rfl⟩
  · exact absurd (after.symm.trans ended) (phaseAfter_ne_ended s _ o)

/-- A loop breaks off for its capacity as it begins, or where a receive does. -/
theorem LoopStep.overflows (step : s.LoopStep a a' s' i l l' made) {o : Overflow}
    (broken : l'.phase = .broken o) :
    l.phase = .begun ∧ s.receiver.settings.inFlightCapacity? = none ∨
      ∃ lock q spill, s.look? a i = some (lock, q, .overflow spill) := by
  obtain ⟨_, shifts⟩ | ⟨_, lock, q, o, look, _, after, _, _⟩ := step.cause
  · exact .inl (broken ▸ shifts).broken
  · obtain ⟨spill, rfl, _⟩ := phaseAfter_broken (after.symm.trans broken)
    exact .inr ⟨lock, q, spill, look⟩

theorem LoopStep.whole (step : s.LoopStep a a' s' i l l' made)
    (fits : s.receiver.settings.inFlightCapacity? ≠ none)
    (sound : s.overflows a i = false) (o : Overflow) : l'.phase ≠ .broken o := by
  intro broken
  obtain ⟨_, none⟩ | ⟨lock, q, spill, look⟩ := step.overflows broken
  · exact fits none
  · simp [Station.overflows, look] at sound

/-- A loop that asks for locks asks for them as it has done before, or as the settings have them. -/
theorem LoopStep.locks (step : s.LoopStep a a' s' i l l' made) (locks : s.Locks) : s'.Locks := by
  intro m mem lock asks
  have receiver : s'.receiver = s.receiver := by rw [step.frame]
  rw [receiver]
  rw [step.loops] at mem
  obtain old | rfl := List.mem_or_eq_of_mem_set mem
  · exact locks m old lock asks
  · obtain ⟨_, shifts⟩ | ⟨_, period, q, o, look, _, after, _, _⟩ := step.cause
    · cases phase : m.phase with
      | receiving r => exact absurd phase (shifts.not_receiving r)
      | _ => simp [phase, LoopPhase.lock?] at asks
    · rw [after] at asks
      cases o with
      | waiting r =>
          obtain rfl := Option.some.inj asks
          rw [(look?_lock look).2 r rfl]
          obtain same | ⟨m, mem, asks⟩ := (look?_lock look).1
          · exact same
          · exact locks m mem period asks
      | failed f => cases f <;> cases asks
      | _ => cases asks

/-- No step leads back to the beginning. -/
theorem LoopStep.ne_begun (step : s.LoopStep a a' s' i l l' made) : l'.phase ≠ .begun := by
  obtain ⟨_, shifts⟩ | ⟨_, _, q, o, _, _, after, _, _⟩ := step.cause
  · exact shifts.ne_begun
  · rw [after]
    cases o with
    | failed f => cases f <;> exact nofun
    | _ => exact nofun

/-- A loop whose capacity does not fit a word breaks off in its first step. -/
theorem LoopStep.breaksOff (step : s.LoopStep a a' s' i l l' made)
    (none : s.receiver.settings.inFlightCapacity? = none)
    (new : l.phase = .begun ∨ l.phase = .broken .count) : l'.phase = .broken .count := by
  have begun : l.phase = .begun := by
    refine new.resolve_right fun broken => ?_
    have going := step.going
    simp [ReceiveLoop.isOver, broken] at going
  obtain ⟨_, shifts⟩ | ⟨_, _, _, _, _, _, _, ⟨ready, _⟩ | ⟨r, receiving, _⟩, _⟩ := step.cause
  · rw [begun] at shifts
    exact shifts.first none
  · rw [begun] at ready
    cases ready
  · rw [begun] at receiving
    cases receiving

end Station

/-! ## Runs -/

namespace Duty

open Station (Farewell Hitch)

/-- A loop had a reason to give up receiving where it stepped. -/
def GaveUp (start : Duty) (deeds : List Deed) (i : Nat) : Prop :=
  ∃ before after, deeds = before ++ .loop i :: after ∧
    Farewell (start.run before).1.ambient (start.run before).1.station i

theorem GaveUp.more {start : Duty} {deeds : List Deed} {i : Nat} (gaveUp : start.GaveUp deeds i)
    (deed : Deed) : start.GaveUp (deeds ++ [deed]) i := by
  obtain ⟨before, after, rfl, farewell⟩ := gaveUp
  exact ⟨before, after ++ [deed], by simp, farewell⟩

/-- A receive of a loop had a reason to break off where the loop stepped. -/
def Hitched (start : Duty) (deeds : List Deed) (i : Nat) : Prop :=
  ∃ before after, deeds = before ++ .loop i :: after ∧
    Hitch (start.run before).1.ambient (start.run before).1.station i

theorem Hitched.more {start : Duty} {deeds : List Deed} {i : Nat} (hitched : start.Hitched deeds i)
    (deed : Deed) : start.Hitched (deeds ++ [deed]) i := by
  obtain ⟨before, after, rfl, hitch⟩ := hitched
  exact ⟨before, after ++ [deed], by simp, hitch⟩

/-- What is known of loops that have given up receiving or broken off, and of the one that was
started last. A loop that has not begun has no attempts. -/
structure Ending (start : Duty) (deeds : List Deed) (s : Station) : Prop where
  receiver : s.receiver = start.station.receiver
  locks : s.Locks
  mine : ∀ t ∈ s.attempts, t.loop < s.loops.length
  begun : ∀ (i : Nat) (l : ReceiveLoop), s.loops[i]? = some l → l.phase = .begun →
    ∀ t ∈ s.attempts, t.loop ≠ i
  running : ∀ i, s.running = some i → i + 1 = s.loops.length
  ended : ∀ (i : Nat) (l : ReceiveLoop), s.loops[i]? = some l → l.phase = .ended →
    s.unfinished i = 0
  gaveUp : ∀ (i : Nat) (l : ReceiveLoop), s.loops[i]? = some l →
    l.phase = .draining ∨ l.phase = .ended → start.GaveUp deeds i
  broken : ∀ (i : Nat) (l : ReceiveLoop) o, s.loops[i]? = some l → l.phase = .broken o →
    s.receiver.settings.inFlightCapacity? = none ∨ start.Hitched deeds i
  aborted : ∀ t ∈ s.attempts, t.aborted = true →
    ∃ l o, s.loops[t.loop]? = some l ∧ l.phase = .broken o

namespace Ending

variable {start : Duty} {deeds : List Deed} {s : Station}

theorem same (ending : Ending start deeds s) (deed : Deed) {s' : Station}
    (receiver : s'.receiver = s.receiver) (attempts : s'.attempts = s.attempts)
    (loops : s'.loops = s.loops) (running : ∀ i, s'.running = some i → s.running = some i) :
    Ending start (deeds ++ [deed]) s' where
  receiver := receiver.trans ending.receiver
  locks := by
    rw [Station.Locks, receiver, loops]
    exact ending.locks
  mine := attempts ▸ loops ▸ ending.mine
  begun := attempts ▸ loops ▸ ending.begun
  running i h := loops ▸ ending.running i (running i h)
  ended := by
    rw [loops]
    intro i l hl gone
    rw [Station.unfinished, attempts]
    exact ending.ended i l hl gone
  gaveUp i l hl gone := (ending.gaveUp i l (loops ▸ hl) gone).more deed
  broken i l o hl gone :=
    receiver ▸ (ending.broken i l o (loops ▸ hl) gone).imp_right (Hitched.more · deed)
  aborted := attempts ▸ loops ▸ ending.aborted

theorem loop {a' : Ambient} {d : Duty} {s' : Station} {h : List Occurrence} {i : Nat}
    {l l' : ReceiveLoop} {made : List Attempt} (ending : Ending start deeds d.station)
    (reached : start.run deeds = (d, h))
    (step : d.station.LoopStep d.ambient a' s' i l l' made) :
    Ending start (deeds ++ [.loop i]) s' := by
  have length : s'.loops.length = d.station.loops.length := by rw [step.loops, List.length_set]
  have attempts : s'.attempts = d.station.attempts ++ made := step.accepted.attempts
  have receiver : s'.receiver = d.station.receiver := by rw [step.frame]
  refine ⟨receiver.trans ending.receiver, step.locks ending.locks, ?mine, ?begun, ?running, ?ended,
    ?gaveUp, ?broken, ?aborted⟩
  case mine =>
    intro t mem
    rw [attempts] at mem
    rw [length]
    obtain old | new := List.mem_append.mp mem
    · exact ending.mine t old
    · rw [(step.accepted.new t new).loop]
      exact (List.getElem?_eq_some_iff.mp step.was).1
  case begun =>
    intro j m hm phase t mem
    rw [step.loops] at hm
    obtain ⟨rfl, rfl⟩ | ⟨other, hm⟩ := getElem?_set_cases step.was hm
    · exact absurd phase step.ne_begun
    · rw [attempts] at mem
      obtain old | new := List.mem_append.mp mem
      · exact ending.begun j m hm phase t old
      · rw [(step.accepted.new t new).loop]
        exact Ne.symm other
  case running =>
    intro j running
    rw [length]
    refine ending.running j ?_
    rw [← running, step.frame]
  case ended =>
    intro j m hm gone
    rw [step.loops] at hm
    obtain ⟨rfl, rfl⟩ | ⟨other, hm⟩ := getElem?_set_cases step.was hm
    · exact (step.finish gone).2
    · rw [step.unfinished_other (Ne.symm other)]
      exact ending.ended j m hm gone
  case gaveUp =>
    intro j m hm gone
    rw [step.loops] at hm
    obtain ⟨rfl, rfl⟩ | ⟨other, hm⟩ := getElem?_set_cases step.was hm
    · obtain draining | gone := gone
      · refine ⟨deeds, [], rfl, ?_⟩
        rw [reached]
        exact step.farewell draining
      · exact (ending.gaveUp j l step.was (.inl (step.finish gone).1)).more _
    · exact (ending.gaveUp j m hm gone).more _
  case broken =>
    intro j m o hm gone
    rw [receiver]
    rw [step.loops] at hm
    obtain ⟨rfl, rfl⟩ | ⟨other, hm⟩ := getElem?_set_cases step.was hm
    · refine (step.overflows gone).imp And.right fun ⟨lock, q, spill, look⟩ =>
        ⟨deeds, [], rfl, ?_⟩
      rw [reached]
      exact Station.hitch_of_look? ending.locks look
    · exact (ending.broken j m o hm gone).imp_right (Hitched.more · _)
  case aborted =>
    intro t mem aborted
    rw [attempts] at mem
    obtain old | new := List.mem_append.mp mem
    · obtain ⟨m, o, hm, broken⟩ := ending.aborted t old aborted
      have other : i ≠ t.loop := by
        intro here
        have going := step.going
        obtain rfl := Option.some.inj (step.was.symm.trans (here ▸ hm))
        simp [ReceiveLoop.isOver, broken] at going
      exact ⟨m, o, by rw [step.loops, List.getElem?_set_ne other, hm], broken⟩
    · rw [(step.accepted.new t new).kept] at aborted
      cases aborted

theorem attempt {a : Ambient} {k : Nat} {t : Attempt} (ending : Ending start deeds s)
    (ht : s.attempts[k]? = some t) (going : t.isOver = false) (premises : Premises) :
    Ending start (deeds ++ [.attempt k])
      { s with premises := premises, attempts := s.attempts.set k (s.resumed a t) } := by
  have before {u : Attempt} (mem : u ∈ s.attempts.set k (s.resumed a t)) :
      ∃ v ∈ s.attempts, u.loop = v.loop ∧ u.aborted = v.aborted := by
    obtain old | rfl := List.mem_or_eq_of_mem_set mem
    · exact ⟨u, old, rfl, rfl⟩
    · exact ⟨t, List.mem_of_getElem? ht, rfl, rfl⟩
  refine ⟨ending.receiver, ending.locks, fun u mem => ?_, fun i l hl phase u mem => ?_,
    ending.running, fun i l hl gone => ?_, fun i l hl gone => (ending.gaveUp i l hl gone).more _,
    fun i l o hl gone => (ending.broken i l o hl gone).imp_right (Hitched.more · _),
    fun u mem aborted => ?_⟩
  · obtain ⟨v, old, loop, _⟩ := before mem
    exact loop ▸ ending.mine v old
  · obtain ⟨v, old, loop, _⟩ := before mem
    exact loop ▸ ending.begun i l hl phase v old
  · exact Nat.le_zero.mp (ending.ended i l hl gone ▸ Station.unfinished_resumed ht going premises i)
  · obtain ⟨v, old, loop, same⟩ := before mem
    exact loop ▸ ending.aborted v old (same ▸ aborted)

theorem abort {a a' : Ambient} {s' : Station} (ending : Ending start deeds s)
    (abort : s.Abort a a' s') : Ending start deeds s' := by
  have before {u : Attempt} (mem : u ∈ s'.attempts) : ∃ v ∈ s.attempts, u.loop = v.loop := by
    obtain ⟨k, hu⟩ := List.mem_iff_getElem?.mp mem
    obtain ⟨v, hv, same⟩ := abort.attempt_before hu
    exact ⟨v, List.mem_of_getElem? hv, by rw [same]⟩
  refine ⟨abort.receiver.trans ending.receiver, ?_, fun u mem => ?_, fun i l hl phase u mem => ?_,
    fun i h => ?_, fun i l hl gone => ?_, fun i l hl => ?_, fun i l o hl => ?_, ?_⟩
  · rw [Station.Locks, abort.receiver, abort.loops]
    exact ending.locks
  · obtain ⟨v, old, loop⟩ := before mem
    rw [abort.loops, loop]
    exact ending.mine v old
  · obtain ⟨v, old, loop⟩ := before mem
    exact loop ▸ ending.begun i l (abort.loops ▸ hl) phase v old
  · rw [abort.loops]
    exact ending.running i (abort.running ▸ h)
  · exact Nat.le_zero.mp (ending.ended i l (abort.loops ▸ hl) gone ▸ abort.unfinished_le i)
  · exact ending.gaveUp i l (abort.loops ▸ hl)
  · rw [abort.receiver]
    exact ending.broken i l o (abort.loops ▸ hl)
  · cases abort with
    | @intro k t l o telemetry ht _ hl broken =>
        intro u mem aborted
        obtain old | rfl := List.mem_or_eq_of_mem_set mem
        · exact ending.aborted u old aborted
        · exact ⟨l, o, hl, broken⟩

theorem begins (ending : Ending start deeds s) (deed : Deed) (token : CancelToken) :
    Ending start (deeds ++ [deed])
      { s with loops := s.loops ++ [{ token := token }], running := some s.loops.length } where
  receiver := ending.receiver
  locks l mem lock asks := by
    obtain old | new := List.mem_append.mp mem
    · exact ending.locks l old lock asks
    · obtain rfl := List.mem_singleton.mp new
      cases asks
  mine t mem := by
    rw [List.length_append]
    exact Nat.lt_add_right _ (ending.mine t mem)
  begun i l hl phase t mem := by
    obtain old | ⟨rfl, _⟩ := getElem?_concat_cases hl
    · exact ending.begun i l old phase t mem
    · exact Nat.ne_of_lt (ending.mine t mem)
  running i h := by
    obtain rfl := Option.some.inj h
    simp
  ended i l hl gone := by
    obtain old | ⟨_, rfl⟩ := getElem?_concat_cases hl
    · exact ending.ended i l old gone
    · cases gone
  gaveUp i l hl gone := by
    obtain old | ⟨_, rfl⟩ := getElem?_concat_cases hl
    · exact (ending.gaveUp i l old gone).more deed
    · obtain gone | gone := gone <;> cases gone
  broken i l o hl gone := by
    obtain old | ⟨_, rfl⟩ := getElem?_concat_cases hl
    · exact (ending.broken i l o old gone).imp_right (Hitched.more · deed)
    · cases gone
  aborted t mem aborted := by
    obtain ⟨l, o, hl, broken⟩ := ending.aborted t mem aborted
    exact ⟨l, o, getElem?_append_of_some hl _, broken⟩

end Ending

theorem happens_ending {start s s' : Duty} {deeds : List Deed} {deed : Deed}
    {h h' : List Occurrence} (ending : Ending start deeds s.station)
    (reached : start.run deeds = (s, h)) (happens : s.Happens deed s' h') :
    Ending start (deeds ++ [deed]) s'.station := by
  cases happens with
  | loop step after =>
      exact after.aborts.preserve (P := fun _ s' => Ending start _ s')
        (fun abort ending => ending.abort abort) (ending.loop reached step)
  | attempt ht going => exact ending.attempt ht going _
  | start none => exact ending.begins _ _
  | stop => exact ending.same _ rfl rfl rfl nofun
  | closeGate | queue | elsewhere | idle => exact ending.same _ rfl rfl rfl fun _ => id

theorem run_ending {start : Duty} (begun : Ending start [] start.station) (deeds : List Deed) :
    Ending start deeds (start.run deeds).1.station :=
  run_induction (P := fun deeds s _ => Ending start deeds s.station) begun
    (fun _ _ _ _ _ _ reached happens ending => happens_ending ending reached happens) deeds

/-- What a loop that broke off has left was aborted in the same step. -/
theorem happens_broken {s s' : Duty} {deed : Deed} {h' : List Occurrence}
    (happens : s.Happens deed s' h')
    (left : ∀ (i : Nat) (l : ReceiveLoop) o, s.station.loops[i]? = some l → l.phase = .broken o →
      s.station.unfinished i = 0) {i : Nat} {l : ReceiveLoop} {o : Overflow}
    (hl : s'.station.loops[i]? = some l) (broken : l.phase = .broken o) :
    s'.station.unfinished i = 0 := by
  cases happens with
  | @loop j m m' made a₁ a' s₁ s' step after =>
      have before : s₁.loops[i]? = some l := after.aborts.loops ▸ hl
      by_cases here : j = i
      · subst here
        exact after.emptied l o before broken
      · have there : s.station.loops[i]? = some l := by
          rwa [step.loops, List.getElem?_set_ne here] at before
        have none := left i l o there broken
        rw [← step.unfinished_other here] at none
        exact Nat.le_zero.mp (none ▸ after.aborts.unfinished_le i)
  | attempt ht going =>
      exact Nat.le_zero.mp (left i l o hl broken ▸ Station.unfinished_resumed ht going _ i)
  | start =>
      obtain old | ⟨_, rfl⟩ := getElem?_concat_cases hl
      · exact left i l o old broken
      · cases broken
  | stop | closeGate | queue | elsewhere | idle => exact left i l o hl broken

theorem run_broken {start : Duty} (begun : start.station.loops = []) (deeds : List Deed) {i : Nat}
    {l : ReceiveLoop} {o : Overflow} (hl : (start.run deeds).1.station.loops[i]? = some l)
    (broken : l.phase = .broken o) : (start.run deeds).1.station.unfinished i = 0 := by
  refine run_induction (P := fun _ s _ => ∀ (i : Nat) (l : ReceiveLoop) o,
    s.station.loops[i]? = some l → l.phase = .broken o → s.station.unfinished i = 0)
    (fun i l o hl => by simp [begun] at hl) ?_ deeds i l o hl broken
  intro _ _ _ _ _ _ _ happens left i l o
  exact happens_broken happens left

/-- How the loops of any run stand. One that receives no more gave up or broke off, and one with a
result, be it good or bad, has nothing in flight. -/
structure Ends (start : Duty) (deeds : List Deed) (s : Duty) : Prop where
  gaveUp : ∀ (i : Nat) (l : ReceiveLoop), s.station.loops[i]? = some l →
    l.phase = .draining ∨ l.phase = .ended → start.GaveUp deeds i
  broken : ∀ (i : Nat) (l : ReceiveLoop) o, s.station.loops[i]? = some l → l.phase = .broken o →
    start.station.receiver.settings.inFlightCapacity? = none ∨ start.Hitched deeds i
  finished : ∀ i result, s.station.loopResult? i = some result →
    ∀ t ∈ s.station.attempts, t.loop = i → t.isOver = true

theorem run_ends {start : Duty} (begun : Ending start [] start.station)
    (none : start.station.loops = []) (deeds : List Deed) :
    Ends start deeds (start.run deeds).1 := by
  have ending := run_ending begun deeds
  refine ⟨ending.gaveUp, fun i l o hl broken => ending.receiver ▸ ending.broken i l o hl broken, ?_⟩
  intro i result told t mem mine
  have within := ending.mine t mem
  rw [mine] at within
  have hl := List.getElem?_eq_getElem within
  refine Station.over_of_unfinished ?_ mem mine
  rw [Station.loopResult?, hl] at told
  simp only at told
  split at told
  · rename_i ended
    exact ending.ended i _ hl ended
  · rename_i broken
    exact run_broken none deeds hl broken
  · cases told

/-! ## Stopping twice -/

theorem happens_stopped {s s' : Duty} {deed : Deed} {h' : List Occurrence}
    (happens : s.Happens deed s' h') (other : ∀ parent, deed ≠ .start parent)
    (stopped : s.station.running = none) : s'.station.running = none := by
  cases happens with
  | loop step after =>
      refine after.aborts.preserve (P := fun _ s' => s'.running = none)
        (fun abort stopped => abort.running.trans stopped) ?_
      rw [step.frame]
      exact stopped
  | start => exact absurd rfl (other _)
  | stop => rfl
  | attempt | closeGate | queue | elsewhere | idle => exact stopped

/-- After a stop no loop counts as running until a receiver is started again. -/
theorem run_stopped {s : Duty} {deeds : List Deed} (other : ∀ parent, .start parent ∉ deeds)
    (stopped : s.station.running = none) : (s.run deeds).1.station.running = none := by
  induction deeds generalizing s with
  | nil => exact stopped
  | cons deed rest ih =>
      refine ih (fun parent mem => other parent (List.mem_cons_of_mem deed mem)) ?_
      refine happens_stopped (s.step_happens deed) (fun parent same => ?_) stopped
      exact other parent (same ▸ List.mem_cons_self)

theorem stop_stopped (s : Duty) : (s.step .stop).1.station.running = none := by
  simp only [step, Station.stop]
  split
  · assumption
  · split <;> rfl

/-- A stop that comes after another is done at once and waits for no loop. -/
theorem second_stop (s : Duty) {later : List Deed} (other : ∀ parent, .start parent ∉ later) :
    let s' := (s.run (.stop :: later)).1
    s'.step .stop = (s', []) ∧ (s'.station.stop s'.ambient).2.2 = none := by
  intro s'
  have none : s'.station.running = none :=
    run_stopped (s := (s.step .stop).1) other s.stop_stopped
  simp [step, Station.stop, none]

/-! ## Orderly runs -/

/-- What others take from the controller, or give back to it, in a deed. -/
def lent (s : Duty) : Deed → Int
  | .elsewhere a => a.controller.inFlight - s.ambient.controller.inFlight
  | _ => 0

/-- What others take from the controller in a run, less what they give back. -/
def lentBy (s : Duty) : List Deed → Int
  | [] => 0
  | deed :: rest => s.lent deed + (s.step deed).1.lentBy rest

theorem lentBy_concat (s : Duty) (deeds : List Deed) (deed : Deed) :
    s.lentBy (deeds ++ [deed]) = s.lentBy deeds + (s.run deeds).1.lent deed := by
  induction deeds generalizing s with
  | nil => simp [lentBy, run]
  | cons first rest ih => simp [lentBy, run, ih, Int.add_assoc]

theorem lentBy_own {s : Duty} {deeds : List Deed} {deed : Deed} (own : ∀ a, deed ≠ .elsewhere a) :
    s.lentBy (deeds ++ [deed]) = s.lentBy deeds := by
  rw [lentBy_concat]
  cases deed with
  | elsewhere a => exact absurd rfl (own a)
  | _ => exact Int.add_zero _

/-- Nothing untoward is done. A receiver is not started again before its loops are over, no receive
breaks off, and others leave the controller what attempts hold. -/
def Orderly (s : Duty) : Deed → Prop
  | .loop i => s.station.overflows s.ambient i = false
  | .start _ => s.station.running = none → ∀ l ∈ s.station.loops, l.isOver = true
  | .elsewhere a => s.station.underWay ≤ a.controller.inFlight
  | _ => True

instance (s : Duty) : (deed : Deed) → Decidable (s.Orderly deed)
  | .loop _ => inferInstanceAs (Decidable (_ = false))
  | .start _ => inferInstanceAs (Decidable (_ = none → ∀ l ∈ _, _ = true))
  | .elsewhere _ => inferInstanceAs (Decidable (_ ≤ _))
  | .attempt _ | .stop | .closeGate | .queue _ | .count | .reorder _ =>
    inferInstanceAs (Decidable True)

/-- What holds in orderly runs: no loop breaks off, only the last one may be at work, and the
attempts that have not ended hold the guards that others do not. -/
structure Ordered (start : Duty) (deeds : List Deed) (s : Duty) : Prop where
  receiver : s.station.receiver = start.station.receiver
  last : ∀ (i : Nat) (l : ReceiveLoop), s.station.loops[i]? = some l →
    i + 1 < s.station.loops.length → l.isOver = true
  whole : ∀ (i : Nat) (l : ReceiveLoop) o, s.station.loops[i]? = some l → l.phase ≠ .broken o
  held : s.station.underWay ≤ s.ambient.controller.inFlight
  guards : (s.ambient.controller.inFlight : Int) =
    start.ambient.controller.inFlight + start.lentBy deeds + s.station.underWay

namespace Ordered

variable {start s s' : Duty} {deeds : List Deed} {deed : Deed} {h h' : List Occurrence}

/-- What neither attempts nor loops nor the controller notice. -/
theorem same (ordered : Ordered start deeds s) (own : ∀ a, deed ≠ .elsewhere a)
    (receiver : s'.station.receiver = s.station.receiver)
    (attempts : s'.station.attempts = s.station.attempts)
    (loops : s'.station.loops = s.station.loops)
    (controller : s'.ambient.controller = s.ambient.controller) :
    Ordered start (deeds ++ [deed]) s' := by
  have underWay : s'.station.underWay = s.station.underWay := by
    rw [Station.underWay, Station.inFlightOf, attempts]
    rfl
  refine ⟨receiver.trans ordered.receiver, loops ▸ ordered.last, loops ▸ ordered.whole, ?_, ?_⟩
  · rw [underWay, controller]
    exact ordered.held
  · rw [underWay, controller, lentBy_own own]
    exact ordered.guards

theorem loop {a' : Ambient} {s'' : Station} {i : Nat} {l l' : ReceiveLoop} {made : List Attempt}
    (ordered : Ordered start deeds s)
    (fits : start.station.receiver.settings.inFlightCapacity? ≠ none)
    (sound : s.station.overflows s.ambient i = false)
    (step : s.station.LoopStep s.ambient a' s'' i l l' made) :
    Ordered start (deeds ++ [.loop i]) ⟨a', s''⟩ := by
  have inFlight : a'.controller.inFlight = s.ambient.controller.inFlight + made.length :=
    step.accepted.inFlight
  have underWay : s''.underWay = s.station.underWay + made.length := step.inFlightOf fun _ => true
  refine ⟨?receiver, ?last, ?whole, ?held, ?guards⟩
  case receiver =>
    rw [← ordered.receiver, step.frame]
  case last =>
    intro j m hm early
    rw [step.loops] at hm early
    rw [List.length_set] at early
    obtain ⟨rfl, rfl⟩ | ⟨_, hm⟩ := getElem?_set_cases step.was hm
    · have going := step.going
      rw [ordered.last j l step.was early] at going
      cases going
    · exact ordered.last j m hm early
  case whole =>
    intro j m o hm
    rw [step.loops] at hm
    obtain ⟨rfl, rfl⟩ | ⟨_, hm⟩ := getElem?_set_cases step.was hm
    · exact step.whole (ordered.receiver ▸ fits) sound o
    · exact ordered.whole j m o hm
  case held =>
    have held := ordered.held
    simp only [inFlight, underWay]
    omega
  case guards =>
    have guards := ordered.guards
    have lent : start.lentBy (deeds ++ [.loop i]) = start.lentBy deeds := lentBy_own nofun
    simp only [inFlight, underWay, lent]
    omega

theorem attempt {a' : Ambient} {k : Nat} {t : Attempt} (ordered : Ordered start deeds s)
    (ht : s.station.attempts[k]? = some t)
    (going : t.isOver = false) (premises : Premises)
    (inFlight : a'.controller.inFlight = s.ambient.controller.inFlight -
      (if (s.station.resumed s.ambient t).isOver then 1 else 0)) :
    Ordered start (deeds ++ [.attempt k])
      ⟨a', { s.station with
        premises := premises
        attempts := s.station.attempts.set k (s.station.resumed s.ambient t) }⟩ := by
  have underWay := Station.inFlightOf_resumed (a := s.ambient) ht going premises fun _ => true
  rw [Bool.true_and] at underWay
  have held := ordered.held
  have guards := ordered.guards
  have lent : start.lentBy (deeds ++ [.attempt k]) = start.lentBy deeds := lentBy_own nofun
  rw [Station.underWay, ← underWay] at held guards
  refine ⟨ordered.receiver, ordered.last, ordered.whole, ?_, ?_⟩
  · simp only [inFlight, Station.underWay]
    omega
  · simp only [inFlight, Station.underWay, lent]
    omega

theorem begun (ordered : Ordered start deeds s) {parent : CancelToken}
    (past : ∀ l ∈ s.station.loops, l.isOver = true) :
    Ordered start (deeds ++ [.start parent])
      ⟨(s.ambient.child parent).1, { s.station with
        loops := s.station.loops ++ [{ token := (s.ambient.child parent).2 }]
        running := some s.station.loops.length }⟩ where
  receiver := ordered.receiver
  last i l hl early := by
    obtain old | ⟨rfl, rfl⟩ := getElem?_concat_cases hl
    · exact past l (List.mem_of_getElem? old)
    · simp at early
  whole i l o hl := by
    obtain old | ⟨rfl, rfl⟩ := getElem?_concat_cases hl
    · exact ordered.whole i l o old
    · exact nofun
  held := ordered.held
  guards := by
    have lent : start.lentBy (deeds ++ [.start parent]) = start.lentBy deeds := lentBy_own nofun
    rw [lent]
    exact ordered.guards

theorem elsewhere (ordered : Ordered start deeds s) (reached : start.run deeds = (s, h))
    {a : Ambient} (left : s.station.underWay ≤ a.controller.inFlight) :
    Ordered start (deeds ++ [.elsewhere a])
      { s with ambient := { a with clock := s.ambient.clock.advanceTo a.clock.now } } where
  receiver := ordered.receiver
  last := ordered.last
  whole := ordered.whole
  held := left
  guards := by
    have guards := ordered.guards
    rw [lentBy_concat, reached]
    simp only [lent]
    omega

end Ordered

theorem happens_ordered {start s s' : Duty} {deeds : List Deed} {deed : Deed}
    {h h' : List Occurrence} (ordered : Ordered start deeds s)
    (reached : start.run deeds = (s, h))
    (fits : start.station.receiver.settings.inFlightCapacity? ≠ none) (orderly : s.Orderly deed)
    (happens : s.Happens deed s' h') : Ordered start (deeds ++ [deed]) s' := by
  cases happens with
  | loop step after =>
      have next := ordered.loop fits orderly step
      obtain ⟨rfl, rfl⟩ := after.still fun l o => next.whole _ l o
      exact next
  | attempt ht going _ _ inFlight => exact ordered.attempt ht going _ inFlight
  | start none => exact ordered.begun (orderly none)
  | stop _ controller => exact ordered.same nofun rfl rfl rfl controller
  | closeGate => exact ordered.same nofun rfl rfl rfl rfl
  | queue _ _ _ _ own => exact ordered.same own rfl rfl rfl rfl
  | elsewhere a => exact ordered.elsewhere reached orderly
  | idle own => exact ordered.same own rfl rfl rfl rfl

theorem run_ordered {start : Duty}
    (fits : start.station.receiver.settings.inFlightCapacity? ≠ none)
    (begun : Ordered start [] start) (deeds : List Deed)
    (orderly : start.Throughout Orderly deeds) : Ordered start deeds (start.run deeds).1 := by
  refine run_induction
    (P := fun deeds s _ => start.Throughout Orderly deeds → Ordered start deeds s)
    (fun _ => begun) ?_ deeds orderly
  intro deeds deed s h s' h' reached happens ordered orderly
  obtain ⟨before, here⟩ := throughout_concat.mp orderly
  rw [reached] at here
  exact happens_ordered (ordered before) reached fits here happens

/-! ## At rest -/

/-- Nothing is left of what the loops have begun: their attempts have ended, the gate has all of its
slots, and the controller counts only what others hold. -/
structure AtRest (start : Duty) (deeds : List Deed) (s : Duty) : Prop where
  attempts : ∀ t ∈ s.station.attempts, t.isOver = true
  free : s.station.gate.free = start.station.receiver.slots
  unused : s.station.gate.holding = [] ∧ s.station.gate.granted = [] ∧ s.station.gate.waiting = []
  guards : (s.ambient.controller.inFlight : Int) =
    start.ambient.controller.inFlight + start.lentBy deeds

/-- How loops end in an orderly run: for a reason, with a result, and leaving nothing. Who stops a
receiver waits for its last loop. -/
structure Closes (start : Duty) (deeds : List Deed) (s : Duty) : Prop where
  gaveUp : ∀ (i : Nat) (l : ReceiveLoop), s.station.loops[i]? = some l →
    l.phase = .draining ∨ l.isOver = true → start.GaveUp deeds i
  result : ∀ i cause, s.station.loopResult? i ≠ some (.error cause)
  awaited : ∀ i, (s.station.stop s.ambient).2.2 = some i → i + 1 = s.station.loops.length
  rest : ∀ i, i + 1 = s.station.loops.length → s.station.loopResult? i = some (.ok ()) →
    AtRest start deeds s

/-- A loop with a result has ended. -/
theorem ended_of_loopResult {s : Station} {i : Nat} {l : ReceiveLoop} (hl : s.loops[i]? = some l)
    (result : s.loopResult? i = some (.ok ())) : l.phase = .ended := by
  rw [Station.loopResult?, hl] at result
  simp only at result
  split at result
  · assumption
  · simp at result
  · simp at result

theorem Ordered.phase_of_over {start s : Duty} {deeds : List Deed} (ordered : Ordered start deeds s)
    {i : Nat} {l : ReceiveLoop} (hl : s.station.loops[i]? = some l) (past : l.isOver = true) :
    l.phase = .ended := by
  have whole := fun o => ordered.whole i l o hl
  unfold ReceiveLoop.isOver at past
  split at past
  · assumption
  · rename_i o broken
    exact absurd broken (whole o)
  · simp at past

theorem Ordered.closes {start s : Duty} {deeds : List Deed} {h : List Occurrence}
    (ordered : Ordered start deeds s) (ending : Ending start deeds s.station)
    (seating : Seating start.station s.station h)
    (stages : ∀ stage ∈ start.station.own, stage.Polite) (polite : start.station.processor.Polite) :
    Closes start deeds s := by
  refine ⟨?gaveUp, ?result, ?awaited, ?rest⟩
  case gaveUp =>
    intro i l hl done
    exact ending.gaveUp i l hl (done.imp id (ordered.phase_of_over hl))
  case result =>
    intro i cause failed
    unfold Station.loopResult? at failed
    split at failed
    · simp at failed
    · rename_i l hl
      split at failed
      · simp at failed
      · rename_i o broken
        exact ordered.whole i l o hl broken
      · simp at failed
  case awaited =>
    intro i stopped
    unfold Station.stop at stopped
    cases running : s.station.running with
    | none => simp [running] at stopped
    | some j =>
        simp only [running] at stopped
        split at stopped
        · obtain rfl := Option.some.inj stopped
          exact ending.running j running
        · simp at stopped
  case rest =>
    intro i last result
    have past : ∀ t ∈ s.station.attempts, t.isOver = true := by
      intro t mem
      have within := ending.mine t mem
      have hl := List.getElem?_eq_getElem within
      have ended : s.station.loops[t.loop].phase = .ended := by
        by_cases here : t.loop = i
        · exact ended_of_loopResult hl (here ▸ result)
        · exact ordered.phase_of_over hl (ordered.last t.loop _ hl (by omega))
      exact Station.over_of_unfinished (ending.ended t.loop _ hl ended) mem rfl
    have outside : ∀ pl ∈ s.station.places h, pl = .outside := by
      intro pl mem
      obtain ⟨k, bound, rfl⟩ := List.mem_map.mp mem
      have ht := List.getElem?_eq_getElem (List.mem_range.mp bound)
      exact seating.outside_of_over stages polite ht (past _ (List.mem_of_getElem? ht))
    obtain ⟨free, unused⟩ := seating.seats.all_free outside
    have none : s.station.underWay = 0 :=
      Station.inFlightOf_eq_zero.mpr fun t mem _ => past t mem
    have guards := ordered.guards
    rw [none] at guards
    exact ⟨past, free, unused, by omega⟩

/-! ## Receivers whose capacity does not fit -/

/-- The loops of a receiver whose capacity does not fit a word have not begun, or broke off. -/
def Misfit (start s : Station) : Prop :=
  s.receiver = start.receiver ∧
    ∀ (i : Nat) (l : ReceiveLoop), s.loops[i]? = some l →
      l.phase = .begun ∨ l.phase = .broken .count

theorem happens_misfit {start s s' : Duty} {deed : Deed} {h' : List Occurrence}
    (none : start.station.receiver.settings.inFlightCapacity? = none)
    (misfit : Misfit start.station s.station) (happens : s.Happens deed s' h') :
    Misfit start.station s'.station := by
  obtain ⟨receiver, phases⟩ := misfit
  cases happens with
  | loop step after =>
      refine after.aborts.preserve (P := fun _ s' => Misfit start.station s')
        (fun abort ⟨receiver, phases⟩ => ⟨abort.receiver.trans receiver, abort.loops ▸ phases⟩)
        ⟨by rw [← receiver, step.frame], fun j m hm => ?_⟩
      rw [step.loops] at hm
      obtain ⟨rfl, rfl⟩ | ⟨_, hm⟩ := getElem?_set_cases step.was hm
      · exact .inr (step.breaksOff (receiver ▸ none) (phases j _ step.was))
      · exact phases j m hm
  | start _ =>
      refine ⟨receiver, fun j m hm => ?_⟩
      obtain old | ⟨_, rfl⟩ := getElem?_concat_cases hm
      · exact phases j m old
      · exact .inl rfl
  | attempt | stop | closeGate | queue | elsewhere | idle => exact ⟨receiver, phases⟩

theorem run_misfit {start : Duty}
    (none : start.station.receiver.settings.inFlightCapacity? = none)
    (begun : Misfit start.station start.station) (deeds : List Deed) :
    Misfit start.station (start.run deeds).1.station :=
  run_induction (P := fun _ s _ => Misfit start.station s.station) begun
    (fun _ _ _ _ _ _ _ happens misfit => happens_misfit none misfit happens) deeds

/-! ## Closing -/

section

variable (a : Ambient) (r : Receiver) (format : Format) (schema : Schema) (queue : String)
  (style : TokenStyle) (registry : Registry) (messageType : String) (own : List Stage)
  (p : Processor)

theorem begin_ending :
    let start := (begin a r format schema queue style registry messageType p).equip own
    Ending start [] start.station := by
  constructor <;> simp [equip, begin, Station.ofReceiver, Station.Locks]

theorem begin_ordered :
    let start := (begin a r format schema queue style registry messageType p).equip own
    Ordered start [] start := by
  constructor <;> simp [equip, begin, Station.ofReceiver, lentBy, Station.underWay,
    Station.inFlightOf]

theorem begin_misfit :
    let start := (begin a r format schema queue style registry messageType p).equip own
    Misfit start.station start.station :=
  ⟨rfl, fun i l hl => by simp [equip, begin, Station.ofReceiver] at hl⟩

/-- Whatever is received is handled once or rejected once, at once. Loops give up or break off for a
reason, and those with a result have nothing in flight. In an orderly run none breaks off, and the
last one leaves nothing. But a receiver whose capacity does not fit a word breaks off whenever it is
started, and who stops a receiver that was stopped before does not wait for its loop. -/
theorem loops_close (stages : ∀ stage ∈ own, stage.Polite) (polite : p.Polite)
    (deeds : List Deed) :
    let start := (begin a r format schema queue style registry messageType p).equip own
    let s := (start.run deeds).1
    HandledOnce start.station s.station (start.run deeds).2 ∧
      Ends start deeds s ∧
      (r.settings.inFlightCapacity? ≠ none → start.Throughout Orderly deeds →
        Closes start deeds s) ∧
      (r.settings.inFlightCapacity? = none → ∀ (i : Nat) (l : ReceiveLoop),
        s.station.loops[i]? = some l → l.phase = .begun ∨ l.phase = .broken .count) ∧
      ∀ later, (∀ parent, .start parent ∉ later) →
        let s' := (s.run (.stop :: later)).1
        s'.step .stop = (s', []) ∧ (s'.station.stop s'.ambient).2.2 = none := by
  intro start s
  have seating : Seating start.station s.station (start.run deeds).2 :=
    run_seating a r format schema queue style registry messageType own p stages polite deeds
  have begun : Ending start [] start.station :=
    begin_ending a r format schema queue style registry messageType own p
  refine ⟨seating.custody.handledOnce, run_ends begun rfl deeds, fun fits orderly => ?_,
    fun misfit => ?_, fun later other => s.second_stop other⟩
  · have ordered : Ordered start deeds s := run_ordered fits
      (begin_ordered a r format schema queue style registry messageType own p) deeds orderly
    exact ordered.closes (run_ending begun deeds) seating stages polite
  · exact (run_misfit misfit (begin_misfit a r format schema queue style registry messageType own p)
      deeds).2

end

/-- A processor of which any number may run. -/
def clerk : Registry := ({} : Registry).register "order" ⟨"clerk", false, .succeeds⟩

/-- A receiver with some settings on an empty queue. -/
def desk (settings : Settings) : Duty :=
  (begin {} ⟨"orders", "clerk", false, settings, {}⟩ .json .value "orders" .numbered clerk "order"
    fun _ => .done .passed).equip []

/-- One message is handled and one, labelled wrong, is not; then the receiver is stopped. -/
def deskDeeds : List Deed :=
  [.start ⟨[]⟩, .queue (.send { body := Utf8.encode "1" }),
    .queue (.send { body := Utf8.encode "2", contentType := some "text/plain" }), .loop 0, .loop 0,
    .stop, .loop 0, .attempt 0, .loop 0]

theorem loops_close_desk :
    let s := (desk {}).run deskDeeds
    s.1.station.loops.map (·.phase) = [.ended] ∧ s.1.station.attempts.length = 1 ∧
      (directs s.2).length = 1 ∧ HandledOnce (desk {}).station s.1.station s.2 ∧
      Closes (desk {}) deskDeeds s.1 := by
  have fits : ({} : Settings).inFlightCapacity? ≠ none := by decide +kernel
  have orderly : (desk {}).Throughout Orderly deskDeeds := by decide +kernel
  refine ⟨by decide +kernel, by decide +kernel, by decide +kernel, ?_⟩
  unfold desk at orderly ⊢
  obtain ⟨handled, _, closes, _⟩ := loops_close {} ⟨"orders", "clerk", false, {}, {}⟩ .json .value
    "orders" .numbered clerk "order" [] (fun _ => .done .passed) nofun (fun _ => trivial) deskDeeds
  exact ⟨handled, closes fits orderly⟩

/-- The second of two stops is done at once while an attempt is still to end. -/
example :
    let s := ((desk {}).run (deskDeeds.take 6)).1
    s.station.unfinished 0 = 1 ∧ s.station.stop s.ambient = (s.ambient, s.station, none) := by
  constructor
  · decide +kernel
  · rfl

/-- Settings with which a receiver can be built, but whose capacity does not fit a word. -/
def hungry : Settings := { maxConcurrentCalls := 1, prefetchCount := 18446744073709551615 }

/-- Such a receiver breaks off at its first step, although nobody has cancelled its loop and its
queue is open. -/
theorem desk_breaks_off :
    Receiver.build "orders" "order" (some clerk) hungry {} =
        .ok ⟨"orders", "clerk", false, hungry, {}⟩ ∧
      (desk hungry).Throughout Orderly [.start ⟨[]⟩, .loop 0] ∧
      ((desk hungry).run [.start ⟨[]⟩, .loop 0]).1.station.loops.map (·.phase) =
        [.broken .count] ∧
      ¬(desk hungry).GaveUp [.start ⟨[]⟩, .loop 0] 0 := by
  have found : clerk.find? "order" = some ⟨"clerk", false, .succeeds⟩ := by decide +kernel
  refine ⟨?built, by decide +kernel, by decide +kernel, ?gaveUp⟩
  case built =>
    simp only [Receiver.build, found]
    rfl
  case gaveUp =>
    rintro ⟨before, after, split, farewell⟩
    obtain rfl : before = [.start ⟨[]⟩] := by
      cases before with
      | nil => simp at split
      | cons first rest =>
          cases rest <;> simp_all
    cases farewell with
    | cancelled was cancelled =>
        have still : ((desk hungry).run [.start ⟨[]⟩]).1.station.loops.all (fun l =>
            !((desk hungry).run [.start ⟨[]⟩]).1.ambient.isCancelled l.token) = true := by
          decide +kernel
        have here := List.all_eq_true.mp still _ (List.mem_of_getElem? was)
        simp [cancelled] at here
    | closed look =>
        have none : ((desk hungry).run [.start ⟨[]⟩]).1.station.look?
            ((desk hungry).run [.start ⟨[]⟩]).1.ambient 0 = none := by decide +kernel
        rw [none] at look
        cases look

end Duty

end Courier
