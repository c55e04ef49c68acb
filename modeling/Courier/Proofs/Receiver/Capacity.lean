import Courier.Proofs.Receiver.Closing
import Courier.Proofs.Receiver.Pressure

/-!
# The capacity of a receiver that was built

A receiver is built from settings that were validated, and its loops compute from the settings in
effect how many attempts may be in flight. Validation looks at each setting alone: there is at least
one call at once, but no bound on the sum. So the capacity is the sum of the counts and at least
one, provided that the sum fits a word, and validation does not see to that. A processor of which
only one may run is always given a capacity of one.

Where the sum fits, no loop breaks off on account of it, and no loop waits for an attempt to end
while none of its attempts is in flight (`Roomy`). Where it does not fit, every loop breaks off in
its first step, and nothing is ever received.
-/

namespace Courier

namespace Settings

theorem inFlightCapacity?_ne_none (s : Settings) : s.inFlightCapacity? ≠ none ↔
    s.maxConcurrentCalls.toNat + s.prefetchCount.toNat < UInt64.size := by
  simp only [inFlightCapacity?, Nat.pow_eq]
  split
  case isTrue fits => exact ⟨fun _ => fits, fun _ => Option.some_ne_none _⟩
  case isFalse big => exact ⟨fun some => absurd rfl some, fun fits => absurd fits big⟩

theorem capacity_eq {s : Settings}
    (fits : s.maxConcurrentCalls.toNat + s.prefetchCount.toNat < UInt64.size) :
    (s.inFlightCapacity?.getD 0).toNat = s.maxConcurrentCalls.toNat + s.prefetchCount.toNat := by
  have small : s.maxConcurrentCalls.toNat + s.prefetchCount.toNat < Nat.pow 2 64 := fits
  rw [inFlightCapacity?, if_pos small, Option.getD_some, UInt64.toNat_ofNat', Nat.mod_eq_of_lt fits]

theorem calls_of_validate {s : Settings} (valid : s.validate = .ok ()) :
    0 < s.maxConcurrentCalls.toNat := by
  unfold validate at valid
  split at valid
  case isTrue => cases valid
  case isFalse some =>
    refine Nat.pos_of_ne_zero fun zero => some ?_
    exact UInt64.toNat_inj.mp zero

end Settings

/-- Settings that a receiver can be built with, and what is made of them for a processor of which
only one may run. -/
theorem Receiver.build_settings {name messageType : String} {registry : Option Registry}
    {settings : Settings} {config : ReceiverConfig} {r : Receiver}
    (built : Receiver.build name messageType registry settings config = .ok r) :
    settings.validate = .ok () ∧
      r.settings = if r.singleton then settings.forSingleton else settings := by
  unfold build at built
  split at built
  · cases built
  · split at built
    · cases built
    · split at built
      · cases built
      · rename_i valid
        split at built
        · cases built
        · obtain rfl := Except.ok.inj built
          exact ⟨valid, rfl⟩

namespace Station

variable {s : Station} {a : Ambient} {i : Nat} {l : ReceiveLoop}

theorem stepLoop_begun (here : s.loops[i]? = some l) (begun : l.phase = .begun)
    (fits : s.receiver.settings.inFlightCapacity? ≠ none) :
    ∃ a' s', s.stepLoop a i = some (a', s') ∧ s'.loops[i]? = some { l with phase := .ready } := by
  obtain ⟨capacity, some⟩ := Option.ne_none_iff_exists'.mp fits
  have within := (List.getElem?_eq_some_iff.mp here).1
  simp only [stepLoop, here, begun, some]
  exact ⟨_, _, rfl, List.getElem?_set_self within⟩

/-- A loop waits for room only while as many of its attempts as may be are in flight. -/
theorem full_of_waiting (here : s.loops[i]? = some l) (full : l.phase = .full)
    (waits : s.stepLoop a i = none) : s.capacity ≤ s.unfinished i := by
  simp only [stepLoop, here, full] at waits
  split at waits
  · cases waits
  · split at waits
    · cases waits
    · rename_i none
      exact Nat.le_of_not_lt none

end Station

namespace Duty

/-- A capacity that loops can use: it is the sum of the counts, a loop that begins goes on to
receive, one that breaks off does so where a receive does, and none waits for room without an
attempt in flight. -/
structure Roomy (start : Duty) (deeds : List Deed) (s : Duty) : Prop where
  capacity : s.station.capacity = start.station.receiver.settings.maxConcurrentCalls.toNat +
    start.station.receiver.settings.prefetchCount.toNat
  positive : 0 < s.station.capacity
  within : ∀ i, s.station.unfinished i ≤ s.station.capacity
  begins : ∀ (i : Nat) (l : ReceiveLoop), s.station.loops[i]? = some l → l.phase = .begun →
    ∃ a' s', s.station.stepLoop s.ambient i = some (a', s') ∧
      s'.loops[i]? = some { l with phase := .ready }
  broken : ∀ (i : Nat) (l : ReceiveLoop) o, s.station.loops[i]? = some l → l.phase = .broken o →
    start.Hitched deeds i
  waits : ∀ (i : Nat) (l : ReceiveLoop), s.station.loops[i]? = some l → l.phase = .full →
    s.station.stepLoop s.ambient i = none → 0 < s.station.unfinished i

theorem Ending.roomy {start s : Duty} {deeds : List Deed} (ending : Ending start deeds s.station)
    (room : Room s.station)
    (sum : start.station.receiver.settings.maxConcurrentCalls.toNat +
      start.station.receiver.settings.prefetchCount.toNat < UInt64.size)
    (calls : 0 < start.station.receiver.settings.maxConcurrentCalls.toNat) :
    Roomy start deeds s := by
  have capacity : s.station.capacity = start.station.receiver.settings.maxConcurrentCalls.toNat +
      start.station.receiver.settings.prefetchCount.toNat := by
    rw [Station.capacity, ending.receiver]
    exact Settings.capacity_eq sum
  have fits : s.station.receiver.settings.inFlightCapacity? ≠ none := by
    rw [ending.receiver]
    exact (Settings.inFlightCapacity?_ne_none _).mpr sum
  have positive : 0 < s.station.capacity := by omega
  refine ⟨capacity, positive, room.within, ?begins, fun i l o here broken => ?broken, ?waits⟩
  case begins =>
    intro i l here begun
    exact Station.stepLoop_begun here begun fits
  case broken => exact (ending.broken i l o here broken).resolve_left fits
  case waits =>
    intro i l here full waits
    exact Nat.lt_of_lt_of_le positive (Station.full_of_waiting here full waits)

section

variable {name messageType : String} {registry : Registry} {settings : Settings}
  {config : ReceiverConfig} {r : Receiver}

/-- The settings of a receiver that was built allow at least one call at once, and one in all if
only one may run. If the counts together fit a word they are the capacity of its loops, which they
can use in every run; otherwise no loop ever gets beyond its first step. -/
theorem built_capacity
    (built : Receiver.build name messageType (some registry) settings config = .ok r) (a : Ambient)
    (format : Format) (schema : Schema) (queue : String) (style : TokenStyle) (own : List Stage)
    (p : Processor) (deeds : List Deed) :
    let sum := r.settings.maxConcurrentCalls.toNat + r.settings.prefetchCount.toNat
    let start := (begin a r format schema queue style registry messageType p).equip own
    let s := (start.run deeds).1
    r.settings = (if r.singleton then settings.forSingleton else settings) ∧
      (0 < r.settings.maxConcurrentCalls.toNat ∧ (r.singleton = true → sum = 1)) ∧
      (sum < UInt64.size → Roomy start deeds s) ∧
      (UInt64.size ≤ sum → ∀ (i : Nat) (l : ReceiveLoop), s.station.loops[i]? = some l →
        l.phase = .begun ∨ l.phase = .broken .count) := by
  intro sum start s
  obtain ⟨valid, effective⟩ := Receiver.build_settings built
  have calls : 0 < r.settings.maxConcurrentCalls.toNat := by
    rw [effective]
    split
    · exact Nat.one_pos
    · exact Settings.calls_of_validate valid
  refine ⟨effective, ⟨calls, ?single⟩, ?fits, ?misfit⟩
  case single =>
    intro single
    rw [if_pos single] at effective
    simp [sum, effective]
  case fits =>
    intro fits
    have ending : Ending start deeds s.station := run_ending
      (begin_ending a r format schema queue style registry messageType own p) deeds
    have pressed := begin_pressed a r format schema queue style registry messageType own p
    exact ending.roomy (run_room pressed.room deeds) fits calls
  case misfit =>
    intro big
    have none : r.settings.inFlightCapacity? = none := by
      by_contra some
      exact absurd ((Settings.inFlightCapacity?_ne_none _).mp some) (Nat.not_lt.mpr big)
    exact (run_misfit none
      (begin_misfit a r format schema queue style registry messageType own p) deeds).2

end

/-- Two messages for one call at a time: the loop waits while it handles the first. -/
def busyDeeds : List Deed :=
  [.start ⟨[]⟩, .queue (.send { body := Utf8.encode "1" }),
    .queue (.send { body := Utf8.encode "2" }), .loop 0, .loop 0, .loop 0]

/-- Settings for one call at a time. -/
def modest : Settings := { maxConcurrentCalls := 1 }

theorem built_clerk (settings : Settings) (valid : settings.validate = .ok ()) :
    Receiver.build "orders" "order" (some clerk) settings {} =
      .ok ⟨"orders", "clerk", false, settings, {}⟩ := by
  have found : clerk.find? "order" = some ⟨"clerk", false, .succeeds⟩ := by decide +kernel
  simp only [Receiver.build, found, valid]
  rfl

theorem built_capacity_modest :
    let s := ((desk modest).run busyDeeds).1
    s.station.loops.map (·.phase) = [.full] ∧ s.station.unfinished 0 = 1 ∧
      Roomy (desk modest) busyDeeds s := by
  refine ⟨by decide +kernel, by decide +kernel, ?_⟩
  obtain ⟨_, _, fits, _⟩ := built_capacity (built_clerk modest rfl) {} .json .value "orders"
    .numbered [] (fun _ => .done .passed) busyDeeds
  exact fits (by decide)

/-- Settings that are validated, and whose sum is the first that does not fit. -/
def greedy : Settings := { maxConcurrentCalls := 2, prefetchCount := 18446744073709551614 }

/-- A receiver can be built with them. It is started with a message in its queue, and its loop
breaks off, although no receive does. -/
theorem greedy_breaks_off :
    Receiver.build "orders" "order" (some clerk) greedy {} =
        .ok ⟨"orders", "clerk", false, greedy, {}⟩ ∧
      greedy.maxConcurrentCalls.toNat + greedy.prefetchCount.toNat = UInt64.size ∧
      ((desk greedy).run busyDeeds).1.station.loops.map (·.phase) = [.broken .count] ∧
      ((desk greedy).run busyDeeds).1.station.attempts.length = 0 ∧
      (desk greedy).Throughout Orderly busyDeeds := by
  refine ⟨built_clerk greedy rfl, by decide, by decide +kernel, by decide +kernel, ?_⟩
  decide +kernel

/-- The capacity fits, but the lock of the first of two messages does not end in time. -/
example :
    let patient : Settings := { modest with lockTimeout := .ofNanoseconds Duration.limit }
    let s := ((desk patient).run busyDeeds).1.station
    s.loops.map (·.phase) = [.broken .instant] ∧
      s.premises.queue.places.map (·.1) = ["orders-2"] := by
  decide +kernel

end Duty

end Courier
