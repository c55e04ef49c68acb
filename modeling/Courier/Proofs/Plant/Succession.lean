import Courier.Proofs.Plant.Works

/-!
# One loop after the other

A part refuses to start as long as a loop was started and not stopped. Whoever stops a part takes
that loop away from it at once, and then waits for the loop to end; so a start is not refused while
a stop is in progress, and then two loops of one part are live.

Of the live loops of a part only the one that was started last can be one that nobody has told to
end (`Roster.Sound`). And there is never more than one of them at all (`Works.OneByOne`) if and only
if no start succeeds while a stop of the part is in progress (`Works.InTurn`).
-/

namespace Courier

namespace Roster

/-- The number of loops that have not ended. -/
def live (r : Roster) : Nat := r.stints.countP (!·.ended)

/-- Whether a stop is in progress: no loop is to run, and one has not ended yet. -/
def isStopping (r : Roster) : Bool := r.running.isNone && r.stints.any (!·.ended)

/-- What is so of every roster: the loop that is to run is the last one, and all others that have
not ended are cancelled. -/
structure Sound (cs : Cancellations) (r : Roster) : Prop where
  real : ∀ s ∈ r.stints, s.token.lineage ≠ []
  last : ∀ k, r.running = some k → k + 1 = r.stints.length
  told : ∀ (k : Nat) (s : Stint), r.stints[k]? = some s → s.ended = false →
    r.running = some k ∨ cs.isCancelled s.token = true

variable {cs cs' : Cancellations} {r r' : Roster}

theorem Sound.empty (cs : Cancellations) : Sound cs {} := ⟨nofun, nofun, nofun⟩

/-- Rosters stay sound. -/
theorem Sound.change (sound : Sound cs r) (more : cs.fired ⊆ cs'.fired)
    (change : Change cs' r r') : Sound cs' r' := by
  have told (k : Nat) (s : Stint) (there : r.stints[k]? = some s) (live : s.ended = false) :
      r.running = some k ∨ cs'.isCancelled s.token = true :=
    (sound.told k s there live).imp_right (Cancellations.isCancelled_mono more)
  cases change with
  | same => exact ⟨sound.real, sound.last, told⟩
  | @ended k s here =>
      refine ⟨?_, ?_, ?_⟩
      · intro t mem
        obtain old | rfl := List.mem_or_eq_of_mem_set mem
        · exact sound.real t old
        · exact sound.real s (List.mem_of_getElem? here)
      · intro j running
        rw [List.length_set]
        exact sound.last j running
      · intro j t there live
        obtain ⟨rfl, rfl⟩ | ⟨_, old⟩ := getElem?_set_cases here there
        · cases live
        · exact told j t old live
  | @begun token idle real =>
      refine ⟨?_, ?_, ?_⟩
      · intro t mem
        obtain old | new := List.mem_append.mp mem
        · exact sound.real t old
        · rw [List.mem_singleton.mp new]
          exact real
      · intro k running
        obtain rfl := Option.some.inj running
        simp
      · intro k t there live
        obtain old | ⟨rfl, _⟩ := getElem?_concat_cases there
        · obtain running | cancelled := told k t old live
          · simp [idle] at running
          · exact .inr cancelled
        · exact .inl rfl
  | stopped fired =>
      refine ⟨sound.real, nofun, ?_⟩
      intro k t there live
      obtain running | cancelled := told k t there live
      · exact .inr (fired k t running there (sound.real t (List.mem_of_getElem? there)))
      · exact .inr cancelled

/-- Two loops that have not ended and were not told to are the same one. -/
theorem Sound.unique (sound : Sound cs r) {j k : Nat} {s t : Stint} (first : r.stints[j]? = some s)
    (second : r.stints[k]? = some t) (live : s.ended = false ∧ t.ended = false)
    (untold : cs.isCancelled s.token = false ∧ cs.isCancelled t.token = false) : j = k := by
  have at_j := (sound.told j s first live.1).resolve_right (by simp [untold.1])
  have at_k := (sound.told k t second live.2).resolve_right (by simp [untold.2])
  exact Option.some.inj (at_j.symm.trans at_k)

/-! ## At most one live loop -/

/-- Only the last loop may not have ended. -/
def Alone (r : Roster) : Prop :=
  ∀ (k : Nat) (s : Stint), r.stints[k]? = some s → s.ended = false → k + 1 = r.stints.length

theorem live_concat (running : Option Nat) (stints : List Stint) (s : Stint) :
    live ⟨running, stints ++ [s]⟩ = live ⟨running, stints⟩ + if s.ended then 0 else 1 := by
  simp only [live, List.countP_append, List.countP_singleton]
  cases s.ended <;> rfl

theorem Alone.live_le (alone : Alone r) : r.live ≤ 1 := by
  obtain ⟨running, stints⟩ := r
  cases stints using List.reverseRecOn with
  | nil => exact Nat.zero_le 1
  | append_singleton stints s =>
      have rest : live ⟨running, stints⟩ = 0 := by
        refine List.countP_eq_zero.mpr fun t mem => ?_
        obtain ⟨k, there⟩ := List.mem_iff_getElem?.mp mem
        intro going
        have last : k + 1 = (stints ++ [s]).length :=
          alone k t (getElem?_append_of_some there [s]) (by simpa using going)
        have within : k < stints.length := (List.getElem?_eq_some_iff.mp there).1
        rw [List.length_append, List.length_singleton] at last
        omega
      rw [live_concat, rest]
      split <;> omega

/-- A loop that begins when none is live leaves the part with one. -/
theorem Alone.change (alone : Alone r)
    (inTurn : r.stints.length < r'.stints.length → r.isStopping = false)
    (change : Change cs r r') : Alone r' := by
  cases change with
  | same => exact alone
  | stopped => exact alone
  | @ended k s here =>
      intro j t there going
      obtain ⟨rfl, rfl⟩ | ⟨_, old⟩ := getElem?_set_cases here there
      · cases going
      · rw [List.length_set]
        exact alone j t old going
  | begun idle =>
      have ended : r.isStopping = false := inTurn (by simp)
      intro j t there going
      obtain old | ⟨rfl, _⟩ := getElem?_concat_cases there
      · have stopping : r.isStopping = true := by
          simp only [isStopping, idle, Option.isNone_none, Bool.true_and, List.any_eq_true]
          exact ⟨t, List.mem_of_getElem? old, by simp [going]⟩
        rw [ended] at stopping
        cases stopping
      · simp

/-- A loop that begins while another one is live makes two of them. -/
theorem Change.overlaps (change : Change cs r r') (more : r.stints.length < r'.stints.length)
    (stopping : r.isStopping = true) : 2 ≤ r'.live := by
  cases change with
  | same | stopped => exact absurd more (Nat.lt_irrefl _)
  | ended => simp at more
  | begun idle =>
      have some' : 0 < r.stints.countP (!·.ended) := by
        rw [List.countP_pos_iff]
        simp only [isStopping, Bool.and_eq_true, List.any_eq_true] at stopping
        exact stopping.2
      rw [live_concat]
      simp only [live, Bool.false_eq_true, if_false]
      omega

end Roster

/-! ## Calls -/

theorem Station.loopResult?_isSome (s : Station) (k : Nat) : (s.loopResult? k).isSome = true ↔
    ∀ t, s.roster.stints[k]? = some t → t.ended = true := by
  simp only [Station.loopResult?, Station.roster, List.getElem?_map]
  cases s.loops[k]? with
  | none => simp
  | some l => cases phase : l.phase <;> simp [ReceiveLoop.stint, ReceiveLoop.isOver, phase]

namespace Plant

/-- Whether a part is there that works in loops. -/
def works (p : Plant) : Part → Bool
  | .double _ => false
  | .station i => (p.stations[i]?).isSome
  | .coordinator i => (p.coordinators[i]?).isSome

variable {p : Plant} {part : Part}

/-- A part is not started while a loop of it was started and not stopped. -/
theorem beginStart_refused (there : p.works part = true) (running : (p.roster part).running ≠ none)
    (token : CancelToken) :
    ∃ cause, p.beginStart part token = (p, .answered (.error cause)) := by
  cases part with
  | double i => cases there
  | station i =>
      obtain ⟨s, found⟩ := Option.isSome_iff_exists.mp there
      rw [roster_station found] at running
      obtain ⟨_, cause, refused⟩ | ⟨idle, _⟩ := s.start_cases p.ambient token
      · exact ⟨cause, by simp only [beginStart, found, refused]⟩
      · exact absurd idle running
  | coordinator i =>
      obtain ⟨c, found⟩ := Option.isSome_iff_exists.mp there
      rw [roster_coordinator found] at running
      obtain ⟨_, cause, refused⟩ | ⟨idle, _⟩ := c.start_cases p.ambient token
      · exact ⟨cause, by simp only [beginStart, found, refused]⟩
      · exact absurd idle running

/-- Otherwise it is started at once, whether or not earlier loops have ended. -/
theorem beginStart_accepted (there : p.works part = true) (idle : (p.roster part).running = none)
    (token : CancelToken) : (p.beginStart part token).2 = .answered (.ok ()) ∧
      ((p.beginStart part token).1.roster part).live = (p.roster part).live + 1 := by
  cases part with
  | double i => cases there
  | station i =>
      obtain ⟨s, found⟩ := Option.isSome_iff_exists.mp there
      rw [roster_station found] at idle ⊢
      obtain ⟨busy, _⟩ | ⟨_, _, _, _, started, _, _, _, roster⟩ := s.start_cases p.ambient token
      · exact absurd idle busy
      · simp only [beginStart, found, started, true_and]
        rw [roster_setStation found, if_pos rfl, roster]
        exact Roster.live_concat _ s.roster.stints _
  | coordinator i =>
      obtain ⟨c, found⟩ := Option.isSome_iff_exists.mp there
      rw [roster_coordinator found] at idle ⊢
      obtain ⟨busy, _⟩ | ⟨_, _, _, _, started, _, _, _, roster⟩ := c.start_cases p.ambient token
      · exact absurd idle busy
      · simp only [beginStart, found, started, true_and]
        rw [roster_setCoordinator found, if_pos rfl, roster]
        exact Roster.live_concat _ c.roster.stints _

theorem poll_loop_isSome (p : Plant) (i k : Nat) : (p.poll (.loop i k)).isSome = true ↔
    ∀ t, (p.roster (.station i)).stints[k]? = some t → t.ended = true := by
  simp only [poll]
  cases found : p.stations[i]? with
  | none => simp [roster, found]
  | some s =>
      rw [roster_station found, ← Station.loopResult?_isSome]
      simp

theorem poll_run_isSome (p : Plant) (i k : Nat) : (p.poll (.run i k)).isSome = true ↔
    ∀ t, (p.roster (.coordinator i)).stints[k]? = some t → t.ended = true := by
  simp only [poll]
  cases found : p.coordinators[i]? with
  | none => simp [roster, found]
  | some c =>
      rw [roster_coordinator found, Coordinator.roster, List.getElem?_map]
      cases run : c.runs[k]? with
      | none => simp [run]
      | some r =>
          cases broken : r.overflow? with
          | some o => simp [run, Run.stint, Run.isOver, broken]
          | none => cases ended : r.isOver <;> simp [run, Run.stint, ended, broken]

/-- A stop takes the loop away at once, and is answered once that loop has ended. -/
theorem beginStop_waits {k : Nat} (running : (p.roster part).running = some k)
    (last : k + 1 = (p.roster part).stints.length) :
    ((p.beginStop part).1.roster part).running = none ∧
      ∀ later : Plant, (later.poll (p.beginStop part).2).isSome = true ↔
        ∀ s, (later.roster part).stints[k]? = some s → s.ended = true := by
  obtain ⟨t, there⟩ : ∃ t, (p.roster part).stints[k]? = some t :=
    ⟨_, List.getElem?_eq_getElem (by omega)⟩
  cases part with
  | double i => simp [roster] at running
  | station i =>
      cases found : p.stations[i]? with
      | none => simp [roster, found] at running
      | some s =>
          rw [roster_station found] at running there
          obtain ⟨_, _, stopped, _, told⟩ := s.stop_told p.ambient
          obtain ⟨rfl, _⟩ := told k t running there
          simp only [beginStop, found, stopped]
          refine ⟨?_, fun later => later.poll_loop_isSome i k⟩
          rw [roster_setStation found, if_pos rfl]
          rfl
  | coordinator i =>
      cases found : p.coordinators[i]? with
      | none => simp [roster, found] at running
      | some c =>
          rw [roster_coordinator found] at running there
          obtain ⟨_, _, stopped, _, told⟩ := c.stop_told p.ambient
          obtain ⟨rfl, _⟩ := told k t running there
          simp only [beginStop, found, stopped]
          refine ⟨?_, fun later => later.poll_run_isSome i k⟩
          rw [roster_setCoordinator found, if_pos rfl]
          rfl

end Plant

/-! ## Runs -/

namespace Works

variable {p : Plant} {part : Part}

/-- A start of a part succeeds by a deed: the part has one more loop. -/
def Begins (part : Part) (p : Plant) (d : Deed) : Prop :=
  (p.roster part).stints.length < ((act p d).roster part).stints.length

instance (part : Part) (p : Plant) (d : Deed) : Decidable (Begins part p d) :=
  inferInstanceAs (Decidable (_ < _))

/-- No start of a part succeeds while a stop of it is in progress. -/
def InTurn (part : Part) (p : Plant) : List Deed → Prop
  | [] => True
  | d :: rest =>
    (Begins part p d → (p.roster part).isStopping = false) ∧ InTurn part (act p d) rest

instance decidableInTurn (part : Part) :
    (p : Plant) → (deeds : List Deed) → Decidable (InTurn part p deeds)
  | _, [] => isTrue trivial
  | p, d :: rest => @instDecidableAnd _ _ inferInstance (decidableInTurn part (act p d) rest)

/-- At no time of a run more than one loop of a part is live. -/
def OneByOne (part : Part) (p : Plant) : List Deed → Prop
  | [] => (p.roster part).live ≤ 1
  | d :: rest => (p.roster part).live ≤ 1 ∧ OneByOne part (act p d) rest

theorem OneByOne.now {deeds : List Deed} (one : OneByOne part p deeds) :
    (p.roster part).live ≤ 1 := by
  cases deeds with
  | nil => exact one
  | cons d rest => exact one.1

theorem run_sound (sound : (p.roster part).Sound p.ambient.cancellations) (deeds : List Deed) :
    ((run p deeds).roster part).Sound (run p deeds).ambient.cancellations := by
  induction deeds generalizing p with
  | nil => exact sound
  | cons d rest ih =>
      have changes := act_changes p d
      exact ih (sound.change changes.fired (changes.roster part))

theorem oneByOne_of_inTurn (alone : (p.roster part).Alone) {deeds : List Deed}
    (inTurn : InTurn part p deeds) : OneByOne part p deeds := by
  induction deeds generalizing p with
  | nil => exact alone.live_le
  | cons d rest ih =>
      have after := alone.change inTurn.1 ((act_changes p d).roster part)
      exact ⟨alone.live_le, ih after inTurn.2⟩

theorem inTurn_of_oneByOne {deeds : List Deed} (one : OneByOne part p deeds) :
    InTurn part p deeds := by
  induction deeds generalizing p with
  | nil => trivial
  | cons d rest ih =>
      refine ⟨fun begins => Bool.eq_false_iff.mpr fun stopping => ?_, ih one.2⟩
      have two := ((act_changes p d).roster part).overlaps begins stopping
      have few := one.2.now
      omega

/-- At any time a part refuses to start exactly while a loop was started and not stopped. A stop
takes the loop away at once, and is answered only when it has ended. So at most one loop is live
that nobody has told to end; but no two loops of a part are ever live if and only if no start
succeeds while a stop of the part is in progress. -/
theorem loops_follow_each_other_iff (fresh : p.roster part = {}) (deeds : List Deed) :
    let q := run p deeds
    let r := q.roster part
    (q.works part = true → ∀ token,
      (r.running ≠ none → ∃ cause, q.beginStart part token = (q, .answered (.error cause))) ∧
      (r.running = none → (q.beginStart part token).2 = .answered (.ok ()) ∧
        ((q.beginStart part token).1.roster part).live = r.live + 1)) ∧
    (∀ k, r.running = some k → ((q.beginStop part).1.roster part).running = none ∧
      ∀ later : Plant, (later.poll (q.beginStop part).2).isSome = true ↔
        ∀ s, (later.roster part).stints[k]? = some s → s.ended = true) ∧
    (∀ (j k : Nat) (s t : Stint), r.stints[j]? = some s → r.stints[k]? = some t →
      s.ended = false ∧ t.ended = false →
      q.ambient.isCancelled s.token = false ∧ q.ambient.isCancelled t.token = false → j = k) ∧
    (OneByOne part p deeds ↔ InTurn part p deeds) := by
  intro q r
  have sound : r.Sound q.ambient.cancellations := by
    refine run_sound ?_ deeds
    rw [fresh]
    exact .empty _
  have alone : (p.roster part).Alone := by
    rw [fresh]
    exact nofun
  refine ⟨fun there token => ⟨fun running => ?_, fun idle => ?_⟩, fun k running => ?_, ?_, ?_⟩
  · exact Plant.beginStart_refused there running token
  · exact Plant.beginStart_accepted there idle token
  · exact Plant.beginStop_waits running (sound.last k running)
  · intro j k s t first second live untold
    exact sound.unique first second live untold
  · exact ⟨inTurn_of_oneByOne, oneByOne_of_inTurn alone⟩

/-- A receiver whose attempts last until an instant, and a coordinator whose part takes its time to
start. -/
def crew : Plant :=
  let registry := ({} : Registry).register "order" ⟨"clerk", false, .succeeds⟩
  { Shift.emptyPlant with
    stations := [.ofReceiver ⟨"orders", "clerk", false, {}, {}⟩ .value { name := "orders" } registry
      "order" fun _ => .await (.until 1000000) (.done .passed)]
    doubles := [{ name := "report", lockId := "report", starts := [{ delay := .ofSeconds 1 }] }]
    coordinators := [{ name := "report", lockId := "report", part := .double 0, config := {} }] }

/-- Both are started, begin to work, and are stopped. -/
def crewStops : List Deed :=
  [.queue 0 (.send { body := Utf8.encode "1" }), .start (.station 0) ⟨[0]⟩, .step (.loop 0 0),
    .step (.loop 0 0), .step (.attempt 0 0), .start (.coordinator 0) ⟨[0]⟩, .step (.run 0 0),
    .step (.run 0 0), .step (.run 0 0), .stop (.station 0), .stop (.coordinator 0),
    .step (.loop 0 0)]

/-- The receiver is started again after its loop has ended. -/
theorem loops_follow_each_other_iff_crew :
    let deeds := crewStops ++
      [.pass 1000000, .step (.attempt 0 0), .step (.loop 0 0), .start (.station 0) ⟨[0]⟩]
    crew.roster (.station 0) = {} ∧ ((run crew deeds).roster (.station 0)).stints.length = 2 ∧
      OneByOne (.station 0) crew deeds := by
  intro deeds
  have fresh : crew.roster (.station 0) = {} := by decide +kernel
  have twice : ((run crew deeds).roster (.station 0)).stints.length = 2 := by decide +kernel
  have inTurn : InTurn (.station 0) crew deeds := by decide +kernel
  exact ⟨fresh, twice, (loops_follow_each_other_iff fresh deeds).2.2.2.mpr inTurn⟩

/-- While their stops are in progress the receiver and the coordinator are started again, and each
of them has two live loops. -/
theorem restarts_overlap :
    let q := run crew crewStops
    ∀ part ∈ [Part.station 0, .coordinator 0], (q.roster part).isStopping = true ∧
      (q.beginStart part ⟨[0]⟩).2 = .answered (.ok ()) ∧
      ((q.beginStart part ⟨[0]⟩).1.roster part).live = 2 := by
  intro q part mem
  have seen : ∀ part ∈ [Part.station 0, .coordinator 0], q.works part = true ∧
      (q.roster part).running = none ∧ (q.roster part).isStopping = true ∧
      (q.roster part).live = 1 := by
    decide +kernel
  obtain ⟨there, idle, stopping, one⟩ := seen part mem
  obtain ⟨accepted, more⟩ := Plant.beginStart_accepted there idle ⟨[0]⟩
  exact ⟨stopping, accepted, more.trans (congrArg (· + 1) one)⟩

end Works

end Courier
