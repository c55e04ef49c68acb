import Courier.Proofs.Host.Dealings

/-!
# Starting a host

A host takes its parts in order. Where only one of a part may run, a coordinator is made for it and
started in its place; so which lead is started for which part is known beforehand (`Plant.lineup`).

A start asks one lead after the other. When all have answered well the host is ready; when one has
not, those that were started before it are stopped again, the latest first, and the host is where it
was before (`Opens`, `Underway`). Whatever else happens meanwhile, this is so at every time of a run
(`Works.launch_opens`).
-/

namespace Courier

/-! ## Lineups -/

/-- A part of the host with its lead, which is started for it: the part itself or a coordinator. -/
structure Listing where
  part : Part
  lead : Part

/-- Parts with their leads, where the next coordinator that is made has the place `n`. -/
def lineupFrom (leased : Part → Bool) (n : Nat) : List Part → List Listing
  | [] => []
  | part :: rest =>
    ⟨part, if leased part then .coordinator n else part⟩ ::
      lineupFrom leased (n + (leased part).toNat) rest

variable {leased : Part → Bool} {n : Nat} {parts : List Part} {done rest : List Listing}
  {x : Listing}

theorem lineupFrom_parts (leased : Part → Bool) (n : Nat) (parts : List Part) :
    (lineupFrom leased n parts).map (·.part) = parts := by
  induction parts generalizing n with
  | nil => rfl
  | cons part rest ih => simp [lineupFrom, ih]

/-- The lead of a part, by how many coordinators are made before it. -/
theorem lineupFrom_lead (line : lineupFrom leased n parts = done ++ x :: rest) :
    x.lead = if leased x.part then .coordinator (n + done.countP (leased ·.part)) else x.part := by
  induction parts generalizing n done with
  | nil => simp [lineupFrom] at line
  | cons part parts ih =>
      cases done with
      | nil =>
          obtain ⟨rfl, _⟩ := List.cons_eq_cons.mp line
          rfl
      | cons y done =>
          obtain ⟨rfl, follow⟩ := List.cons_eq_cons.mp line
          rw [ih follow, List.countP_cons, Nat.add_assoc, Nat.add_comm _ (done.countP _)]
          cases leased part <;> rfl

namespace Plant

/-- Whether a part is run under a lease. -/
def leases (p : Plant) (part : Part) : Bool := p.partIsSingleton part && p.host.hasLocks

/-- The parts of the host with the leads that a start will take for them. -/
def lineup (p : Plant) : List Listing := lineupFrom p.leases p.coordinators.length p.host.parts

/-- The coordinator that is made for a part. -/
def keeperFor (p : Plant) (part : Part) : Coordinator :=
  { name := p.partName part, lockId := p.partLockId part, part := part
    config := p.host.config.singleton }

variable {p s s' : Plant} {e e' : Errand} {quiet : Prop} {touched : List Listing} {isOpen : Bool}

theorem mem_parts_of_lineup (line : p.lineup = done ++ x :: rest) : x.part ∈ p.host.parts := by
  have mem : x.part ∈ p.lineup.map (·.part) := List.mem_map.mpr ⟨x, by simp [line], rfl⟩
  rwa [lineup, lineupFrom_parts] at mem

theorem wrap_of_leases {part : Part} (one : p.leases part = true) : p.wrap part =
    ({ p with coordinators := p.coordinators ++ [p.keeperFor part] },
      .coordinator p.coordinators.length) := by
  unfold leases at one
  unfold wrap
  rw [if_pos one]
  rfl

theorem wrap_of_not_leases {part : Part} (many : p.leases part = false) :
    p.wrap part = (p, part) := by
  unfold leases at many
  unfold wrap
  rw [if_neg (by simp [many])]

/-- A coordinator that was just made is started at once. -/
theorem beginStart_wrap {part lead : Part} {q : Plant} (one : p.leases part = true)
    (wrapped : p.wrap part = (q, lead)) (a : Ambient) (token : CancelToken) :
    ((q.withAmbient a).beginStart lead token).2 = .answered (.ok ()) := by
  rw [wrap_of_leases one] at wrapped
  obtain ⟨rfl, rfl⟩ := Prod.mk.inj wrapped
  simp [beginStart, withAmbient, Coordinator.start, keeperFor]

/-- Parts that are there keep their badges when a coordinator is made. -/
theorem badge?_append {part : Part} {b : String × String × Bool} (there : p.badge? part = some b)
    (c : Coordinator) :
    ({ p with coordinators := p.coordinators ++ [c] } : Plant).badge? part = some b := by
  cases part with
  | double | station => exact there
  | coordinator i =>
      obtain ⟨d, found, rfl⟩ := Option.map_eq_some_iff.mp there
      simp [badge?, getElem?_append_of_some found]

/-! ## Before a start -/

/-- The host is not started and can be. Its parts are there, and all that is taken up in the
background are calls to parts. -/
structure Idle (p : Plant) : Prop where
  ticks : 0 < p.ambient.clock.resolution
  started : p.host.started = []
  health : p.ambient.controller.health = .starting
  parts : ∀ part ∈ p.host.parts, (p.badge? part).isSome = true
  calls : ∀ b ∈ p.background, b.isCall = true

/-- Nothing is in the way of a start: the configuration is valid, and if there are parts of which
only one may run, there is a store of leases that can be made ready. -/
structure MayOpen (p : Plant) : Prop where
  valid : p.host.config.validate = .ok ()
  locks : ∀ part ∈ p.host.parts, p.partIsSingleton part = true →
    p.host.hasLocks = true ∧ p.locks.store.prepare = .ok ()

theorem beginOpening_of_mayOpen (idle : p.Idle) (may : p.MayOpen) (stay : Option Duration) :
    p.beginOpening stay = .opening (.toStart p.host.parts []) none stay := by
  simp only [beginOpening, idle.started, idle.health, may.valid]
  cases found : p.host.parts.find? p.partIsSingleton with
  | none => simp
  | some part =>
      have singleton := List.find?_some found
      obtain ⟨locks, ready⟩ := may.locks part (List.mem_of_find?_eq_some found) singleton
      simp [locks, ready]

theorem beginOpening_refuses (idle : p.Idle) (not : ¬ p.MayOpen) (stay : Option Duration) :
    ∃ fault, p.beginOpening stay = .opened (.error fault) := by
  simp only [beginOpening, idle.started, idle.health]
  cases valid : p.host.config.validate with
  | error f => simp
  | ok =>
      cases found : p.host.parts.find? p.partIsSingleton with
      | none =>
          refine absurd ⟨valid, fun part mem singleton => ?_⟩ not
          exact absurd singleton (List.find?_eq_none.mp found part mem)
      | some part =>
          cases locks : p.host.hasLocks with
          | false => simp
          | true =>
              cases ready : p.locks.store.prepare with
              | error f => simp
              | ok => exact absurd ⟨valid, fun _ _ _ => ⟨locks, ready⟩⟩ not

end Plant

/-! ## Dealings in order -/

/-- The leads of parts, the latest first. -/
def leads (xs : List Listing) : List Part := (xs.map (·.lead)).reverse

/-- Parts are started, one after the other. -/
def starts (xs : List Listing) : List Dealing :=
  xs.flatMap fun x => [.start x.lead, .answered (.ok ())]

theorem leads_concat (xs : List Listing) (x : Listing) :
    leads (xs ++ [x]) = x.lead :: leads xs := by
  simp [leads]

theorem starts_concat (xs : List Listing) (x : Listing) :
    starts (xs ++ [x]) = starts xs ++ [.start x.lead] ++ [.answered (.ok ())] := by
  simp [starts]

/-- The errand of a start of the host of `p`, and what has been dealt. The leads of those that were
touched have been asked to start. A coordinator does not fail to start, so a start fails only by a
part that leads itself. -/
inductive Opens (p : Plant) : List Listing → Errand → List Dealing → Prop where
  /-- All that were asked have started. -/
  | next {done rest : List Listing} : p.lineup = done ++ rest →
      Opens p done (.opening (.toStart (rest.map (·.part)) (leads done)) none none) (starts done)
  | waits {done rest : List Listing} {x : Listing} {q : Plant} {token : CancelToken} {call : Call} :
      p.lineup = done ++ x :: rest → call = (q.beginStart x.lead token).2 →
      (p.leases x.part = true → call = .answered (.ok ())) →
      Opens p (done ++ [x])
        (.opening (.starting x.lead (rest.map (·.part)) (leads done)) (some call) none)
        (starts done ++ [.start x.lead])
  | opened : Opens p p.lineup (.opened (.ok ())) (starts p.lineup)
  /-- One has failed to start, and those that have started are stopped. -/
  | undoes {done rest : List Listing} {x : Listing} {cause : Cause} {ends : List (Part × Dealing)}
      {left : List Part} : p.lineup = done ++ x :: rest → p.leases x.part = false →
      leads done = ends.map (·.1) ++ left → ends.all (·.2.isAnswer) = true →
      Opens p (done ++ [x])
        (.opening (.toStop left (.component (p.partName x.part) cause)) none none)
        (starts done ++ [.start x.lead, .answered (.error cause)] ++ stops ends)
  | undoing {done rest : List Listing} {x : Listing} {cause : Cause} {ends : List (Part × Dealing)}
      {y : Part} {left : List Part} {q : Plant} {call : Call} :
      p.lineup = done ++ x :: rest → p.leases x.part = false →
      leads done = ends.map (·.1) ++ y :: left → ends.all (·.2.isAnswer) = true →
      call = (q.beginStop y).2 →
      Opens p (done ++ [x])
        (.opening (.stopping left (.component (p.partName x.part) cause)) (some call) none)
        (starts done ++ [.start x.lead, .answered (.error cause)] ++ stops ends ++ [.stop y])
  | failed {done rest : List Listing} {x : Listing} {cause : Cause} {ends : List (Part × Dealing)} :
      p.lineup = done ++ x :: rest → p.leases x.part = false → leads done = ends.map (·.1) →
      ends.all (·.2.isAnswer) = true →
      Opens p (done ++ [x]) (.opened (.error (.component (p.partName x.part) cause)))
        (starts done ++ [.start x.lead, .answered (.error cause)] ++ stops ends)

/-- Once the host is ready all leads have been started. -/
theorem Opens.all {p : Plant} {touched : List Listing} {h : List Dealing}
    (opens : Opens p touched (.opened (.ok ())) h) : touched = p.lineup ∧ h = starts p.lineup := by
  cases opens
  exact ⟨rfl, rfl⟩

/-! ## The plant meanwhile -/

open Plant (Stride Beside)

variable {p s s' q : Plant} {e e' : Errand} {quiet : Prop} {touched : List Listing} {isOpen : Bool}

/-- The lead of a part of which only one may run is a coordinator for it. All others lead
themselves. -/
def Stands (p s : Plant) (x : Listing) : Prop :=
  if p.leases x.part then
    ∃ i, x.lead = .coordinator i ∧ (s.coordinators.map (·.badge))[i]? =
      some (p.partName x.part, p.partLockId x.part, x.part, p.host.config.singleton)
  else x.lead = x.part

theorem Stands.mono (stands : Stands p s x) (more : ∀ (i : Nat) b,
    (s.coordinators.map (·.badge))[i]? = some b → (q.coordinators.map (·.badge))[i]? = some b) :
    Stands p q x := by
  unfold Stands at stands ⊢
  split
  · rename_i leased
    rw [if_pos leased] at stands
    obtain ⟨i, lead, badge⟩ := stands
    exact ⟨i, lead, more i _ badge⟩
  · rename_i free
    rwa [if_neg free] at stands

/-- A plant `s` in which the host of `p` is being started, or is ready. It is quiet if nobody
announces a shutdown. Parts that were there still are, and coordinators were made for those parts
that were touched. -/
structure Underway (p s : Plant) (quiet : Prop) (isOpen : Bool) (touched : List Listing) :
    Prop where
  ticks : 0 < s.ambient.clock.resolution
  calls : ∀ b ∈ s.background, b.isCall = true
  host : s.host = { p.host with started := if isOpen then leads touched else [] }
  health : quiet → s.ambient.controller.health = if isOpen then .ready else .starting
  known : ∀ part b, p.badge? part = some b → s.badge? part = some b
  count : s.coordinators.length = p.coordinators.length + touched.countP (p.leases ·.part)
  stands : ∀ x ∈ touched, Stands p s x

namespace Underway

theorem beside (under : Underway p s quiet isOpen touched) (beside : Beside quiet s s') :
    Underway p s' quiet isOpen touched where
  ticks := beside.resolution ▸ under.ticks
  calls := beside.calls under.calls
  host := beside.host.trans under.host
  health q := (beside.health q).trans (under.health q)
  known part b there := (congrFun beside.badges part).trans (under.known part b there)
  count := by
    have same := congrArg List.length beside.coordinators
    simp only [List.length_map] at same
    exact same.trans under.count
  stands x mem := (under.stands x mem).mono fun i b there => by rwa [beside.coordinators]

theorem known_same (under : Underway p s quiet isOpen touched) {part : Part}
    (there : (p.badge? part).isSome = true) : s.badge? part = p.badge? part := by
  obtain ⟨b, found⟩ := Option.isSome_iff_exists.mp there
  rw [found]
  exact under.known part b found

theorem leases_same (under : Underway p s quiet isOpen touched) {part : Part}
    (there : (p.badge? part).isSome = true) : s.leases part = p.leases part := by
  simp only [Plant.leases, Plant.partIsSingleton_eq, under.known_same there, under.host]

/-- A lead goes by the name of its part. -/
theorem partName_lead (under : Underway p s quiet isOpen touched) (mem : x ∈ touched)
    (there : (p.badge? x.part).isSome = true) : s.partName x.lead = p.partName x.part := by
  have stands := under.stands x mem
  unfold Stands at stands
  split at stands
  · obtain ⟨i, lead, badge⟩ := stands
    rw [List.getElem?_map] at badge
    obtain ⟨c, found, badge⟩ := Option.map_eq_some_iff.mp badge
    have name : c.name = p.partName x.part := congrArg (·.1) badge
    simp [lead, Plant.partName, found, name]
  · rw [stands, Plant.partName_eq, Plant.partName_eq, under.known_same there]

/-- The next part is taken up. -/
theorem wrap (under : Underway p s quiet false touched) {rest : List Listing}
    (line : p.lineup = touched ++ x :: rest) (there : (p.badge? x.part).isSome = true) :
    ∃ q, s.wrap x.part = (q, x.lead) ∧ Underway p q quiet false (touched ++ [x]) := by
  have lead := lineupFrom_lead line
  have same := under.known_same there
  have leases := under.leases_same there
  cases one : p.leases x.part with
  | false =>
      rw [one] at leases
      rw [one, if_neg Bool.false_ne_true] at lead
      refine ⟨s, by rw [Plant.wrap_of_not_leases leases, lead], { under with
        count := ?_
        stands := ?_ }⟩
      · simp [List.countP_append, one, under.count]
      · intro y mem
        obtain old | new := List.mem_append.mp mem
        · exact under.stands y old
        · obtain rfl := List.mem_singleton.mp new
          simp [Stands, one, lead]
  | true =>
      rw [one] at leases
      rw [one, if_pos rfl, ← under.count] at lead
      have keeper : (s.keeperFor x.part).badge =
          (p.partName x.part, p.partLockId x.part, x.part, p.host.config.singleton) := by
        simp [Plant.keeperFor, Coordinator.badge, Plant.partName_eq, Plant.partLockId_eq, same,
          under.host]
      rw [Plant.wrap_of_leases leases, lead]
      refine ⟨_, rfl, { under with
        known := fun part b found => Plant.badge?_append (under.known part b found) _
        count := ?_
        stands := ?_ }⟩
      · simp [List.countP_append, one, under.count, Nat.add_assoc]
      · intro y mem
        obtain old | new := List.mem_append.mp mem
        · refine (under.stands y old).mono fun i b found => ?_
          rw [List.map_append]
          exact getElem?_append_of_some found _
        · obtain rfl := List.mem_singleton.mp new
          simp only [Stands, one, if_true]
          refine ⟨_, lead, ?_⟩
          simp [keeper]

/-- The host is ready, with all leads started. -/
theorem ready (under : Underway p s quiet false touched) : Underway p
    { s with
      ambient := { s.ambient with controller := s.ambient.controller.setReady }
      host := { s.host with started := leads touched } } quiet true touched where
  ticks := under.ticks
  calls := under.calls
  host := by simp [under.host]
  health _ := rfl
  known := under.known
  count := under.count
  stands := under.stands

theorem withForeground (under : Underway p s quiet isOpen touched) (e : Errand) :
    Underway p { s with foreground := some e } quiet isOpen touched :=
  { under with }

end Underway

/-! ## Strides of a start -/

variable {deal : Option Dealing} {h : List Dealing}

theorem stops_concat (ends : List (Part × Dealing)) (y : Part) (outcome : Dealing) :
    stops (ends ++ [(y, outcome)]) = stops ends ++ [.stop y] ++ [outcome] := by
  simp [stops]

/-- A stride of a start deals what comes next. -/
theorem Opens.stride (parts : ∀ part ∈ p.host.parts, (p.badge? part).isSome = true)
    (opens : Opens p touched e h) (under : Underway p s quiet e.isOpen touched)
    (stride : Stride s e deal s' e') : ∃ touched',
      Opens p touched' e' (h ++ deal.toList) ∧ Underway p s' quiet e'.isOpen touched' := by
  cases opens with
  | @next done rest line =>
      cases rest with
      | nil =>
          cases stride with
          | opened last =>
              subst last
              rw [List.append_nil] at line
              subst line
              rw [Option.toList_none, List.append_nil]
              exact ⟨_, .opened, under.ready⟩
      | cons x rest =>
          have there := parts x.part (Plant.mem_parts_of_lineup line)
          have leases := under.leases_same there
          obtain ⟨q, wrapped, taken⟩ := under.wrap line there
          cases stride with
          | @start _ _ _ _ _ _ a token wrapped' child =>
              obtain ⟨rfl, rfl⟩ := Prod.mk.inj (wrapped.symm.trans wrapped')
              obtain rfl : (q.ambient.child q.ambient.controller.token).1 = a :=
                congrArg Prod.fst child
              have below := Plant.still_ambient (.child q.ambient q.ambient.controller.token)
              have begun := below.toKeeps.trans (Plant.beginStart_goes _ x.lead token).toKeeps
              refine ⟨_, .waits line rfl fun one => ?_, taken.beside (begun.beside quiet)⟩
              exact Plant.beginStart_wrap (leases.trans one) wrapped _ token
  | @waits done rest x _ _ call line _ sure =>
      have there := parts x.part (Plant.mem_parts_of_lineup line)
      cases stride with
      | @heard _ _ _ answer _ polled =>
          have heard := under.beside ((Plant.poll_still polled).toKeeps.beside quiet)
          have name := heard.partName_lead (List.mem_append_right done (.head _)) there
          cases answer with
          | ok =>
              have further : p.lineup = (done ++ [x]) ++ rest := by simpa using line
              have opens := Opens.next further
              rw [leads_concat, starts_concat] at opens
              exact ⟨_, opens, heard⟩
          | error cause =>
              -- A coordinator has answered well at once, so the part leads itself.
              have own : p.leases x.part = false := by
                refine Bool.eq_false_iff.mpr fun one => ?_
                rw [sure one] at polled
                cases polled
              have opens := @Opens.undoes p _ _ _ cause [] (leads done) line own rfl rfl
              refine ⟨_, ?_, heard⟩
              simp only [Host.Opening.answered, Plant.openingName, name]
              simpa [stops] using opens
  | opened => cases stride
  | @undoes done rest x cause ends left line own undone answered =>
      cases left with
      | nil =>
          cases stride with
          | failed =>
              rw [List.append_nil] at undone
              rw [Option.toList_none, List.append_nil]
              exact ⟨_, .failed line own undone answered, under⟩
      | cons y left =>
          cases stride with
          | undo =>
              have stopped := (Plant.beginStop_goes s y).toKeeps.beside quiet
              exact ⟨_, .undoing line own undone answered rfl, under.beside stopped⟩
  | @undoing done rest x cause ends y left _ call line own undone answered =>
      cases stride with
      | @heard _ _ _ answer _ polled =>
          have heard := under.beside ((Plant.poll_still polled).toKeeps.beside quiet)
          have further :
              leads done = (ends ++ [(y, Dealing.answered answer)]).map (·.1) ++ left := by
            simpa using undone
          have opens := @Opens.undoes p _ _ _ cause _ _ line own further
            (by simpa [Dealing.isAnswer] using answered)
          rw [stops_concat] at opens
          refine ⟨_, ?_, heard⟩
          simpa [Host.Opening.answered] using opens
  | failed => cases stride

/-- A start is over, or it takes a step that brings it nearer to its end, or it waits for the answer
of a part. -/
theorem Opens.progress (opens : Opens p touched e h) (ticks : 0 < s.ambient.clock.resolution) :
    e.isOver = true ∨ (∃ s' e', s.stepErrand e = some (s', e') ∧ e'.stepsLeft < e.stepsLeft) ∨
      ∃ call, e.awaits = some call ∧ s.poll call = none := by
  cases step : s.stepErrand e with
  | some next =>
      have leaves (t : Nat) : e ≠ .staying t := by
        rintro rfl
        cases opens
      exact .inr (.inl ⟨_, _, rfl, (Plant.stepErrand_stride step).nearer ticks leaves⟩)
  | none =>
      cases opens with
      | @next done rest => cases rest <;> cases step
      | waits | undoing => exact .inr (.inr ⟨_, rfl, Option.map_eq_none_iff.mp step⟩)
      | opened | failed => exact .inl rfl
      | @undoes done rest x cause ends left => cases left <;> cases step

/-! ## Runs of a start -/

namespace Underway

theorem initial (idle : p.Idle) (quiet : Prop) (e : Errand) :
    Underway p { p with foreground := some e } quiet false [] where
  ticks := idle.ticks
  calls := idle.calls
  host := by simp [← idle.started]
  health _ := idle.health
  known _ _ found := found
  count := rfl
  stands := nofun

/-- As long as the host is not ready it is what it was before. -/
theorem host_same (under : Underway p s quiet false touched) (idle : p.Idle) : s.host = p.host := by
  rw [under.host, if_neg Bool.false_ne_true, ← idle.started]

/-- So it can be started again, unless somebody has announced a shutdown. -/
theorem idle (under : Underway p s quiet false touched) (idle : p.Idle) (calm : quiet) :
    s.Idle where
  ticks := under.ticks
  started := by rw [under.host_same idle, idle.started]
  health := under.health calm
  parts part mem := by
    rw [under.host_same idle] at mem
    rw [under.known_same (idle.parts part mem)]
    exact idle.parts part mem
  calls := under.calls

end Underway

/-- In `s` the host of `p` is being started, or is ready, and `h` has been dealt. -/
def Rises (p : Plant) (quiet : Prop) (s : Plant) (e : Errand) (h : List Dealing) : Prop :=
  ∃ touched, Opens p touched e h ∧ Underway p s quiet e.isOpen touched

theorem Rises.calls (rises : Rises p quiet s e h) : ∀ b ∈ s.background, b.isCall = true := by
  obtain ⟨_, _, under⟩ := rises
  exact under.calls

theorem Rises.beside (rises : Rises p quiet s e h) (beside : Beside quiet s s') :
    Rises p quiet s' e h := by
  obtain ⟨touched, opens, under⟩ := rises
  exact ⟨touched, opens, under.beside beside⟩

theorem Rises.stride (idle : p.Idle) (rises : Rises p quiet s e h)
    (stride : Stride s e deal s' e') :
    Rises p quiet { s' with foreground := some e' } e' (h ++ deal.toList) := by
  obtain ⟨_, opens, under⟩ := rises
  obtain ⟨touched, opens, under⟩ := opens.stride idle.parts under stride
  exact ⟨touched, opens, under.withForeground e'⟩

/-- In `s` the start of the host of `p` has been refused, and nothing has been dealt. -/
structure Refused (p : Plant) (quiet : Prop) (fault : HostFault) (s : Plant) (e : Errand)
    (h : List Dealing) : Prop where
  answer : e = .opened (.error fault)
  nothing : h = []
  under : Underway p s quiet false []

namespace Works

variable {deeds : List Deed}

/-- Where something is in the way, nothing is dealt, and the host is what it was before. -/
theorem launch_refuses (idle : p.Idle) (not : ¬ p.MayOpen)
    (shared : ∀ d ∈ deeds, d.isExclusive = false)
    (silent : quiet → ∀ d ∈ deeds, d.isTrigger = false) : ∃ fault e,
      (run (act p (.launch none)) deeds).foreground = some e ∧
      Refused p quiet fault (run (act p (.launch none)) deeds) e
        (history (act p (.launch none)) deeds) := by
  obtain ⟨fault, refused⟩ := Plant.beginOpening_refuses idle not none
  have here : (act p (.launch none)).foreground = some (.opened (.error fault)) :=
    congrArg some refused
  have first : Refused p quiet fault (act p (.launch none)) (.opened (.error fault)) [] :=
    ⟨rfl, rfl, .initial idle quiet _⟩
  refine ⟨fault, run_dealt (P := Refused p quiet fault) ?_ ?_ ?_ here first shared silent⟩
  · intro s e h refused
    exact refused.under.calls
  · intro s s' e h refused beside
    exact { refused with under := refused.under.beside beside }
  · intro s s' e e' deal h refused stride
    obtain ⟨rfl, _, _⟩ := refused
    cases stride

/-- Otherwise the leads of the lineup are started in order. -/
theorem launch_opens (idle : p.Idle) (may : p.MayOpen)
    (shared : ∀ d ∈ deeds, d.isExclusive = false)
    (silent : quiet → ∀ d ∈ deeds, d.isTrigger = false) : ∃ e,
      (run (act p (.launch none)) deeds).foreground = some e ∧
      Rises p quiet (run (act p (.launch none)) deeds) e
        (history (act p (.launch none)) deeds) := by
  have begun := Plant.beginOpening_of_mayOpen idle may none
  have parts : p.lineup.map (·.part) = p.host.parts := lineupFrom_parts _ _ _
  have opens := @Opens.next p [] p.lineup rfl
  rw [parts] at opens
  have here : (act p (.launch none)).foreground =
      some (.opening (.toStart p.host.parts []) none none) := congrArg some begun
  have first : Rises p quiet (act p (.launch none))
      (.opening (.toStart p.host.parts []) none none) [] := ⟨[], opens, .initial idle quiet _⟩
  exact run_dealt (P := Rises p quiet) Rises.calls Rises.beside (Rises.stride idle) here first
    shared silent

end Works

end Courier
