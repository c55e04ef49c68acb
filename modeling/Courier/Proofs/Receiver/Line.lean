import Courier.Proofs.Handling.Admission
import Courier.Proofs.Queue.Fence
import Courier.Proofs.Receiver.Books

/-!
# The line before the gate

An attempt that has not begun will ask the gate of its receiver for admission, one that waits has a
ticket for the queue of the gate, and every other one is behind admission. `Attempt.Turn` lists what
a step can change about that.

`Line` says where the attempts of a receiver stand and that of two attempts for one message the
earlier one has the earlier turn. This needs that at most one of them has yet to ask, which is so as
long as an attempt that has not begun can settle its delivery. An attempt that was aborted has left
the line, and takes nobody's place with it.
-/

namespace Courier

open Queue (Record Spent Settleable)

namespace Attempt

/-- The attempt has not begun. -/
def Fresh (p : Processor) (t : Attempt) : Prop :=
  t.handling.invoked = false ∧ t.program = handle 0 [] p t.handling.context

/-- The attempt waits in the queue of the gate. -/
def Waits (p : Processor) (ticket : Nat) (t : Attempt) : Prop :=
  t.handling.invoked = false ∧ ∃ id, t.program = Stage.queued p t.handling.context id ticket

def Behind (t : Attempt) : Prop := Courier.Behind t.handling t.program

variable {p : Processor} {t : Attempt} {a b : Nat}

theorem Waits.unique (h : t.Waits p a) (h' : t.Waits p b) : a = b := by
  obtain ⟨_, id, program⟩ := h
  obtain ⟨_, id', program'⟩ := h'
  rw [program] at program'
  injection program' with slot
  exact (Pause.slot.inj slot).2

theorem Waits.not_behind (h : t.Waits p a) : ¬t.Behind := by
  obtain ⟨_, id, program⟩ := h
  intro behind
  have polite := behind.polite
  rw [program] at polite
  simp [Stage.queued, Stage.around, Program.bind, Program.Only, Effect.isEnter] at polite

theorem Fresh.canResume (h : t.Fresh p) {s : Site} : t.program.canResume s = true := by
  rw [h.2]
  rfl

/-- An attempt can go on when there is news for the ticket under which it waits. -/
theorem Waits.canResume (h : t.Waits p a) {s : Site} (served : s.gate.Served a) :
    t.program.canResume s = true := by
  obtain ⟨_, id, program⟩ := h
  have decided := (Gate.decided_iff _ a).mpr served
  rw [program]
  exact Bool.or_eq_true_iff.mpr (.inr decided)

theorem Fresh.not_waits (h : t.Fresh p) : ¬t.Waits p a := by
  rintro ⟨_, id, program⟩
  rw [h.2] at program
  injection program

/-- Where an attempt stands: what it can settle as long as it has not begun, and its place in the
queue of the gate as long as it waits there. -/
inductive Stands (p : Processor) (now : Nat) (h : List Record) (g : Gate) (t : Attempt) : Prop where
  | fresh : t.Fresh p → Settleable h now t.delivery.token → t.Stands p now h g
  | waits (ticket : Nat) : t.Waits p ticket → g.Queued ticket → t.Stands p now h g
  | behind : t.Behind → t.Stands p now h g

/-- The turn of one attempt comes before the turn of another. -/
def Precedes (p : Processor) (g : Gate) (t u : Attempt) : Prop :=
  t.Behind ∨ ∃ a, t.Waits p a ∧
    (g.Served a ∨ u.handling.invoked = false ∧ ∀ b, u.Waits p b → a < b)

theorem Stands.queued {now : Nat} {h : List Record} {g : Gate} (stands : t.Stands p now h g)
    (waits : t.Waits p a) : g.Queued a := by
  cases stands with
  | fresh fresh _ => exact absurd waits fresh.not_waits
  | waits ticket waits' queued => exact waits'.unique waits ▸ queued
  | behind behind => exact absurd behind waits.not_behind

theorem Stands.imp {now now' : Nat} {h h' : List Record} {g g' : Gate}
    (stands : t.Stands p now h g)
    (fresh : t.Fresh p → Settleable h now t.delivery.token → Settleable h' now' t.delivery.token)
    (queued : ∀ ticket, t.Waits p ticket → g.Queued ticket → g'.Queued ticket) :
    t.Stands p now' h' g' := by
  cases stands with
  | fresh new settles => exact .fresh new (fresh new settles)
  | waits ticket waits queued' => exact .waits ticket waits (queued ticket waits queued')
  | behind behind => exact .behind behind

theorem Precedes.imp {g g' : Gate} {u : Attempt} (precedes : t.Precedes p g u)
    (served : ∀ ticket, t.Waits p ticket → g.Served ticket → g'.Served ticket) :
    t.Precedes p g' u := by
  obtain behind | ⟨ticket, waits, turn⟩ := precedes
  · exact .inl behind
  · exact .inr ⟨ticket, waits, turn.imp_left (served ticket waits)⟩

end Attempt

/-! ## A step of an attempt -/

/-- What a step of an attempt can do: the attempt is behind admission and goes on there, it takes
the slot for which it has waited or is turned away, it joins the queue, or it gets in or is turned
away at once. -/
inductive Attempt.Turn (p : Processor) (g g' : Gate) (t t' : Attempt) : Prop where
  | onward : Gate.Advances none g g' → t'.Behind → t'.handling.invoked = t.handling.invoked →
      Turn p g g' t t'
  | entered (ticket : Nat) : t.Waits p ticket → Gate.Advances (some ticket) g g' → t'.Behind →
      (t'.handling.invoked = true → ticket ∈ g.granted) → Turn p g g' t t'
  | joined : ¬t.Behind → t.Fresh p → g.request.2 = .queued g.issued → g' = g.request.1 →
      t'.Waits p g.issued → Turn p g g' t t'
  | admitted : ¬t.Behind → t.Fresh p → Gate.Advances none g g' → t'.Behind →
      (t'.handling.invoked = true → g.free ≠ 0) → Turn p g g' t t'

section

variable {p : Processor} {t : Attempt} {s : Station} {a : Ambient}

theorem Station.turn (polite : ∀ ctx, (p ctx).Only fun e => e.isGate = false)
    (gates : s.premises.gates ≠ []) (orderly : s.gate.Orderly) {now : Nat} {h : List Record}
    (stands : t.Stands p now h s.gate) (can : t.program.canResume (s.site a t) = true) :
    Attempt.Turn p s.gate (t.program.resume (s.site a t)).1.gate t (s.resumed a t) := by
  -- a delivery past its limit is behind admission before it has begun
  by_cases behind : t.Behind
  · refine .onward (resume_gate (s := s.site a t) behind.polite) ⟨behind.polite.resume _, ?_⟩ ?_
    · exact behind.handed.imp (resume_invoked t.program) (·.resume _)
    · obtain invoked | aside := behind.handed
      · exact (resume_invoked t.program invoked).trans invoked.symm
      · exact resume_uninvoked aside
  cases stands with
  | behind h => exact absurd h behind
  | waits ticket waits queued =>
      obtain ⟨new, id, program⟩ := waits
      rw [program] at can
      have turned := queued_resume (s := s.site a t) (polite t.handling.context) id ticket new can
      rw [← program] at turned
      exact .entered ticket ⟨new, id, program⟩ turned.1 turned.2.1 turned.2.2
  | fresh fresh settles =>
      have asked :=
        handle_resume (s := s.site a t) (polite t.handling.context) orderly gates fresh.1
      rw [← fresh.2] at asked
      obtain ⟨entry, gate, ⟨id, program⟩, new⟩ | ⟨advances, past, free⟩ := asked
      · refine .joined behind fresh entry gate ⟨new, id, ?_⟩
        rw [s.resumed_context a t]
        exact program
      · exact .admitted behind fresh advances past free

end

namespace Attempt.Turn

variable {p : Processor} {g g' : Gate} {t t' u : Attempt}

/-- Only the ticket of the attempt that steps loses its place. -/
theorem advances (turn : Turn p g g' t t') :
    ∃ lost, Gate.Advances lost g g' ∧ ∀ a, lost = some a → t.Waits p a := by
  cases turn with
  | onward advances _ _ => exact ⟨none, advances, nofun⟩
  | entered ticket waits advances _ _ =>
      exact ⟨some ticket, advances, fun a same => Option.some.inj same ▸ waits⟩
  | joined _ _ _ gate _ => exact ⟨none, gate ▸ g.advances_request, nofun⟩
  | admitted _ _ advances _ _ => exact ⟨none, advances, nofun⟩

theorem behind_of_behind (turn : Turn p g g' t t') (behind : t.Behind) :
    t'.Behind ∧ t'.handling.invoked = t.handling.invoked := by
  cases turn with
  | onward _ behind' same => exact ⟨behind', same⟩
  | entered ticket waits _ _ _ => exact absurd behind waits.not_behind
  | joined before _ _ _ _ => exact absurd behind before
  | admitted before _ _ _ _ => exact absurd behind before

theorem behind_of_waits (turn : Turn p g g' t t') {a : Nat} (waits : t.Waits p a) : t'.Behind := by
  cases turn with
  | onward _ behind _ => exact behind
  | entered ticket _ _ behind _ => exact behind
  | joined _ fresh _ _ _ => exact absurd waits fresh.not_waits
  | admitted _ _ _ behind _ => exact behind

/-- Who joins the queue gets a ticket later than all that wait there. -/
theorem lt_issued (orderly : g.Orderly) (entry : g.request.2 = .queued g.issued) {a : Nat}
    (queued : g.Queued a) : a < g.issued := by
  obtain ⟨_, opened, _⟩ := Gate.of_queued entry
  obtain waits | granted | closed := queued
  · exact orderly.known a (.inl waits)
  · exact orderly.known a (.inr granted)
  · simp [opened] at closed

/-- What waits for an earlier turn keeps it when an attempt steps whose turn is later. -/
theorem keeps_lead (turn : Turn p g g' t t') (orderly : g.Orderly) {a : Nat}
    (queued : g.Queued a) (other : ¬t.Waits p a)
    (lead : g.Served a ∨ t.handling.invoked = false ∧ ∀ b, t.Waits p b → a < b) :
    g'.Served a ∨ t'.handling.invoked = false ∧ ∀ b, t'.Waits p b → a < b := by
  obtain ⟨lost, advances, mine⟩ := turn.advances
  have keeps : g.Served a → g'.Served a :=
    advances.served a fun same => other (mine a same)
  obtain served | ⟨new, before⟩ := lead
  · exact .inl (keeps served)
  have not_waits : ∀ {b}, t'.Behind → ¬t'.Waits p b := fun behind waits => waits.not_behind behind
  cases turn with
  | onward _ behind same =>
      exact .inr ⟨same.trans new, fun b waits => absurd waits (not_waits behind)⟩
  | entered ticket waits _ behind granted =>
      cases invoked : t'.handling.invoked with
      | false => exact .inr ⟨rfl, fun b waits => absurd waits (not_waits behind)⟩
      | true =>
          exact .inl (keeps (orderly.served_of_lt (granted invoked) (before ticket waits) queued))
  | joined _ _ entry _ waits =>
      refine .inr ⟨waits.1, ?_⟩
      intro b waits'
      rw [← waits.unique waits']
      exact lt_issued orderly entry queued
  | admitted _ _ _ behind free =>
      cases invoked : t'.handling.invoked with
      | false => exact .inr ⟨rfl, fun b waits => absurd waits (not_waits behind)⟩
      | true => exact .inl (keeps (orderly.served_of_free (free invoked) queued))

/-- Whoever waits after a step does so under a ticket that was issued in the step. -/
theorem issued (turn : Turn p g g' t t') {b : Nat} (waits : t'.Waits p b) :
    g.issued ≤ b ∧ b < g'.issued := by
  cases turn with
  | onward _ behind _ => exact absurd behind waits.not_behind
  | entered _ _ _ behind _ => exact absurd behind waits.not_behind
  | joined _ _ entry gate waits' =>
      obtain ⟨_, _, joined⟩ := Gate.of_queued entry
      obtain rfl := waits'.unique waits
      rw [gate, joined]
      exact ⟨Nat.le_refl _, Nat.lt_succ_self _⟩
  | admitted _ _ _ behind _ => exact absurd behind waits.not_behind

theorem stands (turn : Turn p g g' t t') (now : Nat) (h : List Record) : t'.Stands p now h g' := by
  cases turn with
  | onward _ behind _ => exact .behind behind
  | entered _ _ _ behind _ => exact .behind behind
  | joined _ _ entry gate waits =>
      obtain ⟨_, _, joined⟩ := Gate.of_queued entry
      refine .waits _ waits (.inl ?_)
      rw [gate, joined]
      exact List.mem_append_right _ (List.mem_singleton_self _)
  | admitted _ _ _ behind _ => exact .behind behind

end Attempt.Turn

/-! ## All attempts -/

/-- No two attempts have a ticket in common. -/
def Apart (attempts : List Attempt) : Prop :=
  ∀ (j k : Nat) (t u : Attempt), j ≠ k → attempts[j]? = some t → attempts[k]? = some u →
    ∀ n, (0, n) ∈ t.tickets → (0, n) ∉ u.tickets

/-- Where the attempts of a receiver stand that were not aborted. Those that wait remember their
tickets, and of two attempts for one message the turn of the earlier one comes first. -/
structure Line (p : Processor) (now : Nat) (h : List Record) (g : Gate) (attempts : List Attempt) :
    Prop where
  orderly : g.Orderly
  stands : ∀ (k : Nat) (t : Attempt), attempts[k]? = some t → t.aborted = false →
    t.Stands p now h g
  tickets : ∀ (k : Nat) (t : Attempt) (n : Nat), attempts[k]? = some t → t.Waits p n →
    (0, n) ∈ t.tickets
  turns : ∀ (j k : Nat) (t u : Attempt), j < k → attempts[j]? = some t →
    attempts[k]? = some u → t.delivery.message.id = u.delivery.message.id →
    t.aborted = true ∨ t.Precedes p g u

namespace Line

variable {p : Processor} {now : Nat} {h : List Record} {g g' : Gate} {attempts : List Attempt}

theorem empty (orderly : g.Orderly) : Line p now h g [] where
  orderly := orderly
  stands k t ht := by simp at ht
  tickets k t n ht := by simp at ht
  turns j k t u _ ht := by simp at ht

/-- No two attempts wait under one ticket. -/
theorem apart (line : Line p now h g attempts) (separate : Apart attempts) {j k : Nat}
    {t u : Attempt} {n : Nat} (other : j ≠ k) (ht : attempts[j]? = some t)
    (hu : attempts[k]? = some u) (waits : t.Waits p n) : ¬u.Waits p n :=
  fun waits' => separate j k t u other ht hu n (line.tickets j t n ht waits)
    (line.tickets k u n hu waits')

/-- The gate goes on, and no attempt waits under a ticket that loses its place. -/
theorem advance (line : Line p now h g attempts) (advances : Gate.Advances none g g') :
    Line p now h g' attempts where
  orderly := advances.orderly line.orderly
  stands k t ht kept :=
    (line.stands k t ht kept).imp (fun _ => id) fun n _ => advances.queued n (by simp)
  tickets := line.tickets
  turns j k t u lt ht hu same :=
    (line.turns j k t u lt ht hu same).imp_right
      (·.imp fun n _ => advances.served n (by simp))

/-- Something happens to the queue, but no attempt settles its delivery. -/
theorem record (line : Line p now h g attempts) {h' : List Record}
    (unspent : ∀ (k : Nat) (t : Attempt), attempts[k]? = some t → ¬Spent h' t.delivery.token) :
    Line p now (h ++ h') g attempts where
  orderly := line.orderly
  stands k t ht kept :=
    (line.stands k t ht kept).imp (fun _ settles => settles.append (unspent k t ht)) fun _ _ => id
  tickets := line.tickets
  turns := line.turns

/-- An attempt joins that has not begun. No other attempt can settle a delivery of its message, so
all others for that message have begun. -/
theorem append (line : Line p now h g attempts) {new : Attempt} (fresh : new.Fresh p)
    (settles : Settleable h now new.delivery.token)
    (alone : ∀ (k : Nat) (t : Attempt), attempts[k]? = some t →
      t.delivery.message.id = new.delivery.message.id → ¬Settleable h now t.delivery.token) :
    Line p now h g (attempts ++ [new]) := by
  refine ⟨line.orderly, ?stands, ?tickets, ?turns⟩
  case stands =>
    intro k t ht kept
    obtain ht | ⟨_, rfl⟩ := getElem?_concat_cases ht
    · exact line.stands k t ht kept
    · exact .fresh fresh settles
  case tickets =>
    intro k t n ht waits
    obtain ht | ⟨_, rfl⟩ := getElem?_concat_cases ht
    · exact line.tickets k t n ht waits
    · exact absurd waits fresh.not_waits
  case turns =>
    intro j k t u lt ht hu same
    have before {i : Nat} {v : Attempt} (hv : attempts[i]? = some v) : i < attempts.length :=
      (List.getElem?_eq_some_iff.mp hv).1
    obtain hu' | ⟨rfl, rfl⟩ := getElem?_concat_cases hu
    · obtain ht' | ⟨rfl, rfl⟩ := getElem?_concat_cases ht
      · exact line.turns j k t u lt ht' hu' same
      · exact absurd (before hu') (Nat.lt_asymm lt)
    · obtain ht' | ⟨rfl, _⟩ := getElem?_concat_cases ht
      · cases kept : t.aborted with
        | true => exact .inl rfl
        | false =>
            refine .inr ?_
            cases line.stands j t ht' kept with
            | behind behind => exact .inl behind
            | waits n waits _ =>
                have later : ∀ b, u.Waits p b → n < b :=
                  fun b waits' => absurd waits' fresh.not_waits
                exact .inr ⟨n, waits, .inr ⟨fresh.1, later⟩⟩
            | fresh _ settles' => exact absurd settles' (alone j t ht' same)
      · exact absurd lt (Nat.lt_irrefl _)

/-- An attempt steps, and no other attempt settles its delivery. -/
theorem set (line : Line p now h g attempts) (separate : Apart attempts) {k : Nat}
    {t t' : Attempt} (ht : attempts[k]? = some t) (kept : t.aborted = false)
    (turn : Attempt.Turn p g g' t t') (delivery : t'.delivery = t.delivery)
    (tickets : ∀ n, t'.Waits p n → (0, n) ∈ t'.tickets) {h' : List Record}
    (unspent : ∀ (j : Nat) (u : Attempt), j ≠ k → attempts[j]? = some u →
      ¬Spent h' u.delivery.token) :
    Line p now (h ++ h') g' (attempts.set k t') := by
  obtain ⟨lost, advances, mine⟩ := turn.advances
  have stays {j : Nat} {u : Attempt} {n : Nat} (other : j ≠ k) (hu : attempts[j]? = some u)
      (waits : u.Waits p n) : lost ≠ some n :=
    fun same => line.apart separate other hu ht waits (mine n same)
  refine ⟨advances.orderly line.orderly, ?stands, ?tickets, ?turns⟩
  case stands =>
    intro j u hu going
    obtain ⟨rfl, rfl⟩ | ⟨other, hu'⟩ := getElem?_set_cases ht hu
    · exact turn.stands _ _
    · exact (line.stands j u hu' going).imp
        (fun _ settles => settles.append (unspent j u other hu'))
        fun n waits => advances.queued n (stays other hu' waits)
  case tickets =>
    intro j u n hu waits
    obtain ⟨rfl, rfl⟩ | ⟨_, hu'⟩ := getElem?_set_cases ht hu
    · exact tickets n waits
    · exact line.tickets j u n hu' waits
  case turns =>
    intro i j u v lt hu hv same
    obtain ⟨rfl, rfl⟩ | ⟨hi, hu'⟩ := getElem?_set_cases ht hu
    · obtain ⟨rfl, _⟩ | ⟨hj, hv'⟩ := getElem?_set_cases ht hv
      · exact absurd lt (Nat.lt_irrefl _)
      · rw [delivery] at same
        obtain aborted | behind | ⟨n, waits, _⟩ := line.turns i j t v lt ht hv' same
        · simp [kept] at aborted
        · exact .inr (.inl (turn.behind_of_behind behind).1)
        · exact .inr (.inl (turn.behind_of_waits waits))
    · cases gone : u.aborted with
      | true => exact .inl rfl
      | false =>
          refine .inr ?_
          obtain ⟨rfl, rfl⟩ | ⟨hj, hv'⟩ := getElem?_set_cases ht hv
          · rw [delivery] at same
            obtain aborted | behind | ⟨n, waits, lead⟩ := line.turns i j u t lt hu' ht same
            · simp [gone] at aborted
            · exact .inl behind
            · have queued := (line.stands i u hu' gone).queued waits
              have apart := line.apart separate hi hu' ht waits
              exact .inr ⟨n, waits, turn.keeps_lead line.orderly queued apart lead⟩
          · obtain aborted | precedes := line.turns i j u v lt hu' hv' same
            · simp [gone] at aborted
            · exact precedes.imp fun n waits => advances.served n (stays hi hu' waits)

/-- An attempt is aborted, and the gate goes on with the places of others as they were. -/
theorem abort (line : Line p now h g attempts) (separate : Apart attempts) {k : Nat} {t : Attempt}
    (ht : attempts[k]? = some t) (orderly : g'.Orderly)
    (others : ∀ n, (0, n) ∉ t.tickets →
      (g.Queued n → g'.Queued n) ∧ (g.Served n → g'.Served n)) :
    Line p now h g' (attempts.set k { t with aborted := true }) := by
  have stays {j : Nat} {u : Attempt} {n : Nat} (other : j ≠ k) (hu : attempts[j]? = some u)
      (waits : u.Waits p n) : (g.Queued n → g'.Queued n) ∧ (g.Served n → g'.Served n) :=
    others n (separate j k u t other hu ht n (line.tickets j u n hu waits))
  refine ⟨orderly, ?stands, ?tickets, ?turns⟩
  case stands =>
    intro j u hu kept
    obtain ⟨rfl, rfl⟩ | ⟨other, hu'⟩ := getElem?_set_cases ht hu
    · cases kept
    · exact (line.stands j u hu' kept).imp (fun _ => id) fun n waits => (stays other hu' waits).1
  case tickets =>
    intro j u n hu waits
    obtain ⟨rfl, rfl⟩ | ⟨_, hu'⟩ := getElem?_set_cases ht hu
    · exact line.tickets j t n ht waits
    · exact line.tickets j u n hu' waits
  case turns =>
    intro i j u v lt hu hv same
    obtain ⟨rfl, rfl⟩ | ⟨hi, hu'⟩ := getElem?_set_cases ht hu
    · exact .inl rfl
    · obtain ⟨rfl, rfl⟩ | ⟨_, hv'⟩ := getElem?_set_cases ht hv
      · exact (line.turns i j u t lt hu' ht same).imp_right
          (·.imp fun n waits => (stays hi hu' waits).2)
      · exact (line.turns i j u v lt hu' hv' same).imp_right
          (·.imp fun n waits => (stays hi hu' waits).2)

/-- Time passes while no attempt can go on: every attempt has begun. -/
theorem later (line : Line p now h g attempts) {time : Nat}
    (begun : ∀ (k : Nat) (t : Attempt), attempts[k]? = some t → t.aborted = false →
      ¬t.Fresh p) :
    Line p time h g attempts where
  orderly := line.orderly
  stands k t ht kept :=
    (line.stands k t ht kept).imp (fun fresh => absurd fresh (begun k t ht kept)) fun _ _ => id
  tickets := line.tickets
  turns := line.turns

end Line

end Courier
