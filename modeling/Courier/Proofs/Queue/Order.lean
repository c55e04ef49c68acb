import Courier.Proofs.Queue.Traffic

/-!
# First come, first served

Messages that come back, abandoned or with an expired lock, go to the end of the line, among those
that nobody has had yet. The latter keep their order all the same: the ids of the messages sent are
those of the messages taken out of the line, in the order in which each was taken first, and then
those of the line that never were (`Queue.InLine`).

To be taken is not yet to be delivered. What a receive takes that breaks off nobody gets, so those
behind it are delivered first.
-/

namespace Courier

open Queue (Record Move Accounts)

namespace Queue

/-! ## The order in which messages are taken -/

/-- The id of the message that was taken out of the line. -/
def Record.taken? : Record → Option String
  | .delivered _ _ d => some d.message.id
  | .stranded _ _ d => some d.message.id
  | .lost _ _ _ s => some s.message.id
  | _ => none

/-- The ids of the messages taken out of the line, each as often as it was. -/
def takings (h : List Record) : List String := h.filterMap Record.taken?

/-- Whether a message was taken out of the line by a receive that broke off. -/
def Missed (h : List Record) (id : String) : Prop :=
  (∃ time lock d, .stranded time lock d ∈ h ∧ d.message.id = id) ∨
    ∃ time lock why s, .lost time lock why s ∈ h ∧ s.message.id = id

@[simp] theorem takings_append (h h' : List Record) : takings (h ++ h') = takings h ++ takings h' :=
  List.filterMap_append

/-- What was taken was delivered, unless the receive broke off. -/
theorem mem_takings {h : List Record} {id : String} (mem : id ∈ takings h) :
    id ∈ (deliveries h).map (·.message.id) ∨ Missed h id := by
  obtain ⟨r, hr, taken⟩ := List.mem_filterMap.mp mem
  cases r with
  | delivered time lock d =>
      cases taken
      exact .inl (List.mem_map_of_mem (mem_deliveries hr))
  | stranded time lock d => exact .inr (.inl ⟨time, lock, d, hr, Option.some.inj taken⟩)
  | lost time lock why s => exact .inr (.inr ⟨time, lock, why, s, hr, Option.some.inj taken⟩)
  | sent | settled => cases taken

theorem mem_takings_iff {h : List Record} {id : String} :
    id ∈ takings h ↔ id ∈ (issues h).map (·.message.id) ∨ id ∈ (losses h).map (·.message.id) := by
  induction h with
  | nil => simp [takings]
  | cons r h ih =>
      cases r <;> simp [takings, Record.taken?] at ih ⊢ <;> rw [ih]
      · exact or_assoc.symm
      · exact or_assoc.symm
      · exact or_left_comm

theorem removeAll_append (xs ys zs : List String) :
    (xs ++ ys).removeAll zs = xs.removeAll zs ++ ys.removeAll zs :=
  List.filter_append xs ys

theorem removeAll_of_subset {xs ys : List String} (h : ∀ x ∈ xs, x ∈ ys) : xs.removeAll ys = [] :=
  List.filter_eq_nil_iff.mpr fun x mem => by simpa using h x mem

theorem removeAll_of_disjoint {xs ys : List String} (h : ∀ x ∈ xs, x ∉ ys) :
    xs.removeAll ys = xs :=
  List.filter_eq_self.mpr fun x mem => by simpa using h x mem

theorem removeAll_concat_of_not_mem {xs ys : List String} {y : String} (h : y ∉ xs) :
    xs.removeAll (ys ++ [y]) = xs.removeAll ys := by
  apply List.filter_congr
  intro x mem
  have apart : x ≠ y := by
    rintro rfl
    exact h mem
  simp [apart]

/-- The messages sent are those that were taken, in the order in which each was taken first, and
then those that were not, in the order of the line. -/
structure InLine (q : Queue) (h : List Record) : Prop where
  accounts : Accounts q (sends h) (issues h) (losses h)
  order : (sends h).map (·.message.id) =
    (takings h).eraseDups ++ (q.ready.map (·.message.id)).removeAll (takings h)

namespace InLine

variable {q q' : Queue} {h h' : List Record}

theorem empty (name : String) (style : TokenStyle) :
    InLine { name := name, tokens := style } [] :=
  ⟨.empty name style, rfl⟩

/-- What was taken had been sent. -/
theorem taken_sent (line : InLine q h) {id : String} (mem : id ∈ takings h) :
    id ∈ (sends h).map (·.message.id) := by
  rw [line.order]
  exact List.mem_append_left _ (List.mem_eraseDups.mpr mem)

/-- What comes back has been taken, so the line of those that were not stays as it is. -/
theorem rejoin (line : InLine q h) (acc : Accounts q' (sends (h ++ h')) (issues (h ++ h'))
      (losses (h ++ h')))
    (sent : sends h' = []) (taken : takings h' = []) {back : List Stored}
    (ready : q'.ready = q.ready ++ back) (known : ∀ s ∈ back, ∃ l ∈ q.locked, s = l.stored) :
    InLine q' (h ++ h') := by
  refine ⟨acc, ?_⟩
  have none_new : (back.map (·.message.id)).removeAll (takings h) = [] := by
    apply removeAll_of_subset
    intro id mem
    obtain ⟨s, hs, rfl⟩ := List.mem_map.mp mem
    obtain ⟨l, hl, rfl⟩ := known s hs
    exact mem_takings_iff.mpr (.inl (List.mem_map.mpr ⟨_, line.accounts.held l hl, rfl⟩))
  rw [sends_append, sent, takings_append, taken, List.append_nil, List.append_nil, line.order,
    ready, List.map_append, removeAll_append, none_new, List.append_nil]

/-- A line that stays as it is. -/
theorem rest (line : InLine q h) (acc : Accounts q' (sends (h ++ h')) (issues (h ++ h'))
      (losses (h ++ h')))
    (sent : sends h' = []) (taken : takings h' = []) (ready : q'.ready = q.ready) :
    InLine q' (h ++ h') :=
  line.rejoin acc sent taken (ready.trans (List.append_nil _).symm) (by simp)

theorem send (line : InLine q h) (o : Outgoing) (acc : Accounts (q.send o).1
      (sends (h ++ [.sent (messageId q.name q.sent) o]))
      (issues (h ++ [.sent (messageId q.name q.sent) o]))
      (losses (h ++ [.sent (messageId q.name q.sent) o]))) :
    InLine (q.send o).1 (h ++ [.sent (messageId q.name q.sent) o]) := by
  refine ⟨acc, ?_⟩
  have unknown : messageId q.name q.sent ∉ takings h := by
    intro mem
    obtain ⟨x, hx, same⟩ := List.mem_map.mp (line.taken_sent mem)
    exact line.accounts.fresh_id hx same
  have ready : (q.send o).1.ready.map (·.message.id) =
      q.ready.map (·.message.id) ++ [messageId q.name q.sent] := by
    simp [Queue.send, messageId]
  have new : [messageId q.name q.sent].removeAll (takings h) = [messageId q.name q.sent] := by
    apply removeAll_of_disjoint
    intro id mem
    rwa [List.mem_singleton.mp mem]
  have none_taken : takings [.sent (messageId q.name q.sent) o] = [] := rfl
  rw [sends_append, takings_append, none_taken, List.append_nil, ready, removeAll_append, new,
    List.map_append, line.order, List.append_assoc]
  rfl

/-- The first of the line is taken. -/
theorem take (line : InLine q h) {s : Stored} {rest : List Stored} {told : Record}
    (acc : Accounts q' (sends (h ++ [told])) (issues (h ++ [told])) (losses (h ++ [told])))
    (ready : q.ready = s :: rest) (after : q'.ready = rest) (sent : sends [told] = [])
    (taken : takings [told] = [s.message.id]) : InLine q' (h ++ [told]) := by
  refine ⟨acc, ?_⟩
  have front : q.ready.map (·.message.id) = [s.message.id] ++ rest.map (·.message.id) := by
    rw [ready, List.map_cons, List.singleton_append]
  have single : s.message.id ∉ rest.map (·.message.id) := by
    have nodup := line.accounts.live_nodup
    rw [live, List.map_append, front] at nodup
    exact (List.nodup_cons.mp nodup.of_append_left).1
  -- the message is taken for the first time just if it was none of those taken before
  have debut : ([s.message.id].removeAll (takings h)).eraseDups =
      [s.message.id].removeAll (takings h) := by
    by_cases known : s.message.id ∈ takings h
    · rw [removeAll_of_subset (by simpa using known)]
      rfl
    · rw [removeAll_of_disjoint (by simpa using known)]
      rfl
  rw [sends_append, sent, List.append_nil, takings_append, taken, after,
    removeAll_concat_of_not_mem single, List.eraseDups_append, debut, line.order, front,
    removeAll_append, List.append_assoc]

/-- No message is taken before one that was sent earlier has been. -/
theorem turn (line : InLine q h) {x y : Stored} (sooner : [x, y].Sublist (sends h))
    {before after : List String} (split : takings h = before ++ y.message.id :: after) :
    x.message.id ∈ before := by
  have pair : [x.message.id, y.message.id].Sublist ((sends h).map (·.message.id)) :=
    sooner.map fun s : Stored => s.message.id
  have nodup := line.accounts.ids_nodup
  have apart : x.message.id ≠ y.message.id := by
    intro same
    have two := pair.nodup nodup
    simp [same] at two
  have parts : (takings h).eraseDups = (before ++ [y.message.id]).eraseDups ++
      (after.removeAll (before ++ [y.message.id])).eraseDups := by
    rw [split, ← List.eraseDups_append, List.append_assoc]
    rfl
  have present : y.message.id ∈ (before ++ [y.message.id]).eraseDups := by
    rw [List.mem_eraseDups]
    simp
  rw [line.order, parts, List.append_assoc] at pair nodup
  have early : x.message.id ∈ (before ++ [y.message.id]).eraseDups := by
    obtain ⟨early, late, cut, inEarly, inLate⟩ := List.sublist_append_iff.mp pair
    cases early with
    | nil =>
        have mem : y.message.id ∈ late := by
          rw [← List.nil_append late, ← cut]
          simp
        exact absurd rfl ((List.nodup_append.mp nodup).2.2 _ present _ (inLate.subset mem))
    | cons id early =>
        obtain ⟨rfl, _⟩ := List.cons.inj cut
        exact inEarly.subset List.mem_cons_self
  rw [List.mem_eraseDups] at early
  obtain early | same := List.mem_append.mp early
  · exact early
  · exact absurd (List.mem_singleton.mp same) apart

end InLine

/-- Every move keeps the line. -/
theorem Move.inLine {now : Nat} {q q' : Queue} {h past : List Record} (move : Move now q h q')
    (line : InLine q past) : InLine q' (past ++ h) := by
  have acc := move.accounts line.accounts
  cases move with
  | still | reorder | refuse => exact line.rest acc rfl rfl rfl
  | reclaim =>
      apply line.rejoin acc rfl rfl rfl
      intro s hs
      obtain ⟨l, hl, rfl⟩ := List.mem_map.mp hs
      exact ⟨l, List.mem_of_mem_filter hl, rfl⟩
  | send o => exact line.send o acc
  | lock lock ready room => exact line.take acc ready rfl rfl rfl
  | strand lock ready room => exact line.take acc ready rfl rfl rfl
  | lose lock why ready past => exact line.take acc ready rfl rfl rfl
  | @settle l how mem alive =>
      cases how with
      | abandon fault =>
          apply line.rejoin acc rfl rfl rfl
          intro s hs
          exact ⟨l, mem, List.mem_singleton.mp hs⟩
      | complete | deadLetter reason => exact line.rest acc rfl rfl rfl

end Queue

namespace Traffic

theorem run_inLine (name : String) (style : TokenStyle) (clock : Clock) (deeds : List Deed) :
    Queue.InLine ((start name style clock).run deeds).1.queue
      ((start name style clock).run deeds).2 :=
  run_preserve (P := fun _ => Queue.InLine) (fun _ move line => move.inLine line)
    (fun line _ => line) deeds (s := start name style clock) (.empty name style)

/-- First come, first served, unless a receive breaks off. Of two messages the one that was sent
later is not delivered before the other one has been, however many came back to the line meanwhile
and in whatever order; but where a receive had taken the other one and broken off, nobody got it.
That has a reason, a lock that would end past the last instant or a count that is full. A receive
that comes to messages, at once or after waiting, comes to the front of the line; and it does so at
once if there is one, unless it is made to fail, the queue is closed, or there is such a reason. -/
theorem first_come_first_served (name : String) (style : TokenStyle) (clock : Clock)
    (deeds : List Deed) :
    let (s, h) := (start name style clock).run deeds
    (∀ x y, [x, y].Sublist (Queue.sends h) → ∀ before time lock d after,
      h = before ++ .delivered time lock d :: after → d.message.id = y.message.id →
        x.message.id ∈ (Queue.deliveries before).map (·.message.id) ∨
          Queue.Missed before x.message.id) ∧
      Queue.Excused h ∧
      (∀ max wait lock ds, (Receiving.start s.queue s.now max wait lock).2 = .batch ds →
        s.queue.Served s.now max ds (Receiving.start s.queue s.now max wait lock).1) ∧
      (∀ r ∈ s.waiting, ∀ ds, (Receiving.resume s.queue s.state.clock r).2 = .batch ds → ds ≠ [] →
        s.queue.Served s.now r.max ds (Receiving.resume s.queue s.state.clock r).1) ∧
      ∀ max wait lock, s.queue.failingReceives = 0 → s.queue.closed = false →
        s.queue.front s.now max ≠ [] →
        (∀ x ∈ s.queue.front s.now max, x.deliveries ≠ Stored.most) →
        s.now + wait.nanoseconds ≤ Instant.last → s.now + lock.nanoseconds ≤ Instant.last →
        ∃ ds, ds ≠ [] ∧ (Receiving.start s.queue s.now max wait lock).2 = .batch ds := by
  refine ⟨?_, run_excused _ deeds, ?_, ?_, ?_⟩
  · intro x y sooner before time lock d after split own
    have takings : Queue.takings ((start name style clock).run deeds).2 =
        Queue.takings before ++ y.message.id :: Queue.takings after := by
      rw [split, Queue.takings_append, ← own]
      rfl
    exact Queue.mem_takings ((run_inLine name style clock deeds).turn sooner takings)
  · intro max wait lock ds received
    exact Receiving.start_served received
  · intro r _ ds received some
    exact Receiving.resume_served received some
  · intro max wait lock working opened some room waits fits
    rw [Receiving.start, Instant.plus?_of_le waits]
    exact Receiving.exists_look working opened some room fits _

/-- The first of two messages is taken by a receive that breaks off, and the second one is delivered
first. -/
theorem lost_message_overtaken :
    let longest : Duration := .ofNanoseconds Duration.limit
    let (_, h) := (start "q" .numbered {}).run
      [.act (.send { body := [] }), .act (.send { body := [] }), .receive 1 .zero longest,
        .receive 1 .zero (.ofMilliseconds 5)]
    (Queue.sends h).map (·.message.id) = ["q-1", "q-2"] ∧
      (Queue.deliveries h).map (·.message.id) = ["q-2"] := by
  decide +kernel

/-- Two messages are received together, a third one is sent, both locks expire, and they come back
in the other order, behind the third. -/
example :
    let first := ((start "q" .numbered { resolution := 1 }).run
      [.act (.send { body := [] }), .act (.send { body := [] }),
        .receive 2 .zero (.ofNanoseconds 5), .act (.send { body := [] }), .pass 5]).1
    let second := first.run [.reorder first.queue.locked.reverse, .receive 9 .zero .zero]
    (Queue.deliveries second.2).map (·.message.id) = ["q-3", "q-2", "q-1"] := by
  decide +kernel

end Traffic

end Courier
