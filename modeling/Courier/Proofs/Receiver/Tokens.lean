import Courier.Proofs.Places
import Courier.Proofs.Plant.Upkeep

/-!
# Tokens of loops and attempts

Every attempt is handled under a token right below that of its loop, and both keep their tokens
(`Station.Kin`). So when a loop is cancelled, all of its attempts are.
-/

namespace Courier

namespace Site

theorem perform_token (s : Site) (e : Effect) :
    (s.perform e).1.handling.token = s.handling.token := by
  cases e with
  | settle how =>
      simp only [perform, settle]
      split <;> rfl
  | enter gate ticket =>
      simp only [perform, enter]
      split <;> rfl
  | _ => rfl

theorem Follows.token {s s' : Site} {events : List Event} (h : s.Follows events s') :
    s'.handling.token = s.handling.token := by
  induction h with
  | refl => rfl
  | settled _ _ ih => exact ih
  | called _ _ ih => rw [ih, perform_token]
  | waited _ _ ih => exact ih

end Site

theorem Cancellations.isCancelled_of_parent {c : Cancellations} {child parent : CancelToken}
    (below : child.IsChild parent) (cancelled : c.isCancelled parent = true) :
    c.isCancelled child = true := by
  obtain ⟨n, lineage⟩ := below
  rw [isCancelled, lineage, List.any_cons]
  exact Bool.or_eq_true_iff.mpr (.inr cancelled)

namespace Station

/-- Each attempt has a token below that of its loop, and loops have tokens that can be fired. -/
structure Kin (s : Station) : Prop where
  loops : ∀ l ∈ s.loops, l.token.lineage ≠ []
  attempts : ∀ t ∈ s.attempts, ∃ l, s.loops[t.loop]? = some l ∧ t.handling.token.IsChild l.token

/-- Loops keep their tokens. -/
theorem LoopStep.keeps_token {s s' : Station} {a a' : Ambient} {i : Nat} {l l' : ReceiveLoop}
    {made : List Attempt} (step : s.LoopStep a a' s' i l l' made) {j : Nat} {m : ReceiveLoop}
    (hm : s.loops[j]? = some m) : ∃ m', s'.loops[j]? = some m' ∧ m'.token = m.token := by
  rw [step.loops]
  by_cases here : i = j
  · subst here
    obtain rfl := Option.some.inj (step.was.symm.trans hm)
    exact ⟨l', List.getElem?_set_self (List.getElem?_eq_some_iff.mp hm).1, step.token⟩
  · exact ⟨m, (List.getElem?_set_ne here).trans hm, rfl⟩

namespace Kin

variable {s s' : Station} {a a' : Ambient} {i k : Nat}

/-- What a loop makes is below its own token. -/
theorem loop (kin : s.Kin) {l l' : ReceiveLoop} {made : List Attempt}
    (step : s.LoopStep a a' s' i l l' made) : s'.Kin := by
  have attempts : s'.attempts = s.attempts ++ made := step.accepted.attempts
  refine ⟨fun m mem => ?_, fun t mem => ?_⟩
  · rw [step.loops] at mem
    obtain old | rfl := List.mem_or_eq_of_mem_set mem
    · exact kin.loops m old
    · rw [step.token]
      exact kin.loops l (List.mem_of_getElem? step.was)
  · have known : ∃ m, s.loops[t.loop]? = some m ∧ t.handling.token.IsChild m.token := by
      rw [attempts] at mem
      obtain old | new := List.mem_append.mp mem
      · exact kin.attempts t old
      · exact ⟨l, (step.accepted.new t new).loop ▸ step.was, step.below t new⟩
    obtain ⟨m, hm, below⟩ := known
    obtain ⟨m', hm', token⟩ := step.keeps_token hm
    exact ⟨m', hm', token ▸ below⟩

theorem abort (kin : s.Kin) (abort : s.Abort a a' s') : s'.Kin where
  loops := abort.loops ▸ kin.loops
  attempts t mem := by
    obtain ⟨k, ht⟩ := List.mem_iff_getElem?.mp mem
    obtain ⟨u, hu, same⟩ := abort.attempt_before ht
    rw [abort.loops, same]
    exact kin.attempts u (List.mem_of_getElem? hu)

theorem attempt (kin : s.Kin) {t : Attempt} (ht : s.attempts[k]? = some t) (premises : Premises) :
    ({ s with premises := premises, attempts := s.attempts.set k (s.resumed a t) } :
      Station).Kin where
  loops := kin.loops
  attempts u mem := by
    obtain old | rfl := List.mem_or_eq_of_mem_set mem
    · exact kin.attempts u old
    · obtain ⟨l, hl, below⟩ := kin.attempts t (List.mem_of_getElem? ht)
      refine ⟨l, hl, ?_⟩
      obtain ⟨_, follows⟩ := t.program.resume_runs (s.site a t)
      have token : (s.resumed a t).handling.token = t.handling.token := follows.token
      rwa [token]

/-- A new loop gets a token of its own. -/
theorem begun (kin : s.Kin) (a : Ambient) (parent : CancelToken) :
    ({ s with
      loops := s.loops ++ [{ token := (a.child parent).2 }]
      running := some s.loops.length } : Station).Kin where
  loops l mem := by
    obtain old | new := List.mem_append.mp mem
    · exact kin.loops l old
    · obtain rfl := List.mem_singleton.mp new
      exact List.cons_ne_nil _ _
  attempts t mem := by
    obtain ⟨l, hl, below⟩ := kin.attempts t mem
    exact ⟨l, getElem?_append_of_some hl _, below⟩

end Kin

end Station

namespace Duty

/-- Tokens stay where they are, whatever is done. -/
theorem happens_kin {s s' : Duty} {deed : Deed} {h' : List Occurrence} (kin : s.station.Kin)
    (happens : s.Happens deed s' h') : s'.station.Kin := by
  cases happens with
  | loop step after =>
      exact after.aborts.preserve (P := fun _ s' => s'.Kin) (fun abort kin => kin.abort abort)
        (kin.loop step)
  | attempt ht => exact kin.attempt ht _
  | start => exact kin.begun s.ambient _
  | stop | closeGate | queue | elsewhere | idle => exact ⟨kin.loops, kin.attempts⟩

theorem run_kin {s : Duty} (kin : s.station.Kin) (deeds : List Deed) :
    (s.run deeds).1.station.Kin :=
  run_induction (P := fun _ s' _ => s'.station.Kin) kin
    (fun _ _ _ _ _ _ _ happens kin => happens_kin kin happens) deeds

end Duty

end Courier
