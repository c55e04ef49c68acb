import Courier.Proofs.Receiver.Deeds

/-!
# What steps leave alone in their surroundings

No step of a loop or of an attempt changes the health of the host or its token, takes back a
cancellation, or moves the clock back (`Ambient.Keeps`).
-/

namespace Courier

/-! ## Surroundings -/

theorem Cancellations.isCancelled_mono {c c' : Cancellations} (more : c.fired ⊆ c'.fired)
    {t : CancelToken} (cancelled : c.isCancelled t = true) : c'.isCancelled t = true := by
  obtain ⟨n, mem, fired⟩ := List.any_eq_true.mp cancelled
  exact List.any_eq_true.mpr ⟨n, mem, by simpa using more (by simpa using fired)⟩

theorem Cancellations.fired_cancel (c : Cancellations) (t : CancelToken) :
    c.fired ⊆ (c.cancel t).fired := by
  unfold cancel
  split
  · exact List.Subset.refl _
  · exact List.subset_cons_self _ _

/-- A token that is fired is cancelled, unless it is no token at all. -/
theorem Cancellations.isCancelled_cancel (c : Cancellations) {t : CancelToken}
    (real : t.lineage ≠ []) : (c.cancel t).isCancelled t = true := by
  unfold cancel isCancelled
  cases line : t.lineage with
  | nil => exact absurd line real
  | cons self rest => simp

namespace Ambient

/-- What no step changes in the surroundings. What is cancelled stays so, and the clock does not go
back. -/
structure Keeps (a a' : Ambient) : Prop where
  now : a.now ≤ a'.now
  resolution : a'.clock.resolution = a.clock.resolution
  health : a'.controller.health = a.controller.health
  token : a'.controller.token = a.controller.token
  fired : a.cancellations.fired ⊆ a'.cancellations.fired

variable {a a' a'' : Ambient}

namespace Keeps

@[refl] theorem refl (a : Ambient) : Keeps a a := ⟨Nat.le_refl _, rfl, rfl, rfl, List.Subset.refl _⟩

@[trans] theorem trans (first : Keeps a a') (second : Keeps a' a'') : Keeps a a'' where
  now := Nat.le_trans first.now second.now
  resolution := second.resolution.trans first.resolution
  health := second.health.trans first.health
  token := second.token.trans first.token
  fired := List.Subset.trans first.fired second.fired

/-- Only what is told changes. -/
theorem of_eq (clock : a'.clock = a.clock) (controller : a'.controller = a.controller)
    (cancellations : a'.cancellations = a.cancellations) : Keeps a a' where
  now := Nat.le_of_eq (congrArg Clock.now clock.symm)
  resolution := congrArg Clock.resolution clock
  health := by rw [controller]
  token := by rw [controller]
  fired := by rw [cancellations]; exact List.Subset.refl _

theorem cancel (a : Ambient) (t : CancelToken) : Keeps a (a.cancel t) :=
  { Keeps.refl a with fired := a.cancellations.fired_cancel t }

theorem child (a : Ambient) (t : CancelToken) : Keeps a (a.child t).1 :=
  { Keeps.refl a with }

theorem enter (a : Ambient) : Keeps a { a with controller := a.controller.enter } :=
  { Keeps.refl a with }

theorem leave (a : Ambient) : Keeps a { a with controller := a.controller.leave } :=
  { Keeps.refl a with }

theorem advance (a : Ambient) (t : Nat) : Keeps a { a with clock := a.clock.advanceTo t } :=
  { Keeps.refl a with now := Nat.le_max_left a.clock.now t }

end Keeps

end Ambient

open Ambient (Keeps)

theorem Site.perform_keeps (s : Site) (e : Effect) : s.ambient.Keeps (s.perform e).1.ambient := by
  cases e with
  | settle how =>
      simp only [perform, settle]
      split <;> exact .refl _
  | enter gate ticket =>
      simp only [perform, enter]
      split <;> exact .refl _
  | cancel => exact .cancel _ _
  | note => exact .of_eq rfl rfl rfl
  | count => exact .of_eq rfl rfl rfl
  | span => exact .of_eq rfl rfl rfl
  | journal => exact .of_eq rfl rfl rfl
  | _ => exact .refl _

theorem Site.Follows.keeps {s s' : Site} {events : List Event} (follows : s.Follows events s') :
    s.ambient.Keeps s'.ambient := by
  induction follows with
  | refl => exact .refl _
  | settled _ _ ih => exact ih
  | called _ _ ih => exact (Site.perform_keeps _ _).trans ih
  | waited _ _ ih => exact ih

/-! ## Receivers -/

namespace Station

variable {s s' : Station} {a a' : Ambient}

theorem reject_keeps (s : Station) (a : Ambient) (d : Delivery) (f : CodecFault) :
    a.Keeps (s.reject a d f).1 := by
  simp only [reject]
  split <;> exact .of_eq rfl rfl rfl

theorem dispatch_keeps (s : Station) (a : Ambient) (i : Nat) (l : ReceiveLoop) (d : Delivery)
    (payload : Payload) : a.Keeps (s.dispatch a i l d payload).1 :=
  (Keeps.child a l.token).trans (.enter _)

theorem acceptAll_keeps (i : Nat) (l : ReceiveLoop) (a : Ambient) (s : Station)
    (ds : List Delivery) : a.Keeps (acceptAll i l a s ds).1 := by
  induction ds generalizing a s with
  | nil => exact .refl a
  | cons d rest ih =>
      simp only [acceptAll]
      cases s.decode d.message with
      | ok payload => exact (s.dispatch_keeps a i l d payload).trans (ih _ _)
      | error f => exact (s.reject_keeps a d f).trans (ih _ _)

theorem hear_keeps (a : Ambient) (s : Station) (i : Nat) (l : ReceiveLoop)
    (seen : Queue × Receiving.Outcome) : a.Keeps (hear a s i l seen).1 := by
  obtain ⟨q, o⟩ := seen
  cases o with
  | waiting | overflow => exact .refl a
  | batch ds => exact acceptAll_keeps i l a _ ds
  | failed f => cases f <;> exact .of_eq rfl rfl rfl

theorem Abort.keeps (abort : Abort a s a' s') : a.Keeps a' := by
  cases abort
  exact { Keeps.refl a with }

theorem stepLoop_keeps {i : Nat} (step : s.stepLoop a i = some (a', s')) : a.Keeps a' := by
  obtain ⟨a₁, s₁, after, cases⟩ := stepLoop_cases step
  have stepped : a.Keeps a₁ := by
    obtain ⟨_, still, _⟩ | ⟨_, seen, l, _, heard⟩ := cases
    · obtain rfl | ⟨n, rfl⟩ := still
      · exact .refl _
      · exact .of_eq rfl rfl rfl
    · obtain rfl : a₁ = (hear a s i l seen).1 := congrArg Prod.fst heard
      exact hear_keeps a s i l seen
  exact after.aborts.preserve (P := fun a' _ => a.Keeps a')
    (fun abort keeps => keeps.trans abort.keeps)
    stepped

theorem stepAttempt_keeps {k : Nat} (step : s.stepAttempt a k = some (a', s')) : a.Keeps a' := by
  unfold stepAttempt at step
  split at step
  · simp at step
  · rename_i t found
    obtain ⟨_, follows⟩ := t.program.resume_runs (s.site a t)
    have site : a.Keeps (t.program.resume (s.site a t)).1.ambient := follows.keeps
    split at step
    · simp at step
    · split at step
      · cases step
        split
        · exact site.trans (.leave _)
        · exact site
      · simp at step

end Station

end Courier
