import Mathlib.Data.List.Perm.Subperm
import Courier.Proofs.Entries
import Courier.Registry

/-!
# The views of a registry

A registry is asked for its processors in two ways: by a message type, and for the names of all of
them. Both are fed by the same registrations, but only the first forgets. Under a message type there
is the processor registered last; the names are those of every registration that was ever made.

So the names describe the registry as long as no message type is registered twice, and never again
after that (`registered_views`): a name is listed for each processor that was replaced, and one
registered anew under its own name is listed twice.
-/

namespace Courier

namespace Registry

/-! ## Registering -/

@[simp] theorem find?_register (r : Registry) (messageType other : String) (p : Registration) :
    (r.register messageType p).find? other =
      if messageType = other then some p else r.find? other :=
  lookup_set r.registrations messageType other p

@[simp] theorem names_register (r : Registry) (messageType : String) (p : Registration) :
    (r.register messageType p).names = r.names ++ [p.name] :=
  rfl

/-- A registry after some registrations, each of a message type with its processor. -/
def ofRegistrations (calls : List (String × Registration)) : Registry :=
  calls.foldl (fun r call => r.register call.1 call.2) {}

theorem ofRegistrations_concat (calls : List (String × Registration))
    (call : String × Registration) :
    ofRegistrations (calls ++ [call]) = (ofRegistrations calls).register call.1 call.2 := by
  simp only [ofRegistrations, List.foldl_append, List.foldl_cons, List.foldl_nil]

theorem find?_ofRegistrations (messageType : String) (calls : List (String × Registration)) :
    (ofRegistrations calls).find? messageType = latest? messageType calls := by
  induction calls using List.reverseRecOn with
  | nil => rfl
  | append_singleton calls call ih =>
      rw [ofRegistrations_concat, find?_register, latest?_concat, ih]

theorem names_ofRegistrations (calls : List (String × Registration)) :
    (ofRegistrations calls).names = calls.map fun call => call.2.name := by
  induction calls using List.reverseRecOn with
  | nil => rfl
  | append_singleton calls call ih =>
      rw [ofRegistrations_concat, names_register, ih, List.map_append, List.map_singleton]

theorem isRegistered_ofRegistrations (messageType : String)
    (calls : List (String × Registration)) :
    (ofRegistrations calls).isRegistered messageType ↔ messageType ∈ calls.map Prod.fst := by
  rw [isRegistered, find?_ofRegistrations]
  exact isSome_latest?

/-! ## Agreement -/

/-- The names are those of the processors that are registered now for these message types, one for
each, and there are no other message types. -/
structure ListedBy (r : Registry) (types : List String) : Prop where
  once : types.Nodup
  registered : ∀ messageType, messageType ∈ types ↔ r.isRegistered messageType
  named : r.names.map some = types.map fun messageType => (r.find? messageType).map (·.name)

/-- The names are those of the processors that are registered now, one for each message type. -/
def Agrees (r : Registry) : Prop := ∃ types, r.ListedBy types

/-- There are as many names as registrations, and as many registered types as names. So every
registration was of a type of its own. -/
theorem nodup_of_agrees {calls : List (String × Registration)}
    (agrees : (ofRegistrations calls).Agrees) : (calls.map Prod.fst).Nodup := by
  obtain ⟨types, listed⟩ := agrees
  have within : types ⊆ calls.map Prod.fst := by
    intro messageType mem
    exact (isRegistered_ofRegistrations messageType calls).mp ((listed.registered _).mp mem)
  have lengths : types.length = (calls.map Prod.fst).length := by
    have named := congrArg List.length listed.named
    simpa [names_ofRegistrations] using named.symm
  have perm : types.Perm (calls.map Prod.fst) :=
    (listed.once.subperm within).perm_of_length_le (Nat.le_of_eq lengths.symm)
  exact perm.nodup_iff.mp listed.once

theorem listedBy_of_nodup {calls : List (String × Registration)}
    (once : (calls.map Prod.fst).Nodup) :
    (ofRegistrations calls).ListedBy (calls.map Prod.fst) := by
  refine ⟨once, fun messageType => (isRegistered_ofRegistrations messageType calls).symm, ?_⟩
  rw [names_ofRegistrations, List.map_map, List.map_map]
  refine List.map_congr_left fun call mem => ?_
  simp only [Function.comp, find?_ofRegistrations, latest?_of_nodup once mem, Option.map_some]

/-- After any registrations a message type has the processor registered last for it, and the names
are those of all registrations in their order. The names are those of the processors registered
now, one for each message type, exactly if no message type was registered twice; the message types
are then named in the order of their registration. -/
theorem registered_views (calls : List (String × Registration)) :
    (∀ messageType, (ofRegistrations calls).find? messageType = latest? messageType calls) ∧
      (ofRegistrations calls).names = calls.map (fun call => call.2.name) ∧
      ((ofRegistrations calls).Agrees ↔ (calls.map Prod.fst).Nodup) ∧
      ((ofRegistrations calls).Agrees → (ofRegistrations calls).ListedBy (calls.map Prod.fst)) := by
  refine ⟨fun messageType => find?_ofRegistrations messageType calls, names_ofRegistrations calls,
    ⟨nodup_of_agrees, fun once => ⟨_, listedBy_of_nodup once⟩⟩, ?_⟩
  intro agrees
  exact listedBy_of_nodup (nodup_of_agrees agrees)

/-- A processor for some messages, and then another one for the same messages. -/
def replacement : List (String × Registration) :=
  [("u32", { name := "draft" }), ("u32", { name := "final" })]

/-- The names still have the processor that was replaced. -/
theorem replaced_still_named :
    ((ofRegistrations replacement).find? "u32").map (·.name) = some "final" ∧
      (ofRegistrations replacement).names = ["draft", "final"] ∧
      ¬ (ofRegistrations replacement).Agrees := by
  refine ⟨by decide, by decide, ?_⟩
  intro agrees
  exact absurd (nodup_of_agrees agrees) (by decide)

end Registry

end Courier
