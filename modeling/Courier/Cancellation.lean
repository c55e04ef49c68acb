/-!
# Cancellation

Cancellation tokens form a tree. A token is cancelled once it, or a token it descends from, has
been fired; firing a token never reaches the tokens above it. A token knows its line of descent,
so the record of fired tokens is all the state there is.
-/

namespace Courier

/-- A token, given by the numbers of itself and of the tokens it descends from. -/
structure CancelToken where
  lineage : List Nat
  deriving DecidableEq, Inhabited

/-- Which tokens exist and which have been fired. -/
structure Cancellations where
  /-- The number of tokens made so far. -/
  issued : Nat := 0
  fired : List Nat := []

namespace Cancellations

/-- A new token that descends from none. -/
def root (c : Cancellations) : Cancellations × CancelToken :=
  ({ c with issued := c.issued + 1 }, ⟨[c.issued]⟩)

/-- A new token below another. -/
def child (c : Cancellations) (parent : CancelToken) : Cancellations × CancelToken :=
  ({ c with issued := c.issued + 1 }, ⟨c.issued :: parent.lineage⟩)

/-- Fires a token. -/
def cancel (c : Cancellations) (t : CancelToken) : Cancellations :=
  match t.lineage with
  | [] => c
  | self :: _ => { c with fired := self :: c.fired }

/-- Whether the token or one above it has been fired. -/
def isCancelled (c : Cancellations) (t : CancelToken) : Bool := t.lineage.any c.fired.contains

theorem isCancelled_child (c : Cancellations) (parent : CancelToken)
    (h : c.isCancelled parent = true) :
    (c.child parent).1.isCancelled (c.child parent).2 = true := by
  simp only [isCancelled, child, List.any_cons, Bool.or_eq_true]
  exact Or.inr h

end Cancellations

end Courier
