/-!
# Clocks and tokens

Every run has a token of its own, which goes from active to cancelled once and never back. Clones of a token are
the same token, and clones of a clock count on together.
-/

namespace Retrace

/-- The number that a clock gives to a run. -/
abbrev Generation := UInt64

/-- A handle of a clock; its clones are equal to it. -/
structure Clock where
  id : Nat
  deriving DecidableEq, Repr

/-- A handle of a token; its clones are equal to it. -/
structure Token where
  id : Nat
  generation : Generation
  deriving DecidableEq, Repr

/-- What the handles share: how far each clock has counted, and which tokens are cancelled. -/
structure Registry where
  counts : Array Generation := #[]
  cancelled : Array Bool := #[]
  deriving DecidableEq, Repr

namespace Registry

/-- A new clock, which has not counted yet. -/
def newClock (r : Registry) : Clock × Registry :=
  (⟨r.counts.size⟩, { r with counts := r.counts.push 0 })

/-- How far a clock has counted. -/
def count (r : Registry) (c : Clock) : Generation := r.counts.getD c.id 0

/-- The next generation of a clock, counted from one. -/
def next (r : Registry) (c : Clock) : Generation × Registry :=
  let g := r.count c + 1
  (g, { r with counts := r.counts.setIfInBounds c.id g })

/-- A new, active token with a given generation. -/
def newToken (r : Registry) (g : Generation) : Token × Registry :=
  (⟨r.cancelled.size, g⟩, { r with cancelled := r.cancelled.push false })

/-- A new, active token with the next generation of a clock. -/
def mint (r : Registry) (c : Clock) : Token × Registry :=
  let (g, r) := r.next c
  r.newToken g

/-- Cancel a token and with it all its clones. -/
def cancel (r : Registry) (t : Token) : Registry :=
  { r with cancelled := r.cancelled.setIfInBounds t.id true }

/-- The token has been cancelled. -/
def isCancelled (r : Registry) (t : Token) : Bool := r.cancelled.getD t.id false

/-- The run of the token is still wanted. -/
def isActive (r : Registry) (t : Token) : Bool := !r.isCancelled t

end Registry

end Retrace
