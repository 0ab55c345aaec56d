import Retrace.Live.Timeline

/-!
# Scripted runs

Runs whose behaviour is fixed beforehand for each text: how long they take, whether they heed a cancellation, and how
they end.
-/

namespace Retrace.Live

/-- How a scripted run ends unless it is cancelled. -/
inductive Verdict where
  /-- With an output; a run without one gives its text with a mark. -/
  | completed (stdout : Option String) (stderr : String)
  | failed (e : RunFault)
  | cancelled
  deriving DecidableEq, Repr

/-- A scripted run. -/
structure Behaviour where
  delay : Nat := 0
  /-- The run does not heed a cancellation. -/
  stubborn : Bool := false
  verdict : Verdict := .completed none ""
  deriving DecidableEq, Repr

/-- The outcome of a scripted run for a text. -/
def Behaviour.outcome (b : Behaviour) (text : String) : RunOutcome :=
  match b.verdict with
  | .completed stdout stderr => .completed (stdout.getD (text ++ "-trace")) stderr (some 0)
  | .failed e => .failed e
  | .cancelled => .cancelled

/-- The plan of a scripted run. -/
def Behaviour.plan {World : Type} (b : Behaviour) (text : String) : Plan World where
  alone := { ending := some (b.delay, b.outcome text) }
  cancelled t := if b.stubborn then none else some { ending := some (t, .cancelled) }

/-- The behaviours by text, and that for all other texts. -/
structure Script where
  texts : List (String × Behaviour) := []
  fallback : Behaviour := {}
  deriving Repr

/-- The behaviour for a text. -/
def Script.behaviour (s : Script) (text : String) : Behaviour := (s.texts.lookup text).getD s.fallback

end Retrace.Live
