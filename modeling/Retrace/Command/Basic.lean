import Retrace.Environment
import Retrace.Machine.Job
import Retrace.Output.Style

/-!
# Commands

What the commands have in common: they work on a machine, print, and may fail; what they have printed and done by then
stays.
-/

namespace Retrace

/-- A machine, and what has been printed. -/
structure Console where
  machine : Machine
  out : String := ""
  err : String := ""

/-- What a command finds when it starts. -/
structure Surroundings where
  env : Environment
  /-- The process that carries it out. -/
  pid : Nat
  /-- The time of day in milliseconds. -/
  now : Nat
  isLive : Nat → Bool

/-- What a command does. -/
abbrev Action (α : Type) := ExceptT Failure (StateM Console) α

namespace Action

/-- Carry out a job. -/
def ofJob {α : Type} (j : Job α) : Action α := do
  let c ← get
  let (r, machine) := j.perform c.machine
  set { c with machine }
  match r with
  | .ok a => return a
  | .error e => throw e

/-- A result that needs no machine. -/
def ofExcept {α : Type} : Except Failure α → Action α
  | .ok a => pure a
  | .error e => throw e

/-- Print a text. -/
def print (text : String) : Action Unit := modify fun c => { c with out := c.out ++ text }

/-- Print a line. -/
def printLine (text : String) : Action Unit := print (text ++ "\n")

/-- Print a text where errors go. -/
def printError (text : String) : Action Unit := modify fun c => { c with err := c.err ++ text }

/-- Carry out an action. -/
def perform {α : Type} (a : Action α) (c : Console) : Except Failure α × Console := a.run c

end Action

end Retrace
