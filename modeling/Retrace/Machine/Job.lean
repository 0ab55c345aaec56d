import Retrace.Machine.Files

/-!
# Jobs

What a program does on a machine. A job that fails leaves what it has done.
-/

namespace Retrace

/-- A job on a machine. -/
abbrev Job (α : Type) := ExceptT Failure (StateM Machine) α

namespace Job

/-- Ask the machine. -/
def ask {α : Type} (question : Machine → α) : Job α := do return question (← get)

/-- A question whose failure is reported in a context. -/
def read {α : Type} (context : String) (question : Machine → Except IoError α) : Job α := do
  match question (← get) with
  | .ok a => return a
  | .error e => throw (.io context e)

/-- A change whose failure is reported in a context. -/
def change (context : String) (act : Machine → Except IoError Machine) : Job Unit := do
  match act (← get) with
  | .ok m => set m
  | .error e => throw (.io context e)

/-- Make a directory with all that is missing above it. -/
def makeAllDirs (context : String) (p : Path) : Job Unit := do
  match (← get).makeAllDirs p with
  | (m, .ok ()) => set m
  | (m, .error e) => set m; throw (.io context e)

/-- A result computed without the machine. -/
def ofExcept {α : Type} : Except Failure α → Job α
  | .ok a => pure a
  | .error e => throw e

/-- Carry out a job. -/
def perform {α : Type} (t : Job α) (m : Machine) : Except Failure α × Machine := t.run m

end Job

end Retrace
