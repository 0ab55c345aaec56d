import Retrace.Failure

/-!
# Runs

How one run of the tracer ended, and what it left.
-/

namespace Retrace

/-- How a run ended, as a word. -/
inductive EndStatus where
  | completed
  | failed
  | cancelled
  deriving DecidableEq, Repr

/-- The word for the status. -/
def EndStatus.text : EndStatus → String
  | .completed => "completed"
  | .failed => "failed"
  | .cancelled => "cancelled"

/-- The end of a run. Only a completed run has output. -/
inductive RunOutcome where
  /-- The tracer ran to its end; it has no exit code when a signal ended it. -/
  | completed (stdout stderr : String) (exitCode : Option Int)
  | failed (e : RunFault)
  | cancelled
  deriving DecidableEq, Repr

namespace RunOutcome

def status : RunOutcome → EndStatus
  | .completed .. => .completed
  | .failed _ => .failed
  | .cancelled => .cancelled

def stdout : RunOutcome → String
  | .completed out _ _ => out
  | _ => ""

def stderr : RunOutcome → String
  | .completed _ err _ => err
  | _ => ""

def exitCode : RunOutcome → Option Int
  | .completed _ _ code => code
  | _ => none

def error : RunOutcome → Option RunFault
  | .failed e => some e
  | _ => none

end RunOutcome

end Retrace
