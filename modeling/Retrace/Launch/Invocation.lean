import Retrace.Path.Basic

/-!
# Invocations

What is needed to start a program: its name, arguments, working directory, and the environment variables set on top
of the inherited ones, kept in the order of their names.
-/

namespace Retrace

/-- A smaller byte at the first difference, or an earlier end. -/
def Bytes.before : Bytes → Bytes → Bool
  | _, [] => false
  | [], _ :: _ => true
  | a :: as, b :: bs => a < b || (a == b && before as bs)

/-- The variables with `name` set to `value`, each name once and in order. -/
def setVariable (name value : Bytes) : List (Bytes × Bytes) → List (Bytes × Bytes)
  | [] => [(name, value)]
  | (n, v) :: rest =>
    if n = name then (name, value) :: rest
    else if name.before n then (name, value) :: (n, v) :: rest
    else (n, v) :: setVariable name value rest

/-- How to start a program. -/
structure Invocation where
  program : Bytes
  args : List Bytes := []
  workingDir : Option Path := none
  env : List (Bytes × Bytes) := []
  deriving DecidableEq, Repr

namespace Invocation

/-- With further arguments. -/
def withArgs (s : Invocation) (args : List Bytes) : Invocation := { s with args := s.args ++ args }

/-- In a working directory. -/
def inDir (s : Invocation) (dir : Path) : Invocation := { s with workingDir := some dir }

/-- With a variable set. -/
def withVariable (s : Invocation) (name value : Bytes) : Invocation := { s with env := setVariable name value s.env }

/-- The value set for a variable. -/
def lookup? (s : Invocation) (name : Bytes) : Option Bytes := s.env.lookup name

/-- The words of the command line with blanks between, nothing quoted. -/
def display (s : Invocation) : String := " ".intercalate ((s.program :: s.args).map Utf8.lossy)

end Invocation

end Retrace
