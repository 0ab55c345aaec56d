import Retrace.Machine.Errno
import Retrace.Path.Basic
import Retrace.Text.Natural

/-!
# Failures

The causes of failure, and the failure a command reports: a cause below the contexts in which it arose.
-/

namespace Retrace

/-- Kinds of input and output errors that have a name of their own. -/
inductive IoKind where
  | notFound
  | permissionDenied
  | brokenPipe
  | other
  deriving DecidableEq, Repr

/-- The wording of a kind without further message. -/
def IoKind.text : IoKind → String
  | .notFound => "entity not found"
  | .permissionDenied => "permission denied"
  | .brokenPipe => "broken pipe"
  | .other => "other error"

/-- An error in reading, writing or starting something. -/
inductive IoError where
  | os (e : Errno)
  | named (kind : IoKind) (message : Option String)
  | nulInName
  | nulInArgument
  | notText
  deriving DecidableEq, Repr

/-- The wording of the error. -/
def IoError.text : IoError → String
  | .os e => e.text ++ " (os error " ++ toString e.code ++ ")"
  | .named kind message => message.getD kind.text
  | .nulInName => "file name contained an unexpected NUL byte"
  | .nulInArgument => "nul byte found in provided data"
  | .notText => "stream did not contain valid UTF-8"

/-- The part of a run that failed. -/
inductive RunStage where
  | spawn
  | input
  | output
  | wait
  deriving DecidableEq, Repr

/-- Why a run has no result. -/
structure RunFault where
  stage : RunStage
  io : IoError
  deriving DecidableEq, Repr

/-- The wording of the error. -/
def RunFault.message (e : RunFault) : String :=
  (match e.stage with
    | .spawn => "failed to spawn trace process: "
    | .input => "failed to write source to trace process: "
    | .output => "failed to read trace process output: "
    | .wait => "failed to wait for trace process: ") ++ e.io.text

/-- Why no command line can be built. -/
inductive LaunchFault where
  | missingSource (file : Path)
  | interpreterNotFound (name : String)
  | invalidDriver (file : Path) (reason : String)
  | invalidWorkingDir (dir : Path)
  | invalidSearchPath (reason : String)
  deriving DecidableEq, Repr

/-- The wording of the error. -/
def LaunchFault.message : LaunchFault → String
  | .missingSource file => "source file not found: " ++ file.display
  | .interpreterNotFound name => "interpreter not found: " ++ name
  | .invalidDriver file reason => "invalid driver script " ++ file.display ++ ": " ++ reason
  | .invalidWorkingDir dir => "working directory is not a directory: " ++ dir.display
  | .invalidSearchPath reason => "invalid module search path: " ++ reason

/-- What a failure goes back to. -/
inductive Cause where
  /-- A rule of the program was broken; the text says which. -/
  | rule (text : String)
  | io (e : IoError)
  | natural (e : Text.NaturalError)
  /-- The settings cannot be read from, or written as, text. -/
  | settingsText
  /-- The contents of a lock file cannot be read from, or written as, text. -/
  | lockText
  | launch (e : LaunchFault)
  | run (e : RunFault)
  deriving DecidableEq, Repr

/-- The wording of a cause, from the outside in. The words of a reader or writer of a format are left to it. -/
def Cause.texts : Cause → List String
  | .rule text => [text]
  | .io e => [e.text]
  | .natural e => [e.message]
  | .settingsText | .lockText => []
  | .launch e => [e.message]
  | .run e => [e.message, e.io.text]

/-- A failure: its cause and the contexts around it, outermost first. -/
structure Failure where
  contexts : List String
  cause : Cause
  deriving DecidableEq, Repr

namespace Failure

/-- A broken rule without context. -/
def rule (text : String) : Failure := ⟨[], .rule text⟩

/-- What a scheduler that has been shut down answers. -/
def shutDown : String := "scheduler has been shut down"

/-- The failure seen from a wider context. -/
def within (context : String) (f : Failure) : Failure := { f with contexts := context :: f.contexts }

/-- All texts, outermost first. -/
def texts (f : Failure) : List String := f.contexts ++ f.cause.texts

/-- An input or output error in a context. -/
def io (context : String) (e : IoError) : Failure := ⟨[context], .io e⟩

/-- A text whose further lines are moved in by `margin`. -/
def indented (margin text : String) : String := ("\n" ++ margin).intercalate (text.splitOn "\n")

/-- Causes numbered from `n`, a line each; the further lines of a cause stand under its text. -/
def numbered : Nat → List String → String
  | _, [] => ""
  | n, t :: ts => "    " ++ toString n ++ ": " ++ indented "       " t ++ "\n" ++ numbered (n + 1) ts

/-- The report at the end of a failed command. -/
def report (f : Failure) : String :=
  match f.texts with
  | [] => "Error: \n"
  | [t] => "Error: " ++ t ++ "\n"
  | [t, c] => "Error: " ++ t ++ "\n\nCaused by:\n    " ++ indented "    " c ++ "\n"
  | t :: cs => "Error: " ++ t ++ "\n\nCaused by:\n" ++ numbered 0 cs

end Failure

end Retrace
