import Retrace.Config.Basic
import Retrace.Environment
import Retrace.Launch.Invocation
import Retrace.Machine.Files
import Retrace.Path.ModuleName

/-!
# Building command lines

From the tracer's settings and a source file to the command line that traces it. Without a driver script the tracer
runs the source itself; with one it runs the script and traces the source when the script imports it. What is wrong
is reported in a fixed order: source, working directory, interpreter, driver, search path.
-/

namespace Retrace

/-- A source file to be traced, perhaps through a driver script, in a working directory. -/
structure TraceTarget where
  main : Path
  driver : Option Path := none
  driverArgs : List Bytes := []
  workingDir : Path
  deriving Repr

namespace Launch

/-- The variable that holds the search path of the interpreter. -/
def searchVariable : Bytes := Bytes.ofString "PYTHONPATH"

/-- The program called `name`: a path is taken as it is, a bare name is looked up in the directories of the search
path; only what is a file counts. -/
def findProgram (m : Machine) (env : Environment) (name : Bytes) : Option Path :=
  let candidate : Path := ⟨name⟩
  if 1 < candidate.components.length then
    if m.isFile candidate then some candidate else none
  else
    match env.get? "PATH" with
    | none => none
    | some dirs => ((SearchPath.split dirs).map (·.join candidate)).find? m.isFile

/-- Two paths to one file, or two spellings of one path when one of them leads nowhere. -/
def sameFile (m : Machine) (p q : Path) : Bool :=
  match m.canonicalize p, m.canonicalize q with
  | .ok a, .ok b => a.same b
  | _, _ => p.same q

/-- The driver script, unless it is the source file itself. -/
def effectiveDriver (m : Machine) (t : TraceTarget) : Option Path :=
  t.driver.filter fun d => !sameFile m d t.main

/-- What the tracer shows when the driver never imports the module. -/
def idleDriverMessage (driver : Path) (module : String) : String :=
  (driver.fileName?.map Utf8.lossy).getD driver.display ++ " doesn't call the " ++ module ++
    " module. Try a different driver."

/-- The arguments for a driver script. -/
def driverArgs (t : TraceTarget) (driver : Path) : List Bytes :=
  let module := t.main.moduleName t.workingDir
  [Bytes.ofString "--bad_driver", Bytes.ofString (idleDriverMessage driver module), Bytes.ofString "-",
    Bytes.ofString module, driver.raw] ++ t.driverArgs

/-- The directory of a script, a bare name standing in the working directory. -/
def scriptDir (t : TraceTarget) (script : Path) : Option Path :=
  script.parent?.map fun dir => if dir.raw = [] then t.workingDir else dir

/-- The directories that the interpreter searches for modules. -/
def searchDirs (c : TracerSettings) (t : TraceTarget) (script : Path) : List Path :=
  c.searchPath ++ (scriptDir t script).toList

/-- The command line that traces a source file. -/
def build (m : Machine) (env : Environment) (c : TracerSettings) (t : TraceTarget) : Except LaunchFault Invocation :=
  if !m.isFile t.main then .error (.missingSource t.main)
  else if !m.isDir t.workingDir then .error (.invalidWorkingDir t.workingDir)
  else
    match findProgram m env (Bytes.ofString c.interpreter) with
    | none => .error (.interpreterNotFound c.interpreter)
    | some program =>
      let driver := effectiveDriver m t
      match driver.filter (!m.isFile ·) with
      | some d => .error (.invalidDriver d "file not found")
      | none =>
        match SearchPath.join? (searchDirs c t (driver.getD t.main)) with
        | none => .error (.invalidSearchPath "path segment contains separator `:`")
        | some dirs =>
          .ok {
            program := program.raw
            args := [Bytes.ofString "-m", Bytes.ofString c.module] ++ (driver.map (driverArgs t)).getD []
            workingDir := some t.workingDir
            env := setVariable searchVariable dirs [] }

end Launch

end Retrace
