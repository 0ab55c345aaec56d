import Retrace.Command.Basic
import Retrace.Config.Basic
import Retrace.Launch.Build
import Retrace.Run.Process
import Retrace.Source

/-!
# Tracing once

Trace a file as it is and print what the tracer prints.
-/

namespace Retrace.Command

open Output (Style)

/-- What is to be traced, and how. -/
structure Tracing where
  file : Path
  driver : Option Path := none
  driverArgs : List Bytes := []
  deriving DecidableEq, Repr

/-- The command line for a source file. -/
def Tracing.launch (t : Tracing) (s : Surroundings) (c : Config) (source : Path) : Job Invocation := do
  let m ← get
  let target : TraceTarget :=
    { main := source, driver := t.driver, driverArgs := t.driverArgs, workingDir := m.cwd.path }
  match Launch.build m s.env c.tracer target with
  | .ok spec => return spec
  | .error e => throw ⟨[], .launch e⟩

/-- What runs the tracer. -/
def runnerFor (s : Surroundings) (c : Config) (spec : Invocation) : Run.Runner :=
  { spec, env := s.env, grace := c.session.killGraceMs }

/-- Get ready for a run: what runs it, and the text. -/
def prepareTrace (s : Surroundings) (c : Config) (t : Tracing) : Action (Run.Runner × String) := do
  let source ← Action.ofJob (Source.resolve t.file)
  let text ← Action.ofJob (Source.readText source)
  let spec ← Action.ofJob (t.launch s c source)
  return (runnerFor s c spec, text)

/-- Print what a run has left, or fail as it has failed. -/
def concludeTrace (o : RunOutcome) : Action Unit :=
  match o with
  | .completed out err _ => do
    Action.print out
    if err ≠ "" then Action.printError (Style.dimmed.apply err)
  | .failed e => throw ⟨["Trace run failed"], .run e⟩
  | .cancelled => throw (.rule "Trace cancelled")

/-- Trace a file once. -/
def trace (s : Surroundings) (c : Config) (t : Tracing) : Action Unit := do
  let (runner, text) ← prepareTrace s c t
  let m := (← get).machine
  let course := runner.alone m text
  modify fun k => { k with machine := course.final k.machine }
  concludeTrace ((course.ending.map (·.2)).getD .cancelled)

end Retrace.Command
