import Retrace.Command.Line
import Retrace.Command.Settings
import Retrace.Command.Status
import Retrace.Command.Watch

/-!
# The program

From the command line to the exit code. Commands that go on in time are begun, and then go on or are interrupted.
-/

namespace Retrace.Command

/-- How the program has ended, and what it has printed. -/
structure Exit where
  code : Nat
  out : String
  err : String
  deriving DecidableEq, Repr

/-- The exit after a usage error. -/
def Exit.usage : Exit := ⟨2, "", ""⟩

/-- The exit of a command that has ended. -/
def Exit.of (r : Except Failure Unit × Console) : Exit :=
  match r with
  | (.ok (), c) => ⟨0, c.out, c.err⟩
  | (.error f, c) => ⟨1, c.out, c.err ++ f.report⟩

/-- A run that has been begun: the machine at its start, what is left of its course, and how long it has gone on. -/
structure Trial where
  runner : Run.Runner
  text : String
  start : Machine
  course : Live.Course Machine
  elapsed : Nat := 0

/-- The program at some time. -/
inductive Life where
  | ended (e : Exit) (m : Machine)
  | tracing (t : Trial) (c : Console)
  | watching (w : Watching)

/-- The file for log lines, and the directory of it. -/
def logPlace (s : Surroundings) (settings : LogSettings) : Except Failure (Path × Path) := do
  let file ← match settings.file with
    | some file => pure file
    | none => s.env.logFile
  let dir : Path := match file.parent? with
    | some dir => if dir.raw = [] then .ofString "." else dir
    | none => .ofString "."
  match file.fileName? with
  | some name => return (dir, dir.join ⟨name⟩)
  | none => throw (.rule "Log file path has no file name")

/-- Make the log file while the terminal is in use for something else. -/
def openLog (s : Surroundings) (settings : LogSettings) : Action Unit := do
  let (dir, file) ← Action.ofExcept (logPlace s settings)
  Action.ofJob (Job.makeAllDirs ("Failed to create log directory: " ++ dir.display) dir)
  modify (onMachine fun m => (m.append true file []).toOption.getD m)

/-- The settings of a command, with the quiet period of the command line if it gives one. -/
def withDebounce (c : Config) (ms : Option Nat) : Except Failure Config := do
  match ms with
  | none => return c
  | some ms =>
    let c := { c with session.debounceMs := ms }
    c.validate
    return c

/-- Help. -/
def helpText : String :=
  "livetrace - Trace your code as you type\n\nUsage: lt <COMMAND>\n\nCommands:\n" ++
  "  run     Trace a source file once and print the result\n" ++
  "  watch   Re-trace a source file every time it changes\n" ++
  "  status  Show whether a live session is watching a file\n" ++
  "  config  View and edit configuration\n" ++
  "  help    Print this message or the help of the given subcommand(s)\n\n" ++
  "Options:\n  -h, --help     Print help\n  -V, --version  Print version\n"

/-- Begin to do what is asked for. -/
def begin (s : Surroundings) (r : Request) (c : Console) : Life :=
  let (loaded, m) := (loadSettings s).perform c.machine
  let c := { c with machine := m }
  let settings : Config := match loaded with
    | .ok k => k
    | .error _ => .default
  let simple (a : Action Unit) : Life :=
    let (r, c) := a.perform c
    .ended (.of (r, c)) c.machine
  match r with
  | .help => simple (Action.print helpText)
  | .version => simple (Action.printLine "lt 0.1.0")
  | .listSettings => simple (listSettings s)
  | .getSetting key => simple (getSetting s key)
  | .setSetting key value => simple (setSetting s key value)
  | .showPath create => simple (showPath s create)
  | .showExample => simple showExample
  | .status file => simple (status s file)
  | .trace file driver driverArgs =>
    let a : Action (Run.Runner × String) := do
      let k ← Action.ofExcept loaded
      prepareTrace s k { file, driver, driverArgs := driverArgs.map Bytes.ofString }
    match a.perform c with
    | (.ok (runner, text), c) => .tracing ⟨runner, text, c.machine, runner.alone c.machine text, 0⟩ c
    | (.error f, c) => .ended (.of (.error f, c)) c.machine
  | .watch file driver output ms driverArgs =>
    let a : Action Watching := do
      if output.isNone then openLog s settings.log
      let k ← Action.ofExcept loaded
      let k ← Action.ofExcept (withDebounce k ms)
      startWatch s k { file, driver, driverArgs := driverArgs.map Bytes.ofString } output
    match a.perform c with
    | (.ok w, _) => .watching w
    | (.error f, c) => .ended (.of (.error f, c)) c.machine

namespace Life

/-- The exit, when the program has ended. -/
def exit? : Life → Option Exit
  | .ended e _ => some e
  | _ => none

/-- What the program has printed so far. -/
def out : Life → String
  | .ended e _ => e.out
  | .tracing _ c => c.out
  | .watching w => w.console.out

/-- The machine that the program works on. -/
def machine : Life → Machine
  | .ended _ m => m
  | .tracing _ c => c.machine
  | .watching w => w.console.machine

/-- Somebody else changes the machine. -/
def disturb (f : Machine → Machine) : Life → Life
  | .ended e m => .ended e (f m)
  | .tracing t c => .tracing t (onMachine f c)
  | .watching w => .watching (w.disturb f)

/-- The effects of a course that are due, and the course without them. -/
def takeDue (elapsed : Nat) (c : Live.Course Machine) (m : Machine) : Machine × Live.Course Machine :=
  ((c.effects.filter (·.1 ≤ elapsed)).foldl (fun m e => e.2 m) m,
    { c with effects := c.effects.filter (elapsed < ·.1) })

/-- A run has ended. -/
def conclude (o : RunOutcome) (c : Console) : Life :=
  let (r, c) := (concludeTrace o).perform c
  .ended (.of (r, c)) c.machine

/-- All that can be done without time going on. -/
def settle : Life → Life
  | .tracing t c =>
    let (m, course) := takeDue t.elapsed t.course c.machine
    let c := { c with machine := m }
    match course.ending with
    | some (moment, o) => if moment ≤ t.elapsed then conclude o c else .tracing { t with course } c
    | none => .tracing { t with course } c
  | .watching w => .watching w.settle
  | l => l

/-- Let time go on. -/
def advance (ms : Nat) : Life → Life
  | .tracing t c => settle (.tracing { t with elapsed := t.elapsed + ms } c)
  | .watching w => .watching (w.advance ms)
  | l => l

/-- Let time go on until something is so, but not longer than `fuel` milliseconds. -/
def awaitWithin (goal : Life → Bool) : Nat → Life → Bool × Life
  | 0, l => (goal l.settle, l.settle)
  | fuel + 1, l =>
    let l := l.settle
    if goal l then (true, l) else awaitWithin goal fuel (l.advance 1)

/-- Interrupt the program and let it end. -/
def interrupt : Life → Exit × Machine
  | .ended e m => (e, m)
  | .tracing t c =>
    let course := t.runner.cancelled t.start t.text t.elapsed
    match conclude ((course.ending.map (·.2)).getD .cancelled) { c with machine := course.final c.machine } with
    | .ended e m => (e, m)
    | l => (.usage, l.machine)
  | .watching w =>
    let r := w.interrupt
    (.of r, r.2.machine)

/-- Let the program go on to its end, which it reaches of itself unless it watches. -/
def complete (l : Life) : Exit × Machine :=
  match l with
  | .tracing t c =>
    match conclude ((t.course.ending.map (·.2)).getD .cancelled) { c with machine := t.course.final c.machine } with
    | .ended e m => (e, m)
    | l => (.usage, l.machine)
  | l => l.interrupt

end Life

/-- Begin what a command line asks for. -/
def launch (s : Surroundings) (args : List Bytes) (m : Machine) : Life :=
  match Request.parse? args with
  | some r => begin s r { machine := m }
  | none => .ended .usage m

end Retrace.Command
