import Retrace.Environment
import Retrace.Launch.Invocation
import Retrace.Live.Timeline
import Retrace.Run.Supervision
import Retrace.Shell.Course

/-!
# Runs of programs

A run that starts a program, feeds it a text and supervises it.
-/

namespace Retrace.Run

/-- How programs are run. -/
structure Runner where
  spec : Invocation
  /-- What the program inherits. -/
  env : Environment
  /-- How long it may take to stop. -/
  grace : Nat

namespace Runner

/-- The longest name of a program that is looked for. -/
def longestName : Nat := 255

/-- The environment of the program. -/
def environment (r : Runner) : Environment := r.spec.env.foldl (fun env (k, v) => setVariable k v env) r.env

/-- The directory that the program works in. -/
def workingDir (r : Runner) (m : Machine) : Except IoError Path :=
  match r.spec.workingDir with
  | none => .ok m.cwd.path
  | some p => do
    let place ← m.find p
    match m.tree.node place.ino with
    | .dir _ => .ok place.path
    | _ => .error (.os .ENOTDIR)

/-- The tool that is started for the program at a path. With `lenient`, a program that the system cannot start itself is
a script for the shell. -/
def loadAt (r : Runner) (m : Machine) (dir : Path) (lenient : Bool) (p : Path) :
    Except IoError (Shell.Raw × List Shell.Raw) := do
  let argv := (r.spec.program :: r.spec.args).map Shell.Raw.ofBytes
  let env := r.environment.map fun (k, v) => (Shell.Raw.ofBytes k, Shell.Raw.ofBytes v)
  let _ ← m.image (if p.raw = [] then p else dir.join p)
  if Shell.isTooMuch argv env then .error (.os .E2BIG)
  else if lenient then m.loadAny dir p argv
  else m.load dir Machine.mostScripts p argv

/-- Start the program: its directory, and the tool that it is with its arguments. A program without slashes is looked
for along the search path; only where a run sets that itself may it be a script for the shell. -/
def spawn (r : Runner) (m : Machine) : Except IoError (Path × Shell.Raw × List Shell.Raw) := do
  let words := r.spec.program :: r.spec.args ++ r.spec.env.flatMap fun (k, v) => [k, v]
  if words.any (·.contains 0) ∨ (r.spec.workingDir.map (·.raw.contains 0)).getD false then
    .error .nulInArgument
  else
    let dir ← r.workingDir m
    let name := r.spec.program
    let (tool, argv) ←
      if name = [] then .error (.os .ENOENT)
      else if name.contains Path.slash then r.loadAt m dir false ⟨name⟩
      else if longestName < name.length then .error (.os .ENAMETOOLONG)
      else
        let lenient := r.spec.env.any fun (k, _) => k = Bytes.ofString "PATH"
        let searchPath := ((if lenient then r.environment else r.env).get? "PATH").getD (Bytes.ofString "/bin:/usr/bin")
        Machine.loadFirst (r.loadAt m dir lenient) false (.os .ENOENT) (Machine.candidates searchPath name)
    .ok (dir, tool, argv)

/-- The program's course when it is started now. -/
def course (r : Runner) (m : Machine) (text : String) (i : Option Shell.Interference) :
    Except IoError Shell.Course := do
  let (dir, tool, argv) ← r.spawn m
  .ok (Shell.course m dir tool argv r.environment (Bytes.ofString text) i)

end Runner

/-- What is heard of a program on its course. -/
def reports (c : Shell.Course) : List TimedEvent :=
  let report (t : Option Nat) (r : Report) : List TimedEvent := (t.map fun t => (t, Event.heard r)).toList
  report (c.input.map (·.1)) (.fed (match c.input with
      | some (_, false) => .error (.os .EPIPE)
      | _ => .ok ())) ++
    report c.outputEnds (.output (.ok (Shell.Raw.bytes c.output))) ++
    report c.errorsEnd (.errors (.ok (Shell.Raw.bytes c.errors))) ++
    report (c.ending.map (·.1)) (.exited (.ok (c.ending.bind (·.2))))

namespace Runner

/-- What a run leaves on the machine up to its end. -/
def changesUntil (ending : Option (Nat × RunOutcome)) (c : Shell.Course) : List Shell.TimedChange :=
  match ending with
  | some (t, .completed ..) => c.changes.filter (·.1 ≤ t)
  | _ => c.changes

/-- A run that nobody cancels. If it fails on the way, the program is killed. -/
def alone (r : Runner) (m : Machine) (text : String) : Live.Course Machine :=
  match r.course m text none with
  | .error e => { ending := (supervise {} r.grace false (.error e)).ending }
  | .ok c =>
    match (supervise {} r.grace false (.ok (inOrder (reports c)))).ending with
    | some (t, .failed e) =>
      let killed := (r.course m text (some ⟨t, [(t, Shell.sigKill)]⟩)).toOption
      { ending := some (t, .failed e), effects := ((killed.map (·.changes)).getD []).filter (·.1 ≤ t) }
    | ending => { ending, effects := changesUntil ending c }

/-- What is still to come of a run that is cancelled after some time. The signals come just after what the program does
at that moment. -/
def cancelled (r : Runner) (m : Machine) (text : String) (moment : Nat) : Live.Course Machine :=
  if moment = 0 then { ending := (supervise {} r.grace true (.ok [])).ending }
  else
    let asked := moment + 1
    let graceEnd := asked + r.grace
    match r.course m text (some ⟨asked, [(asked, Shell.sigTerm), (graceEnd, Shell.sigKill)]⟩) with
    | .error e => { ending := (supervise {} r.grace false (.error e)).ending }
    | .ok c =>
      let before := match r.course m text none with
        | .ok d => (reports d).filter (·.1 < moment)
        | .error _ => []
      let after := (reports c).filter fun (t, e) =>
        moment ≤ t && (match e with
          | .heard (.exited _) => true
          | _ => false)
      let events := inOrder (before ++ (moment, .cancelled) :: after)
      { ending := (supervise {} (graceEnd - moment) false (.ok events)).ending
        effects := c.changes.filter (moment < ·.1) }

/-- All of a run that is cancelled some time after something has become so on the machine. It ends as it would when it
is left alone if that comes first. -/
def cancelledOnce (r : Runner) (m : Machine) (text : String) (goal : Machine → Bool) (delay : Nat) :
    Live.Course Machine :=
  let alone := r.alone m text
  match alone.reaches m goal with
  | none => alone
  | some t =>
    let moment := t + delay
    if (match alone.ending with
      | some (e, _) => decide (e < moment)
      | none => false) then alone
    else
      let rest := r.cancelled m text moment
      { rest with effects := alone.effects.filter (·.1 ≤ moment) ++ rest.effects }

/-- The plan of a run for a text. -/
def plan (r : Runner) (m : Machine) (text : String) : Live.Plan Machine where
  alone := r.alone m text
  cancelled moment := some (r.cancelled m text moment)

end Runner

end Retrace.Run
