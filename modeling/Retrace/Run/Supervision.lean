import Retrace.Run.Basic

/-!
# Supervision of a child process

What is heard of a child process while it is fed, read and waited for, what is done about it, and the outcome of the
run that comes of it. A run is completed when all of its input is taken, both outputs are read to their ends, and the
process has ended. A cancellation before that asks the process to stop, and kills it if it has not ended when the
grace period is over.
-/

namespace Retrace.Run

/-- What is heard of a child process. -/
inductive Report where
  /-- All of the input is written, or it cannot be. -/
  | fed (r : Except IoError Unit)
  /-- The output is read to its end, or it cannot be. -/
  | output (r : Except IoError Bytes)
  | errors (r : Except IoError Bytes)
  /-- The process has ended, or it cannot be waited for. -/
  | exited (r : Except IoError (Option Int))

/-- What happens to a supervisor. -/
inductive Event where
  | cancelled
  | heard (r : Report)

/-- An event with its moment. -/
abbrev TimedEvent := Nat × Event

/-- What a supervisor does. -/
inductive Measure where
  | spawn
  | askToStop
  | kill
  deriving DecidableEq, Repr

/-- Whether the signals reach the process. -/
structure Delivery where
  stop : Bool := true
  kill : Bool := true
  deriving DecidableEq, Repr

/-- What a supervisor has done, in order, and the outcome with its moment, if it comes to one. -/
structure Account where
  taken : List Measure := []
  ending : Option (Nat × RunOutcome) := none
  deriving DecidableEq, Repr

/-- A measure is taken first. -/
def Account.after (x : Measure) (a : Account) : Account := { a with taken := x :: a.taken }

/-- What has been heard so far, all of it good. -/
structure Gathered where
  fed : Bool := false
  output : Option Bytes := none
  errors : Option Bytes := none
  exit : Option (Option Int) := none
  deriving DecidableEq, Repr

/-- The outcome, when everything has been heard. -/
def Gathered.outcome? (g : Gathered) : Option RunOutcome :=
  match g.fed, g.output, g.errors, g.exit with
  | true, some out, some err, some code => some (.completed (Utf8.lossy out) (Utf8.lossy err) code)
  | _, _, _, _ => none

/-- Take in one more report, unless it is of a failure. -/
def Gathered.add (g : Gathered) : Report → Except RunFault Gathered
  | .fed (.ok ()) => .ok { g with fed := true }
  | .fed (.error e) => .error ⟨.input, e⟩
  | .output (.ok bs) => .ok { g with output := some bs }
  | .output (.error e) => .error ⟨.output, e⟩
  | .errors (.ok bs) => .ok { g with errors := some bs }
  | .errors (.error e) => .error ⟨.output, e⟩
  | .exited (.ok code) => .ok { g with exit := some code }
  | .exited (.error e) => .error ⟨.wait, e⟩

/-- The first result of waiting for the process, and what comes after it. -/
def wait : List TimedEvent → Option (Nat × Except IoError (Option Int) × List TimedEvent)
  | [] => none
  | (t, .heard (.exited r)) :: rest => some (t, r, rest)
  | _ :: rest => wait rest

/-- Kill the process. Its end is awaited only if that could be done. -/
def kill (d : Delivery) (t : Nat) (es : List TimedEvent) : Account :=
  .after .kill { ending := if d.kill then (wait es).map fun (t, _) => (t, .cancelled) else some (t, .cancelled) }

/-- Ask the process to stop, and kill it if it outlives the grace period. One that is known to have ended cannot be
asked, nor killed. -/
def terminate (d : Delivery) (grace t : Nat) (ended : Bool) (es : List TimedEvent) : Account :=
  if ended then kill { d with kill := false } t es
  else
    .after .askToStop <|
      if d.stop then
        match (wait es).filter (·.1 ≤ t + grace) with
        | some (t, .ok _, _) => { ending := some (t, .cancelled) }
        | some (t, .error _, rest) => kill d t rest
        | none => kill d (t + grace) es
      else kill d t es

/-- Take in what is heard until everything has been, something has failed, or the run is cancelled. -/
def drive (d : Delivery) (grace : Nat) (g : Gathered) : List TimedEvent → Account
  | [] => {}
  | (t, .cancelled) :: rest => terminate d grace t g.exit.isSome rest
  | (t, .heard r) :: rest =>
    match g.add r with
    | .ok g =>
      match g.outcome? with
      | some o => { ending := some (t, o) }
      | none => drive d grace g rest
    | .error e => .after .kill { ending := some (t, .failed e) }

/-- A run from its beginning: one that is cancelled beforehand starts no process, and one whose process cannot be
started has failed. -/
def supervise (d : Delivery) (grace : Nat) (cancelled : Bool) (spawned : Except IoError (List TimedEvent)) : Account :=
  if cancelled then { ending := some (0, .cancelled) }
  else
    .after .spawn <|
      match spawned with
      | .error e => { ending := some (0, .failed ⟨.spawn, e⟩) }
      | .ok events => drive d grace {} events

/-- Of events at one moment, a cancellation comes first, and then the reports in this order. -/
def Event.rank : Event → Nat
  | .cancelled => 0
  | .heard (.fed _) => 1
  | .heard (.output _) => 2
  | .heard (.errors _) => 3
  | .heard (.exited _) => 4

/-- An event does not come after another. -/
def notAfter (a b : TimedEvent) : Bool := a.1 < b.1 || (a.1 == b.1 && a.2.rank ≤ b.2.rank)

/-- Events in the order of their moments. -/
def inOrder (events : List TimedEvent) : List TimedEvent := events.mergeSort notAfter

end Retrace.Run
