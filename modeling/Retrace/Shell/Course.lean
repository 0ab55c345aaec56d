import Retrace.Shell.Eval

/-!
# The course of a program

A program from its start to its end, as the one who started it sees it: what it takes of its input, what it writes,
when and how it ends, and how it changes the machine on the way.
-/

namespace Retrace.Shell

/-- How a program is stopped from outside: when the other ends of its pipes are closed, and the signals that it gets. -/
structure Interference where
  cut : Nat
  signals : List (Nat × Nat)

/-- A program from its start to its end. What never comes has no moment. -/
structure Course where
  /-- When it ends, and its status unless a signal has ended it. -/
  ending : Option (Nat × Option Int)
  /-- When the input is taken or refused. -/
  input : Option (Nat × Bool)
  /-- When the outputs end. -/
  outputEnds : Option Nat
  errorsEnd : Option Nat
  output : Raw
  errors : Raw
  changes : List TimedChange

/-- How long a program is followed, in milliseconds. -/
def patience : Nat := 60000

/-- How many steps a program may take. -/
def steps : Nat := 1000000

/-- The state of a program at its start. -/
def State.initial (m : Machine) (dir : Path) (env : List (Bytes × Bytes)) (input : Bytes) (i : Option Interference) :
    State where
  pid := leaderId
  shell := leaderId
  vars := env.map fun (k, v) => (Raw.ofBytes k, Raw.ofBytes v)
  exported := env.map fun (k, _) => Raw.ofBytes k
  dir
  shownDir := Raw.ofBytes dir.raw
  fds := [(0, .pipe 0), (1, .pipe 1), (2, .pipe 2)]
  leads := true
  machine := m
  pipes := #[⟨[⟨0, 0, Raw.ofBytes input⟩], 0⟩, {}, {}]
  nextPid := leaderId + 1
  signals := (i.map (·.signals)).getD []
  cut := i.map (·.cut)
  horizon := patience

/-- When the last process that holds a pipe of the leading one has ended. -/
def State.released (s : State) (ending : Option Nat) (pipe : Nat) : Option Nat :=
  (s.backgrounds.filter (·.holds.contains pipe)).foldl (fun acc b => do return max (← acc) (← b.ends)) ending

/-- The course of a tool with its arguments. -/
def course (m : Machine) (dir : Path) (tool : Raw) (argv : List Raw) (env : List (Bytes × Bytes)) (input : Bytes)
    (i : Option Interference) : Course :=
  let (f, s) := start steps tool argv (.initial m dir env input i)
  let ending : Option Nat := if f = .never then none else some s.now
  let code : Option Int := match f with
    | .killed _ => none
    | _ => some ((s.status % 256 : Nat) : Int)
  let left := (s.pipeText 0).length
  let pending := s.backgrounds.flatMap (·.pending)
  { ending := ending.map fun t => (t, code)
    input := if left ≤ State.pipeCapacity then some (ending.getD 0, true)
      else (s.released ending 0).map fun t => (t, false)
    outputEnds := s.released ending 1
    errorsEnd := s.released ending 2
    output := s.pipeText 1
    errors := s.pipeText 2
    changes := (s.changes.reverse ++ pending).mergeSort fun a b => a.1 ≤ b.1 }

end Retrace.Shell
