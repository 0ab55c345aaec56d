import Retrace.Lock.Session

/-!
# Processes that share a lock

Any number of processes take, inspect and give up one lock. They share a machine, and each of them makes one call at
a time, so that the others may come in between any two calls of a process.
-/

namespace Retrace.Lock

/-- The lock of a source file, kept in a directory. -/
structure Target where
  dir : Path
  source : Path
  deriving DecidableEq, Repr

/-- The lock file. -/
def Target.path (t : Target) : Path := pathFor t.dir t.source

/-- What a process is doing with the lock. -/
inductive Process where
  | resting
  | acquiring (c : Claim) (p : Acquire)
  | releasing (p : Release)
  | inspecting (p : Inspect)

namespace Process

/-- The process can begin to take or inspect the lock. -/
def isIdle : Process → Bool
  | .resting | .acquiring _ (.refused _) | .releasing (.ended _) | .inspecting (.ended _) => true
  | _ => false

/-- The open lock file of a process that holds the lock. -/
def held? : Process → Option Handle
  | .acquiring _ (.acquired h) => some h
  | _ => none

/-- The next call of a process; none when it has to begin something first. -/
def call? : Process → Option Call
  | .resting => none
  | .acquiring c p => p.call? c
  | .releasing p => p.call?
  | .inspecting p => p.call?

/-- Where an answer leads; `isLive` says whether a process exists. -/
def next (t : Target) (isLive : Nat → Bool) : Process → Reply → Process
  | .resting, _ => .resting
  | .acquiring c p, r => .acquiring c (p.next c t.path r)
  | .releasing p, r => .releasing (p.next t.path r)
  | .inspecting p, r => .inspecting (p.next t.path isLive r)

end Process

/-- The processes and the machine that they share. -/
structure World where
  machine : Machine
  processes : Array Process

namespace World

/-- Some processes that have not done anything yet. -/
def start (m : Machine) (count : Nat) : World := ⟨m, Array.replicate count .resting⟩

/-- A process holds the lock. -/
def holds (w : World) (i : Nat) : Bool := ((w.processes[i]?).bind Process.held?).isSome

/-- What a process does next. -/
inductive Action where
  | acquire (i pid now : Nat)
  | inspect (i : Nat)
  | release (i : Nat)
  | drop (i : Nat)
  /-- The next call of what the process is doing. -/
  | call (i : Nat)
  deriving DecidableEq, Repr

/-- A process that can begin something goes on to another point. -/
def begin (w : World) (i : Nat) (p : Process) : Option World :=
  match w.processes[i]? with
  | some q => if q.isIdle then some { w with processes := w.processes.setIfInBounds i p } else none
  | none => none

/-- A process that holds the lock begins to give it up. -/
def giveUp (w : World) (i : Nat) (p : Handle → Release) : Option World :=
  match (w.processes[i]?).bind Process.held? with
  | some h => some { w with processes := w.processes.setIfInBounds i (.releasing (p h)) }
  | none => none

/-- The world after a step, when the step can be made. -/
def step (t : Target) (isLive : Nat → Bool) (w : World) : Action → Option World
  | .acquire i pid now => w.begin i (.acquiring ⟨t.dir, t.source, pid, now⟩ .makeDir)
  | .inspect i => w.begin i (.inspecting .isThere)
  | .release i => w.giveUp i .unlink
  | .drop i => w.giveUp i .drop
  | .call i =>
    (w.processes[i]?).bind fun p =>
      (nextCall Process.call? (Process.next t isLive) t.dir t.path p w.machine).map fun (p, machine) =>
        { machine, processes := w.processes.setIfInBounds i p }

end World

end Retrace.Lock
