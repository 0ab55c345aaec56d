import Retrace.Lock.Naming
import Retrace.Lock.Protocol
import Retrace.Machine.Job

/-!
# Locks on a machine

Whole lock operations, carried out without interruption.
-/

namespace Retrace.Lock

/-- Carry out one call on the lock file at a path. -/
def Call.perform (dir path : Path) (m : Machine) : Call → Reply × Machine
  | .makeDir =>
    match m.makeAllDirs dir with
    | (m, .ok ()) => (.done, m)
    | (m, .error e) => (.failed e, m)
  | .isThere => (if m.isThere path then .yes else .no, m)
  | .openFile =>
    match m.openFile path with
    | .ok (h, m) => (.opened h, m)
    | .error e => (.failed e, m)
  | .tryLock h =>
    let (locked, m) := m.tryLock h
    (if locked then .yes else .no, m)
  | .leadsTo h =>
    match m.leadsTo path h with
    | .ok b => (if b then .yes else .no, m)
    | .error e => (.failed e, m)
  | .read h => (.bytes (m.readHandle h), m)
  | .write h text =>
    match m.writeHandle h (Bytes.ofString text) with
    | .ok m => (.done, m)
    | .error e => (.failed e, m)
  | .unlink =>
    match m.removeFile path with
    | .ok m => (.done, m)
    | .error e => (.failed e, m)
  | .close h => (.done, m.close h)

/-- Make the next call of a sequence, if there is one. -/
def nextCall {σ : Type} (call? : σ → Option Call) (next : σ → Reply → σ) (dir path : Path) (s : σ) (m : Machine) :
    Option (σ × Machine) :=
  (call? s).map fun c =>
    let (r, m) := c.perform dir path m
    (next s r, m)

/-- Carry out calls until there is none left; `fuel` bounds their number. -/
def runCalls {σ : Type} (call? : σ → Option Call) (next : σ → Reply → σ) (dir path : Path) :
    Nat → σ → Machine → σ × Machine
  | 0, s, m => (s, m)
  | fuel + 1, s, m =>
    match nextCall call? next dir path s m with
    | none => (s, m)
    | some (s, m) => runCalls call? next dir path fuel s m

/-- More calls than any lock operation makes. -/
def callBound : Nat := 4 * attempts + 8

/-- A lock that is held. -/
structure Held where
  path : Path
  handle : Handle
  deriving DecidableEq, Repr

/-- Take the lock of a claim. -/
def acquire (c : Claim) : Job Held := do
  let path := pathFor c.dir c.source
  let (p, m) := runCalls (Acquire.call? c) (Acquire.next c path) c.dir path callBound .makeDir (← get)
  set m
  match p with
  | .acquired h => return ⟨path, h⟩
  | .refused f => throw f
  | _ => throw (.rule ("Could not lock " ++ c.source.display))

/-- The live holder of the lock of a source file. -/
def inspect (isLive : Nat → Bool) (dir source : Path) : Job (Option Content) := do
  let path := pathFor dir source
  let (p, m) := runCalls Inspect.call? (Inspect.next path isLive) dir path callBound .isThere (← get)
  set m
  match p with
  | .ended (.ok c) => return c
  | .ended (.error f) => throw f
  | _ => return none

/-- Give up a lock from a point on. -/
def finish (l : Held) (p : Release) : Job Unit := do
  let (p, m) := runCalls Release.call? (Release.next l.path) l.path l.path callBound p (← get)
  set m
  match p with
  | .ended (.error f) => throw f
  | _ => return ()

/-- Give up a lock and report when its file cannot be removed. -/
def release (l : Held) : Job Unit := finish l (.unlink l.handle)

/-- Give up a lock silently. -/
def drop (l : Held) : Job Unit := finish l (.drop l.handle)

end Retrace.Lock
