import Retrace.Failure
import Retrace.Lock.Content
import Retrace.Machine.Handles

/-!
# The calls of a lock

A lock on a source file is an open lock file with its exclusive lock, which the path of the lock file still leads to.
Taking, inspecting and giving up a lock are sequences of single calls, so that other processes may come in between
any two of them. Each sequence is a machine here: a point it stands at, the call it makes there, and the point that
each answer leads to.
-/

namespace Retrace.Lock

/-- A call on one lock file. -/
inductive Call where
  | makeDir
  | isThere
  | openFile
  | tryLock (h : Handle)
  | leadsTo (h : Handle)
  | read (h : Handle)
  | write (h : Handle) (text : String)
  | unlink
  | close (h : Handle)
  deriving DecidableEq, Repr

/-- The answer to a call. -/
inductive Reply where
  | done
  | yes
  | no
  | opened (h : Handle)
  | bytes (bs : Bytes)
  | failed (e : IoError)
  deriving DecidableEq, Repr

/-- A lock file and who asks for it. -/
structure Claim where
  dir : Path
  source : Path
  pid : Nat
  now : Nat
  deriving DecidableEq, Repr

namespace Claim

/-- What the holder writes into the lock file. -/
def content (c : Claim) : Content := ⟨c.pid, c.now, c.source⟩

end Claim

/-! ## Taking a lock -/

/-- How often a lock file that was replaced meanwhile is opened. -/
def attempts : Nat := 3

/-- Where the taking of a lock stands. -/
inductive Acquire where
  | makeDir
  | openFile (left : Nat)
  | tryLock (left : Nat) (h : Handle)
  | check (left : Nat) (h : Handle)
  | write (h : Handle)
  | readHolder (h : Handle)
  /-- Close the file, then open it again if `left` allows. -/
  | retry (left : Nat) (h : Handle)
  /-- Close the file and fail. -/
  | giveUp (h : Handle) (f : Failure)
  | acquired (h : Handle)
  | refused (f : Failure)
  deriving DecidableEq, Repr

namespace Acquire

/-- Another process holds the lock. -/
def alreadyRunning (c : Claim) (holder : Option Content) : Failure :=
  .rule ("A live session is already running for " ++ c.source.display ++
    (match holder with
      | some h => " (pid " ++ toString h.pid ++ ")"
      | none => ""))

/-- Open the lock file, if there are attempts left. -/
def attempt (c : Claim) : Nat → Acquire
  | 0 => .refused (.rule ("Could not lock " ++ c.source.display))
  | left + 1 => .openFile left

/-- The call made at a point; none at the end. -/
def call? (c : Claim) : Acquire → Option Call
  | .makeDir => some .makeDir
  | .openFile _ => some .openFile
  | .tryLock _ h => some (.tryLock h)
  | .check _ h => some (.leadsTo h)
  | .write h => some (.write h (c.content.toText?.getD ""))
  | .readHolder h => some (.read h)
  | .retry _ h | .giveUp h _ => some (.close h)
  | .acquired _ | .refused _ => none

/-- Where an answer leads. -/
def next (c : Claim) (path : Path) : Acquire → Reply → Acquire
  | .makeDir, .done => attempt c attempts
  | .makeDir, .failed e => .refused (.io ("Failed to create lock directory: " ++ c.dir.display) e)
  | .openFile left, .opened h => .tryLock left h
  | .openFile _, .failed e => .refused (.io ("Failed to open lock file: " ++ path.display) e)
  | .tryLock left h, .yes => .check left h
  | .tryLock _ h, .no => .readHolder h
  | .tryLock _ h, .failed e => .giveUp h (.io "flock failed" e)
  | .check _ h, .yes =>
    if c.content.toText?.isSome then .write h else .giveUp h ⟨["Failed to serialize lock content"], .lockText⟩
  | .check left h, .no => .retry left h
  | .check _ h, .failed e => .giveUp h (.io "Failed to stat lock file" e)
  | .write h, .done => .acquired h
  | .write h, .failed e => .giveUp h ⟨[], .io e⟩
  | .readHolder h, .bytes bs => .giveUp h (alreadyRunning c (Content.ofBytes? bs))
  | .readHolder h, .failed _ => .giveUp h (alreadyRunning c none)
  | .retry left _, _ => attempt c left
  | .giveUp _ f, _ => .refused f
  | p, _ => p

end Acquire

/-! ## Inspecting a lock -/

/-- Where an inspection stands. -/
inductive Inspect where
  | isThere
  | openFile
  | tryLock (h : Handle)
  | readHolder (h : Handle)
  /-- Close the file and end. -/
  | finish (h : Handle) (r : Except Failure (Option Content))
  | ended (r : Except Failure (Option Content))

namespace Inspect

/-- The call made at a point; none at the end. -/
def call? : Inspect → Option Call
  | .isThere => some .isThere
  | .openFile => some .openFile
  | .tryLock h => some (.tryLock h)
  | .readHolder h => some (.read h)
  | .finish h _ => some (.close h)
  | .ended _ => none

/-- Where an answer leads; `isLive` says whether a process exists. -/
def next (path : Path) (isLive : Nat → Bool) : Inspect → Reply → Inspect
  | .isThere, .yes => .openFile
  | .isThere, _ => .ended (.ok none)
  | .openFile, .opened h => .tryLock h
  | .openFile, .failed e => .ended (.error (.io ("Failed to open lock file: " ++ path.display) e))
  | .tryLock h, .yes => .finish h (.ok none)
  | .tryLock h, .no => .readHolder h
  | .tryLock h, .failed e => .finish h (.error (.io "flock failed" e))
  | .readHolder h, .bytes bs => .finish h (.ok ((Content.ofBytes? bs).filter (isLive ·.pid)))
  | .readHolder h, _ => .finish h (.ok none)
  | .finish _ r, _ => .ended r
  | p, _ => p

end Inspect

/-! ## Giving up a lock -/

/-- Where the giving up of a lock stands. A release reports when the lock file cannot be removed, and removes it once
more when the lock is dropped. -/
inductive Release where
  | unlink (h : Handle)
  | unlinkAgain (h : Handle) (r : Except Failure Unit)
  /-- The lock is dropped without a release. -/
  | drop (h : Handle)
  | close (h : Handle) (r : Except Failure Unit)
  | ended (r : Except Failure Unit)

namespace Release

/-- The call made at a point; none at the end. -/
def call? : Release → Option Call
  | .unlink _ | .unlinkAgain _ _ | .drop _ => some .unlink
  | .close h _ => some (.close h)
  | .ended _ => none

/-- Where an answer leads. -/
def next (path : Path) : Release → Reply → Release
  | .unlink h, .failed e => .unlinkAgain h (.error (.io ("Failed to remove lock file: " ++ path.display) e))
  | .unlink h, _ => .unlinkAgain h (.ok ())
  | .unlinkAgain h r, _ => .close h r
  | .drop h, _ => .close h (.ok ())
  | .close _ r, _ => .ended r
  | .ended r, _ => .ended r

end Release

end Retrace.Lock
