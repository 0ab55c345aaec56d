import Retrace.Lock.Session

/-!
# Locks taken and given up one after another

The locks of one directory, and the operations on them, each of which ends before the next one begins.
-/

namespace Retrace.Lock

/-- A lock that is held, and what it was taken with. -/
structure Holding where
  claim : Claim
  held : Held
  deriving DecidableEq, Repr

/-- A machine and the locks that are held on it. -/
structure Ledger where
  machine : Machine
  holdings : List Holding := []

namespace Ledger

/-- An operation on the lock of a source file. -/
inductive Operation where
  | acquire (source : Path) (pid now : Nat)
  | inspect (source : Path)
  | release (source : Path)
  | drop (source : Path)
  deriving DecidableEq, Repr

/-- The lock at a path is given up, if it is held. -/
def giveUp (w : Ledger) (path : Path) (j : Held → Job Unit) : Ledger :=
  match w.holdings.find? (·.held.path == path) with
  | some x => ⟨((j x.held).perform w.machine).2, w.holdings.filter (·.held.path ≠ path)⟩
  | none => w

/-- What an operation leaves. -/
def step (dir : Path) (isLive : Nat → Bool) (w : Ledger) : Operation → Ledger
  | .acquire source pid now =>
    match (acquire ⟨dir, source, pid, now⟩).perform w.machine with
    | (.ok l, machine) => ⟨machine, ⟨⟨dir, source, pid, now⟩, l⟩ :: w.holdings⟩
    | (.error _, machine) => { w with machine }
  | .inspect source => { w with machine := ((inspect isLive dir source).perform w.machine).2 }
  | .release source => w.giveUp (pathFor dir source) release
  | .drop source => w.giveUp (pathFor dir source) drop

end Ledger

end Retrace.Lock
