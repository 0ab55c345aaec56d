import Retrace.Machine.Job

/-!
# A watched file

A file is watched through its directory, so that it may be replaced by another one of its name.
-/

namespace Retrace.Watch

/-- A file that is watched: its path without links, its directory and its name there. -/
structure WatchedFile where
  path : Path
  dir : Ino
  name : Bytes
  /-- The name of the directory; the root has none. A change to the directory itself counts as one to the file when
  both have the same name. -/
  dirName : Option Bytes
  deriving DecidableEq, Repr

/-- Begin to watch a file. -/
def WatchedFile.find (p : Path) : Job WatchedFile := do
  let place ← Job.read ("Failed to resolve watched file: " ++ p.display) (·.resolve p)
  match place with
  | [] => throw (.rule "Watched file has no parent directory")
  | (name, _) :: dir => return ⟨Place.path place, Place.ino dir, name, dir.head?.map (·.1)⟩

/-- A change is one to the file. -/
def WatchedFile.concerns (w : WatchedFile) (c : Change) : Bool :=
  c.dir == w.dir && (match c.name with
    | some name => name == w.name
    | none => w.dirName == some w.name)

/-- What has happened to the file between two states of the machine, in order. -/
def WatchedFile.events (w : WatchedFile) (before after : Machine) : List ChangeKind :=
  let fresh := (after.changes.take (after.changes.length - before.changes.length)).reverse
  (fresh.filter w.concerns).map (·.kind)

end Retrace.Watch
