import Retrace.Failure
import Retrace.Machine.Tree

/-!
# Files of a machine

The calls that programs make on files, with their errors. Every change to an entry of a directory is noted, for
those who watch the directory.
-/

namespace Retrace

/-- What happened to an entry of a directory. -/
inductive ChangeKind where
  | create
  | modify
  | delete
  | rename
  deriving DecidableEq, Repr

/-- A change to an entry of a directory, or to the directory itself. -/
structure Change where
  dir : Ino
  /-- The name of the entry; none for the directory itself. -/
  name : Option Bytes
  kind : ChangeKind
  deriving DecidableEq, Repr

/-- Files and where the running program stands among them. -/
structure Machine where
  tree : Tree := {}
  /-- The working directory. -/
  cwd : Place := []
  /-- The changes so far, the last one first. -/
  changes : List Change := []
  /-- The open files with an exclusive lock, by their nodes and handles. -/
  locks : List (Ino × Nat) := []
  /-- The nodes of open files, by their handles. -/
  handles : List (Nat × Ino) := []
  nextHandle : Nat := 0
  deriving Repr, Inhabited

namespace Machine

/-- The longest path. -/
def longestPath : Nat := 4095

/-- The segments of a path and where they begin. -/
def start (m : Machine) (p : Path) : Except IoError (Place × List Bytes) :=
  if p.raw.contains 0 then .error .nulInName
  else if p.raw = [] then .error (.os .ENOENT)
  else .ok (if p.isAbsolute then [] else m.cwd, p.segments)

/-- The beginning of a path that one call can take. -/
def shortStart (m : Machine) (p : Path) : Except IoError (Place × List Bytes) :=
  if !p.raw.contains 0 ∧ longestPath < p.raw.length then .error (.os .ENAMETOOLONG) else m.start p

/-- Walk along a path. -/
def spot (m : Machine) (arrival : Arrival) (p : Path) : Except IoError Spot := do
  let (place, segments) ← m.shortStart p
  (m.tree.walk arrival Tree.mostLinks place segments).mapError .os

/-- The entry that a path names. -/
def entry (m : Machine) (p : Path) : Except IoError Tree.Entry := do
  let (place, segments) ← m.shortStart p
  (m.tree.entry Tree.mostLinks place segments).mapError .os

/-- Where a walk has ended at something that is there. -/
def arrived : Spot → Except IoError Place
  | .found place => .ok place
  | .vacant .. => .error (.os .ENOENT)

/-- What a path leads to. -/
def find (m : Machine) (p : Path) : Except IoError Place := do arrived (← m.spot .follow p)

/-- What a path leads to, without following a link at its end. -/
def findHere (m : Machine) (p : Path) : Except IoError Place := do arrived (← m.spot .keep p)

/-- What a path of any length leads to. -/
def resolve (m : Machine) (p : Path) : Except IoError Place := do
  let (place, segments) ← m.start p
  arrived (← (m.tree.walk .follow Tree.mostLinks place segments).mapError .os)

/-- The node that a path leads to. -/
def node? (m : Machine) (p : Path) : Option Node := (m.find p).toOption.map fun place => m.tree.node place.ino

def isThere (m : Machine) (p : Path) : Bool := (m.find p).isOk

def isFile (m : Machine) (p : Path) : Bool :=
  match m.node? p with
  | some (.file ..) => true
  | _ => false

def isDir (m : Machine) (p : Path) : Bool :=
  match m.node? p with
  | some (.dir _) => true
  | _ => false

/-- The absolute path without links to what a path leads to. -/
def canonicalize (m : Machine) (p : Path) : Except IoError Path := (m.resolve p).map Place.path

/-- Note a change to an entry. -/
def note (m : Machine) (dir : Place) (name : Bytes) (kind : ChangeKind) : Machine :=
  { m with changes := ⟨dir.ino, some name, kind⟩ :: m.changes }

/-- Note a change to a node itself, which matters for a directory. -/
def noteSelf (m : Machine) (i : Ino) (kind : ChangeKind) : Machine :=
  if (m.tree.node i).isDir then { m with changes := ⟨i, none, kind⟩ :: m.changes } else m

/-- Note a change to what stands at a place. -/
def noteAt (m : Machine) (place : Place) (kind : ChangeKind) : Machine :=
  match place with
  | [] => m
  | (name, _) :: dir => m.note dir name kind

/-- The bytes of a file. -/
def read (m : Machine) (p : Path) : Except IoError Bytes := do
  match m.tree.node (← m.find p).ino with
  | .file content _ => .ok content
  | .device .terminal => .error (.os .ENXIO)
  | .device d => .ok d.bytes
  | _ => .error (.os .EISDIR)

/-- The text of a file. -/
def readText (m : Machine) (p : Path) : Except IoError String := do
  match Utf8.decode? (← m.read p) with
  | some s => .ok s
  | none => .error .notText

/-- The names in a directory, in order. -/
def names (m : Machine) (p : Path) : Except IoError (List Bytes) := do
  match m.tree.node (← m.find p).ino with
  | .dir es => .ok (es.map (·.1))
  | _ => .error (.os .ENOTDIR)

/-- Where a file is opened that is created if it is missing. -/
def openSpot (m : Machine) (p : Path) : Except IoError Spot := do
  match ← m.spot .make p with
  | .found place =>
    match m.tree.node place.ino with
    | .dir _ => .error (.os .EISDIR)
    | .device .terminal => .error (.os .ENXIO)
    | _ => .ok (.found place)
  | s => .ok s

/-- A new file in a directory. -/
def createFile (m : Machine) (dir : Place) (name : Bytes) (content : Bytes) (mode : Nat) : Ino × Machine :=
  let (i, t) := m.tree.addNode (.file content mode)
  let m := ({ m with tree := t.link dir.ino name i }).note dir name .create
  (i, if content = [] then m else m.note dir name .modify)

/-- Replace the bytes of the file at a place; a device takes or refuses the new ones. -/
def setContent (m : Machine) (place : Place) (change : Bytes → Bytes) : Except IoError Machine :=
  match m.tree.node place.ino with
  | .file old mode =>
    .ok (({ m with tree := m.tree.setNode place.ino (.file (change old) mode) }).noteAt place .modify)
  | .device .full => if change [] = [] then .ok m else .error (.os .ENOSPC)
  | _ => .ok m

/-- Write a file anew, or create it with a mode. -/
def write (m : Machine) (p : Path) (content : Bytes) (mode : Nat := 0o644) : Except IoError Machine := do
  match ← m.openSpot p with
  | .found place => m.setContent place fun _ => content
  | .vacant dir name _ => .ok (m.createFile dir name content mode).2

/-- Write at the end of a file, which is created if it is missing and `create` says so. -/
def append (m : Machine) (create : Bool) (p : Path) (content : Bytes) (mode : Nat := 0o644) :
    Except IoError Machine := do
  match ← m.openSpot p with
  | .found place => if content = [] then .ok m else m.setContent place (· ++ content)
  | .vacant dir name _ =>
    if create then .ok (m.createFile dir name content mode).2 else .error (.os .ENOENT)

/-- A new entry of a directory. -/
def addEntry (m : Machine) (dir : Place) (name : Bytes) (n : Node) : Machine :=
  let (i, t) := m.tree.addNode n
  ({ m with tree := t.link dir.ino name i }).note dir name .create

/-- Make a directory. -/
def makeDir (m : Machine) (p : Path) : Except IoError Machine := do
  match ← m.entry p with
  | .named dir name _ none => .ok (m.addEntry dir name (.dir []))
  | _ => .error (.os .EEXIST)

/-- Make a directory, which is no failure when it is there already. -/
def ensureDir (m : Machine) (p : Path) : Machine × Except IoError Unit :=
  match m.makeDir p with
  | .ok m => (m, .ok ())
  | .error e => (m, if m.isDir p then .ok () else .error e)

/-- Make a directory and those above it, as far as they are missing; `fuel` bounds their number. -/
def makeDirs : Nat → Machine → Path → Machine × Except IoError Unit
  | 0, m, _ => (m, .error (.named .other (some "failed to create whole tree")))
  | fuel + 1, m, p =>
    if p.components = [] then (m, .ok ())
    else
      match m.makeDir p with
      | .ok m => (m, .ok ())
      | .error e =>
        if e = .os .ENOENT then
          match p.parent? with
          | none => (m, .error (.named .other (some "failed to create whole tree")))
          | some above =>
            match makeDirs fuel m above with
            | (m, .ok ()) => m.ensureDir p
            | (m, .error e) => (m, .error e)
        else (m, if m.isDir p then .ok () else .error e)

/-- Make a directory with all that is missing above it. -/
def makeAllDirs (m : Machine) (p : Path) : Machine × Except IoError Unit := makeDirs (p.raw.length + 1) m p

/-- Take an entry out of its directory. -/
def removeEntry (m : Machine) (dir : Place) (name : Bytes) : Machine :=
  ({ m with tree := m.tree.unlink dir.ino name }).note dir name .delete

/-- Remove a file. -/
def removeFile (m : Machine) (p : Path) : Except IoError Machine := do
  match ← m.entry p with
  | .nameless _ => .error (.os .EISDIR)
  | .named _ _ _ none => .error (.os .ENOENT)
  | .named dir name closed (some i) =>
    if (m.tree.node i).isDir then .error (.os .EISDIR)
    else if closed then .error (.os .ENOTDIR)
    else .ok (m.removeEntry dir name)

/-- Remove an empty directory. -/
def removeDir (m : Machine) (p : Path) : Except IoError Machine := do
  match ← m.entry p with
  | .nameless last =>
    .error (.os (if last = Path.dot then .EINVAL else if last = Path.dotdot then .ENOTEMPTY else .EBUSY))
  | .named _ _ _ none => .error (.os .ENOENT)
  | .named dir name _ (some i) =>
    match m.tree.node i with
    | .dir es =>
      if es ≠ [] then .error (.os .ENOTEMPTY) else .ok ((m.removeEntry dir name).noteSelf i .delete)
    | _ => .error (.os .ENOTDIR)

/-- Make a symbolic link. -/
def makeLink (m : Machine) (target : Bytes) (p : Path) : Except IoError Machine := do
  match ← m.entry p with
  | .named _ _ true none => .error (.os .ENOENT)
  | .named dir name false none => .ok (m.addEntry dir name (.link target))
  | _ => .error (.os .EEXIST)

/-- Give a file a second name. -/
def makeHardLink (m : Machine) (p dest : Path) : Except IoError Machine := do
  let place ← m.findHere p
  match ← m.entry dest with
  | .named _ _ true none => .error (.os .ENOENT)
  | .named dir name false none =>
    if (m.tree.node place.ino).isDir then .error (.os .EPERM)
    else .ok (({ m with tree := m.tree.link dir.ino name place.ino }).note dir name .create)
  | _ => .error (.os .EEXIST)

/-- Set the mode of a file. -/
def setMode (m : Machine) (p : Path) (mode : Nat) : Except IoError Machine := do
  let place ← m.find p
  match m.tree.node place.ino with
  | .file content _ =>
    .ok (({ m with tree := m.tree.setNode place.ino (.file content mode) }).noteAt place .modify)
  | _ => .ok ((m.noteAt place .modify).noteSelf place.ino .modify)

/-- Move an entry to another name, over what that name led to. -/
def moveEntry (m : Machine) (dir : Place) (name : Bytes) (i : Ino) (dest : Place) (newName : Bytes) : Machine :=
  let t := (m.tree.unlink dir.ino name).link dest.ino newName i
  ((({ m with tree := t }).note dir name .rename).note dest newName .rename).noteSelf i .rename

/-- Rename a file or directory. -/
def rename (m : Machine) (p dest : Path) : Except IoError Machine := do
  match ← m.entry p, ← m.entry dest with
  | .nameless _, _ | _, .nameless _ => .error (.os .EBUSY)
  | .named _ _ _ none, _ => .error (.os .ENOENT)
  | .named dir name closed (some i), .named newDir newName newClosed target =>
    let isDir := (m.tree.node i).isDir
    if !isDir ∧ (closed ∨ newClosed) then .error (.os .ENOTDIR)
    else if newDir.any (·.2 == i) then .error (.os .EINVAL)
    else
      match target with
      | none => .ok (m.moveEntry dir name i newDir newName)
      | some j =>
        if dir.any (·.2 == j) then .error (.os .ENOTEMPTY)
        else if i = j then .ok m
        else
          match isDir, m.tree.node j with
          | true, .dir es =>
            if es ≠ [] then .error (.os .ENOTEMPTY)
            else .ok ((m.moveEntry dir name i newDir newName).noteSelf j .delete)
          | true, _ => .error (.os .ENOTDIR)
          | false, .dir _ => .error (.os .EISDIR)
          | false, _ => .ok (m.moveEntry dir name i newDir newName)

/-- The program goes to a directory. -/
def changeDir (m : Machine) (p : Path) : Except IoError Machine := do
  let place ← m.find p
  match m.tree.node place.ino with
  | .dir _ => .ok { m with cwd := place }
  | _ => .error (.os .ENOTDIR)

end Machine

end Retrace
