import Retrace.Machine.Files

/-!
# Open files and their locks

An open file stays the same node whatever happens to its name. At most one open file of a node holds its exclusive
lock.
-/

namespace Retrace

/-- An open file. -/
structure Handle where
  id : Nat
  deriving DecidableEq, Repr

/-- The bytes of a file, and the place where an open file reads or writes the next one. -/
structure Cursor where
  bytes : Bytes
  position : Nat
  deriving DecidableEq, Repr

namespace Cursor

/-- Cut the file short, or fill it up with zeros. -/
def setLength (f : Cursor) (n : Nat) : Cursor :=
  { f with bytes := f.bytes.take n ++ List.replicate (n - f.bytes.length) 0 }

def seek (f : Cursor) (n : Nat) : Cursor := { f with position := n }

/-- Write over what is there; what lies between the end of the file and the place becomes zeros. -/
def write (f : Cursor) (content : Bytes) : Cursor :=
  if content = [] then f
  else
    let before := f.bytes.take f.position ++ List.replicate (f.position - f.bytes.length) 0
    let stop := f.position + content.length
    ⟨before ++ content ++ f.bytes.drop stop, stop⟩

def readToEnd (f : Cursor) : Bytes × Cursor :=
  (f.bytes.drop f.position, f.seek (max f.position f.bytes.length))

/-- Write a file from its beginning, with nothing left of what it had. -/
def writeAnew (f : Cursor) (content : Bytes) : Cursor := ((f.setLength 0).seek 0).write content

/-- Read a file from its beginning. -/
def readAgain (f : Cursor) : Bytes × Cursor := (f.seek 0).readToEnd

@[simp] theorem bytes_writeAnew (f : Cursor) (content : Bytes) : (f.writeAnew content).bytes = content := by
  by_cases h : content = [] <;> simp [writeAnew, write, setLength, seek, h]

@[simp] theorem fst_readAgain (f : Cursor) : f.readAgain.1 = f.bytes := rfl

end Cursor

namespace Machine

/-- The node of an open file. -/
def nodeOf (m : Machine) (h : Handle) : Ino := (m.handles.lookup h.id).getD 0

/-- Open a file to read and write, creating it if it is missing. -/
def openFile (m : Machine) (p : Path) : Except IoError (Handle × Machine) := do
  let (i, m) ← match ← m.openSpot p with
    | .found place => pure (place.ino, m)
    | .vacant dir name _ => pure (m.createFile dir name [] 0o644)
  .ok (⟨m.nextHandle⟩, { m with handles := (m.nextHandle, i) :: m.handles, nextHandle := m.nextHandle + 1 })

/-- Take the exclusive lock of an open file, unless another open file of the node has it. -/
def tryLock (m : Machine) (h : Handle) : Bool × Machine :=
  match m.locks.lookup (m.nodeOf h) with
  | some owner => (owner == h.id, m)
  | none => (true, { m with locks := (m.nodeOf h, h.id) :: m.locks })

/-- A path still leads to an open file. -/
def leadsTo (m : Machine) (p : Path) (h : Handle) : Except IoError Bool :=
  match m.find p with
  | .ok place => .ok (place.ino == m.nodeOf h)
  | .error (.os e) => if e = .ENOENT then .ok false else .error (.os e)
  | .error e => .error e

/-- The bytes of an open file, read from its beginning wherever the handle stands. -/
def readHandle (m : Machine) (h : Handle) (position : Nat := 0) : Bytes :=
  match m.tree.node (m.nodeOf h) with
  | .file content _ => (Cursor.readAgain ⟨content, position⟩).1
  | _ => []

/-- Replace the bytes of an open file wherever the handle stands; a device cannot be cut short. -/
def writeHandle (m : Machine) (h : Handle) (content : Bytes) (position : Nat := 0) : Except IoError Machine :=
  match m.tree.node (m.nodeOf h) with
  | .file old mode =>
    let new := (Cursor.writeAnew ⟨old, position⟩ content).bytes
    .ok { m with tree := m.tree.setNode (m.nodeOf h) (.file new mode) }
  | _ => .error (.os .EINVAL)

/-- Close an open file, which gives up its lock. -/
def close (m : Machine) (h : Handle) : Machine :=
  { m with locks := m.locks.filter (·.2 ≠ h.id), handles := m.handles.filter (·.1 ≠ h.id) }

end Machine

end Retrace
