import Retrace.Output.Replace

/-!
# A file that shows the newest text

Every text replaces the file as a whole. A call on the way may write less than it is given or fail, and the machine
may stop between two calls, with the loss of all that has not been synced.
-/

namespace Retrace.Output

/-- A name as a new file gets it. -/
def isTempName (name : Bytes) : Bool :=
  name.length == (numberedName 0).length && !name.contains Path.slash && !name.contains 0

/-- No link of a tree leads by way of a name. -/
def isUnlinked (t : Tree) (name : Bytes) : Bool :=
  t.nodes.toList.all fun
    | .link text => !(Bytes.split Path.slash text).contains name
    | _ => true

/-- A name that nothing uses yet on the way to a file. -/
def isUnused (t : Tree) (target : Path) (name : Bytes) : Bool :=
  isTempName name && !target.segments.contains name && isUnlinked t name

/-- A file that is given one text after the other. -/
structure Sink where
  machine : Machine
  point : Replace Path := .ended (.ok ())
  /-- The newest text. -/
  data : Bytes := []
  /-- The node of the file that was made last. -/
  file : Ino := 0
  /-- Nothing of that file is lost when the machine stops. -/
  synced : Bool := true

namespace Sink

/-- What can happen next. A name and the number of bytes written are not the program's choice, and neither is a
failure. -/
inductive Action where
  | setText (data : Bytes)
  | create (name : String)
  | write (count : Nat)
  | sync
  | rename
  | remove
  /-- The call fails. The removal of a file does not. -/
  | fail (e : IoError)

/-- Go on with the answer to a call. -/
def answer (w : Sink) (r : Reply Path) (m : Machine) : Sink := { w with machine := m, point := w.point.next w.data r }

/-- Carry out a call as far as the machine can. -/
def perform (target : Path) (w : Sink) (c : Call Path) : Sink :=
  w.answer (c.perform target w.machine).1 (c.perform target w.machine).2

def step (target : Path) (w : Sink) (a : Action) : Option Sink :=
  match w.point, a with
  | .ended _, .setText data => some { w with point := .create, data }
  | .create, .create name =>
    if isUnused w.machine.tree target (Bytes.ofString name) then
      match createTemp w.machine (directoryOf target) fun _ => Bytes.ofString name with
      | .ok (t, m) => some { w.answer (.created t) m with file := w.machine.tree.nodes.size, synced := false }
      | .error e => some (w.answer (.failed e) w.machine)
    else none
  | .write t rest, .write count =>
    if count = 0 then none else some { w.perform target (.write t (rest.take count)) with synced := false }
  | .sync t, .sync => some { w.perform target (.sync t) with synced := true }
  | .rename t, .rename => some (w.perform target (.rename t))
  | .remove t _, .remove => some { w.perform target (.remove t) with synced := true }
  | .create, .fail e | .write .., .fail e | .sync _, .fail e | .rename _, .fail e =>
    some (w.answer (.failed e) w.machine)
  | _, _ => none

/-- What is there after the machine has stopped: the bytes of a file that was not synced may be any. -/
def Survives (w : Sink) (m : Machine) : Prop :=
  m = w.machine ∨ w.synced = false ∧ ∃ bytes : Bytes,
    m = { w.machine with tree := w.machine.tree.setNode w.file (.file bytes 0o600) }

end Sink

end Retrace.Output
