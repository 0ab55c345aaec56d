import Retrace.Machine.Handles

/-!
# Replacing a file as a whole

New contents are written to a file with a new name in the directory of the target, which is then renamed over the
target. Whoever reads the target sees the old contents or the new ones. The operation is a sequence of single calls;
one that fails ends in the removal of the new file.
-/

namespace Retrace.Output

/-- A call in the replacement of a file; `Temp` names the new file. -/
inductive Call (Temp : Type) where
  | create
  | write (t : Temp) (rest : Bytes)
  | sync (t : Temp)
  | rename (t : Temp)
  | remove (t : Temp)

/-- The answer to a call. -/
inductive Reply (Temp : Type) where
  | created (t : Temp)
  | wrote (count : Nat)
  | done
  | failed (e : IoError)

/-- Where a replacement stands. -/
inductive Replace (Temp : Type) where
  | create
  | write (t : Temp) (rest : Bytes)
  | sync (t : Temp)
  | rename (t : Temp)
  /-- Remove the new file and fail. -/
  | remove (t : Temp) (e : IoError)
  | ended (r : Except IoError Unit)

namespace Replace

variable {Temp : Type}

/-- What is written next: the rest of the contents, or nothing more. -/
def writing (t : Temp) (rest : Bytes) : Replace Temp := if rest = [] then .sync t else .write t rest

/-- The call made at a point; none at the end. -/
def call? : Replace Temp → Option (Call Temp)
  | .create => some .create
  | .write t rest => some (.write t rest)
  | .sync t => some (.sync t)
  | .rename t => some (.rename t)
  | .remove t _ => some (.remove t)
  | .ended _ => none

/-- Where an answer leads, for the contents `data`. -/
def next (data : Bytes) : Replace Temp → Reply Temp → Replace Temp
  | .create, .created t => writing t data
  | .create, .failed e => .ended (.error e)
  | .write t rest, .wrote n => writing t (rest.drop n)
  | .write t _, .failed e => .remove t e
  | .sync t, .done => .rename t
  | .sync t, .failed e => .remove t e
  | .rename _, .done => .ended (.ok ())
  | .rename t, .failed e => .remove t e
  | .remove _ e, _ => .ended (.error e)
  | p, _ => p

end Replace

/-- The directory in which the new file is made. -/
def directoryOf (target : Path) : Path :=
  match target.parent? with
  | some dir => if dir.raw = [] then .ofString "." else dir
  | none => .ofString "."

/-- The name of a new file: `.tmp` and six digits. -/
def numberedName (n : Nat) : Bytes :=
  let digits := toString n
  Bytes.ofString (".tmp" ++ String.ofList (List.replicate (6 - digits.length) '0') ++ digits)

/-- A name that none of the entries has. -/
def freshName (taken : List Bytes) : Bytes :=
  (((List.range (taken.length + 1)).map numberedName).find? (· ∉ taken)).getD (numberedName 0)

/-- Make a new, empty file that only its owner may read and write, under a name that is chosen when the taken ones are
known. It is named by its absolute path. -/
def createTemp (m : Machine) (dir : Path) (choose : List Bytes → Bytes) : Except IoError (Path × Machine) := do
  let dir := m.cwd.path.join dir
  let _ ← m.shortStart (dir.join ⟨numberedName 0⟩)
  let place ← m.find dir
  match m.tree.node place.ino with
  | .dir es =>
    let name := choose (es.map (·.1))
    match es.lookup name with
    | some _ => .error (.os .EEXIST)
    | none => .ok (dir.join ⟨name⟩, (m.createFile place name [] 0o600).2)
  | _ => .error (.os .ENOTDIR)

/-- Carry out one call. -/
def Call.perform (target : Path) (m : Machine) : Call Path → Reply Path × Machine
  | .create =>
    match createTemp m (directoryOf target) freshName with
    | .ok (t, m) => (.created t, m)
    | .error e => (.failed e, m)
  | .write t rest =>
    match m.append false t rest with
    | .ok m => (.wrote rest.length, m)
    | .error e => (.failed e, m)
  | .sync _ => (.done, m)
  | .rename t =>
    match m.rename t target with
    | .ok m => (.done, m)
    | .error e => (.failed e, m)
  | .remove t =>
    match m.removeFile t with
    | .ok m => (.done, m)
    | .error e => (.failed e, m)

/-- Carry out calls until there is none left; `fuel` bounds their number. -/
def runCalls (target : Path) (data : Bytes) : Nat → Replace Path → Machine → Replace Path × Machine
  | 0, p, m => (p, m)
  | fuel + 1, p, m =>
    match p.call? with
    | none => (p, m)
    | some c =>
      let (r, m) := c.perform target m
      runCalls target data fuel (p.next data r) m

/-- Replace a file by one with other contents. -/
def replace (m : Machine) (target : Path) (data : Bytes) : Except IoError Unit × Machine :=
  match runCalls target data 8 .create m with
  | (.ended r, m) => (r, m)
  | (_, m) => (.ok (), m)

end Retrace.Output
