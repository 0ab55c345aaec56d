import Retrace.Machine.Errno
import Retrace.Path.Basic

/-!
# The file tree

Files, directories and symbolic links as numbered nodes, and the walk that a path describes through them.
-/

namespace Retrace

/-- The number of a node. -/
abbrev Ino := Nat

/-- A device that gives and takes bytes. -/
inductive Device where
  /-- It is empty, and what is written to it vanishes. -/
  | null
  /-- It has zeros without end, and what is written to it vanishes. -/
  | zero
  /-- It has zeros without end, and takes nothing. -/
  | full
  /-- It cannot be opened. -/
  | terminal
  deriving DecidableEq, Repr

/-- As much of a device as anybody reads. -/
def Device.bytes : Device → Bytes
  | .null | .terminal => []
  | .zero | .full => List.replicate (1 <<< 20) 0

/-- What a node holds. -/
inductive Node where
  | file (content : Bytes) (mode : Nat)
  | dir (entries : List (Bytes × Ino))
  | link (target : Bytes)
  | device (d : Device)
  deriving Repr, Inhabited

/-- A node is a directory. -/
def Node.isDir : Node → Bool
  | .dir _ => true
  | _ => false

/-- The nodes; the first one is the root directory. -/
structure Tree where
  nodes : Array Node := #[.dir []]
  deriving Repr, Inhabited

/-- A place in the tree: the names down to it from the root with their nodes, the last one first. -/
abbrev Place := List (Bytes × Ino)

namespace Place

/-- The node at a place. -/
def ino : Place → Ino
  | [] => 0
  | (_, i) :: _ => i

/-- The directory above, which for the root is the root itself. -/
def up (p : Place) : Place := p.tail

/-- The absolute path without links, idle segments and `..`. -/
def path (p : Place) : Path :=
  if p = [] then ⟨[Path.slash]⟩ else ⟨p.reverse.flatMap fun (n, _) => Path.slash :: n⟩

end Place

/-- Where a walk ends. -/
inductive Spot where
  /-- At something that is there. -/
  | found (place : Place)
  /-- At a name that its directory does not have; `closed` when a slash follows the name. -/
  | vacant (dir : Place) (name : Bytes) (closed : Bool)
  deriving Repr

/-- What a walk does at its last segment. -/
inductive Arrival where
  /-- It ends at a link, unless a slash comes after it. -/
  | keep
  /-- It follows a link. -/
  | follow
  /-- It follows a link to a file that may be made, and so allows no slash after a name. -/
  | make
  deriving DecidableEq, Repr

namespace Tree

/-- The node with a number. -/
def node (t : Tree) (i : Ino) : Node := t.nodes.getD i (.dir [])

/-- Change the node with a number. -/
def setNode (t : Tree) (i : Ino) (n : Node) : Tree := ⟨t.nodes.setIfInBounds i n⟩

/-- A new node. -/
def addNode (t : Tree) (n : Node) : Ino × Tree := (t.nodes.size, ⟨t.nodes.push n⟩)

/-- The entries of a directory. -/
def entries (t : Tree) (i : Ino) : List (Bytes × Ino) :=
  match t.node i with
  | .dir es => es
  | _ => []

/-- The entries with a name leading to a node, in place of the entry that it had. -/
def putEntry (name : Bytes) (i : Ino) : List (Bytes × Ino) → List (Bytes × Ino)
  | [] => [(name, i)]
  | (n, j) :: es => if n = name then (name, i) :: es else (n, j) :: putEntry name i es

/-- Let a name in a directory lead to a node. -/
def link (t : Tree) (dir : Ino) (name : Bytes) (i : Ino) : Tree :=
  t.setNode dir (.dir (putEntry name i (t.entries dir)))

/-- Take a name out of a directory. -/
def unlink (t : Tree) (dir : Ino) (name : Bytes) : Tree :=
  t.setNode dir (.dir ((t.entries dir).filter (·.1 ≠ name)))

/-- The longest file name. -/
def longestName : Nat := 255

/-- How many links one walk may follow. -/
def mostLinks : Nat := 40

/-- Walk from a place along segments; `follow` goes on along a link, when another one may be followed. -/
def walkVia (t : Tree) (arrival : Arrival) (follow : Option (Place → List Bytes → Except Errno Spot)) :
    Place → List Bytes → Except Errno Spot
  | here, [] => .ok (.found here)
  | here, s :: rest =>
    match t.node here.ino with
    | .dir es =>
      if s = [] ∨ s = Path.dot then t.walkVia arrival follow here rest
      else if s = Path.dotdot then t.walkVia arrival follow here.up rest
      else if arrival = .make ∧ !rest.isEmpty ∧ rest.all (· == []) then .error .EISDIR
      else if longestName < s.length then .error .ENAMETOOLONG
      else
        match es.lookup s with
        | none => if rest.all (· == []) then .ok (.vacant here s (!rest.isEmpty)) else .error .ENOENT
        | some i =>
          match t.node i with
          | .link target =>
            if rest = [] ∧ arrival = .keep then .ok (.found ((s, i) :: here))
            else
              match follow with
              | none => .error .ELOOP
              | some follow =>
                if target = [] then .error .ENOENT
                else
                  let start := if target.head? = some Path.slash then [] else here
                  follow start (Bytes.split Path.slash target ++ rest)
          | _ => t.walkVia arrival follow ((s, i) :: here) rest
    | _ => .error .ENOTDIR

/-- Walk from a place along segments and follow at most so many links. -/
def walk (t : Tree) (arrival : Arrival) : Nat → Place → List Bytes → Except Errno Spot
  | 0 => t.walkVia arrival none
  | links + 1 => t.walkVia arrival (some (t.walk arrival links))

/-- The entry of a directory that a path names. -/
inductive Entry where
  /-- No name stands at the end of the path, but this segment. -/
  | nameless (last : Bytes)
  /-- A name in a directory, whether a slash follows it, and the node that it leads to, if any. -/
  | named (dir : Place) (name : Bytes) (closed : Bool) (ino : Option Ino)
  deriving Repr

/-- Walk to the directory before the last segment, and look the last one up there. -/
def entry (t : Tree) (links : Nat) (here : Place) (segments : List Bytes) : Except Errno Entry := do
  let slashed := segments.reverse.takeWhile (· == [])
  match segments.reverse.dropWhile (· == []) with
  | [] => .ok (.nameless [])
  | last :: before =>
    match ← t.walk .follow links here before.reverse with
    | .vacant .. => .error .ENOENT
    | .found dir =>
      match t.node dir.ino with
      | .dir es =>
        if last = Path.dot ∨ last = Path.dotdot then .ok (.nameless last)
        else if longestName < last.length then .error .ENAMETOOLONG
        else .ok (.named dir last (!slashed.isEmpty) (es.lookup last))
      | _ => .error .ENOTDIR

end Tree

end Retrace
