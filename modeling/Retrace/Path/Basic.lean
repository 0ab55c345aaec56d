import Retrace.Text.Utf8

/-!
# Paths

A path is any byte sequence, read through its slashes. Repeated slashes and `.` between two names say nothing; a
leading `.` and every `..` stay.
-/

namespace Retrace

/-- The parts between the occurrences of `sep`, one more than there are occurrences. -/
def Bytes.split (sep : UInt8) : Bytes → List Bytes
  | [] => [[]]
  | b :: bs =>
    if b = sep then [] :: split sep bs
    else match split sep bs with
      | [] => [[b]]
      | part :: parts => (b :: part) :: parts

/-- The parts with `sep` between neighbours. -/
def Bytes.join (sep : UInt8) : List Bytes → Bytes
  | [] => []
  | [part] => part
  | part :: parts => part ++ sep :: join sep parts

/-- A file name with its directories. -/
structure Path where
  raw : Bytes
  deriving DecidableEq, Repr, Inhabited

/-- What a path is made of. -/
inductive Component where
  | root
  | current
  | parent
  | name (n : Bytes)
  deriving DecidableEq, Repr

namespace Path

def slash : UInt8 := 0x2F
def dot : Bytes := [0x2E]
def dotdot : Bytes := [0x2E, 0x2E]

/-- The path spelled by a text. -/
def ofString (s : String) : Path := ⟨Bytes.ofString s⟩

/-- The path as text, malformed bytes replaced. -/
def display (p : Path) : String := Utf8.lossy p.raw

def isAbsolute (p : Path) : Bool := p.raw.head? == some slash

/-- What stands between the slashes. -/
def segments (p : Path) : List Bytes := Bytes.split slash p.raw

/-- The segments that say nothing after the first one. -/
def isIdle (s : Bytes) : Bool := s == [] || s == dot

/-- A segment as a component. -/
def componentOf (s : Bytes) : Component :=
  if s = dot then .current else if s = dotdot then .parent else .name s

/-- The components of the segments after the first. -/
def bodyComponents (ss : List Bytes) : List Component := (ss.filter (!isIdle ·)).map componentOf

/-- The components of a path, the root or a leading `.` included. -/
def components (p : Path) : List Component :=
  match p.segments with
  | [] | [[]] => []
  | [] :: rest => .root :: bodyComponents rest
  | first :: rest => componentOf first :: bodyComponents rest

/-- Two spellings of one path. -/
def same (p q : Path) : Bool := p.components == q.components

/-- The segments without the idle ones at the end. -/
def dropIdle (ss : List Bytes) : List Bytes := (ss.reverse.dropWhile isIdle).reverse

/-- The path without its last component, as far as it is spelled out; the root and the empty path have none. -/
def parent? (p : Path) : Option Path :=
  match p.segments with
  | [] | [[]] => none
  | first :: rest =>
    match dropIdle rest with
    | [] => if first = [] then none else some ⟨[]⟩
    | kept =>
      match dropIdle kept.dropLast with
      | [] => some ⟨if first = [] then [slash] else first⟩
      | rest => some ⟨Bytes.join slash (first :: rest)⟩

/-- The last component when it is a name. -/
def fileName? (p : Path) : Option Bytes :=
  match p.components.getLast? with
  | some (.name n) => some n
  | _ => none

/-- What follows `base` in `p`, when `base` is made of the first components of `p`. -/
def stripPrefix? (p base : Path) : Option (List Component) :=
  if base.components.isPrefixOf p.components then some (p.components.drop base.components.length) else none

/-- `q` seen from the directory `p`. -/
def join (p q : Path) : Path :=
  if q.isAbsolute then q
  else if p.raw = [] ∨ p.raw.getLast? = some slash then ⟨p.raw ++ q.raw⟩
  else ⟨p.raw ++ slash :: q.raw⟩

/-- A name in the directory `p`. -/
def child (p : Path) (name : String) : Path := p.join (ofString name)

end Path

namespace SearchPath

def colon : UInt8 := 0x3A

/-- The directories of a list with colons between. -/
def split (value : Bytes) : List Path := (Bytes.split colon value).map Path.mk

/-- The list with colons between the directories, when none of them holds a colon. -/
def join? (dirs : List Path) : Option Bytes :=
  if dirs.any (·.raw.contains colon) then none else some (Bytes.join colon (dirs.map Path.raw))

end SearchPath

end Retrace
