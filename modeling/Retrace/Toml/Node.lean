/-!
# Documents of settings

The tree that a settings text stands for. A table remembers how it came about, because that decides what may still
be added to it.
-/

namespace Retrace.Toml

/-- How a table came about: by its own header, on the way to a deeper header, by a dotted key, or in braces. -/
inductive TableKind where
  | header
  | implicit
  | dotted
  | inline
  deriving DecidableEq, Repr

/-- A value of a document. Of floats, booleans and dates only the kind is kept. -/
inductive Node where
  | text (s : String)
  | integer (i : Int)
  | float
  | boolean
  | moment
  | array (items : List Node)
  | table (kind : TableKind) (entries : List (String × Node))
  | tables (each : List (List (String × Node)))
  deriving Repr, Inhabited

/-- Keys with their values, in order of appearance. -/
abbrev Entries := List (String × Node)

namespace Entries

/-- The value of a key. -/
def get? (es : Entries) (key : String) : Option Node := (es.find? (·.1 == key)).map (·.2)

/-- Give a key a value, in its old place if it has one. -/
def put (es : Entries) (key : String) (v : Node) : Entries :=
  if es.any (·.1 == key) then es.map fun e => if e.1 == key then (key, v) else e else es ++ [(key, v)]

/-- Add a key that must be new. -/
def add? (es : Entries) (key : String) (v : Node) : Option Entries :=
  if es.any (·.1 == key) then none else some (es ++ [(key, v)])

/-- Apply `f` to the last table of a list. -/
def onLast (f : Entries → Option Entries) : List Entries → Option (List Entries)
  | [] => none
  | [es] => (f es).map ([·])
  | es :: rest => (onLast f rest).map (es :: ·)

/-- Apply `f` to the table that a header path leads to; missing tables come about implicitly. -/
def alterAt (f : Entries → Option Entries) : List String → Entries → Option Entries
  | [], es => f es
  | k :: ks, es =>
    match es.get? k with
    | none => (alterAt f ks []).map fun sub => es.put k (.table .implicit sub)
    | some (.table kind sub) =>
      if kind = .inline then none else (alterAt f ks sub).map fun sub => es.put k (.table kind sub)
    | some (.tables each) => (onLast (alterAt f ks) each).map fun each => es.put k (.tables each)
    | some _ => none

/-- Add a value under a dotted key. Only tables without a header of their own can be entered this way, and the last
one must itself come from dotted keys; `dotted` says whether `es` does. -/
def addDotted? (key : String) (v : Node) : List String → Bool → Bool → Entries → Option Entries
  | [], atTop, dotted, es => if dotted = atTop then none else es.add? key v
  | k :: ks, _, _, es =>
    match es.get? k with
    | none => (addDotted? key v ks false true []).map fun sub => es.put k (.table .dotted sub)
    | some (.table kind sub) =>
      if kind = .inline ∨ kind = .header then none
      else (addDotted? key v ks false (kind = .dotted) sub).map fun sub => es.put k (.table kind sub)
    | some (.tables each) => (onLast (addDotted? key v ks false false) each).map fun each => es.put k (.tables each)
    | some _ => none

/-- Open the table `key` by its header; a table that came about implicitly may be opened once. -/
def openTable? (key : String) (es : Entries) : Option Entries :=
  match es.get? key with
  | none => some (es.put key (.table .header []))
  | some (.table .implicit sub) => some (es.put key (.table .header sub))
  | some _ => none

/-- Open one more table of the list `key`. -/
def openNext? (key : String) (es : Entries) : Option Entries :=
  match es.get? key with
  | none => some (es.put key (.tables [[]]))
  | some (.tables each) => some (es.put key (.tables (each ++ [[]])))
  | some _ => none

end Entries

/-- A line that says something. -/
inductive Line where
  | assign (path : List String) (key : String) (v : Node)
  | header (path : List String) (key : String)
  | arrayHeader (path : List String) (key : String)
  deriving Repr

/-- A document under construction: all entries, and the path of the table that assignments go to. -/
structure Draft where
  root : Entries
  current : List String

/-- What a line adds to a document, if it may be added. -/
def Draft.line? (d : Draft) : Line → Option Draft
  | .assign path key v =>
    (Entries.alterAt (Entries.addDotted? key v path path.isEmpty false) d.current d.root).map ({ d with root := · })
  | .header path key => (Entries.alterAt (Entries.openTable? key) path d.root).map (⟨·, path ++ [key]⟩)
  | .arrayHeader path key => (Entries.alterAt (Entries.openNext? key) path d.root).map (⟨·, path ++ [key]⟩)

/-- The document that lines make up. -/
def ofLines? (ls : List Line) : Option Entries := (ls.foldlM Draft.line? ⟨[], []⟩).map Draft.root

end Retrace.Toml
