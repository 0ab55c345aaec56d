import Retrace.Shell.Process

/-!
# Fields

What becomes of the pieces that an expansion gives: their division into fields, and the names of the files that a
field with wildcards stands for.
-/

namespace Retrace.Shell

/-- What may still happen to a character. -/
inductive Mark where
  /-- It stands for itself. -/
  | exact
  /-- It may be a wildcard. -/
  | active
  /-- It may be a wildcard or divide fields. -/
  | loose
  deriving DecidableEq, Repr

/-- A piece of an expanded word. -/
inductive Piece where
  | char (c : Char) (mark : Mark)
  /-- One field ends and another begins. -/
  | gap
  /-- Nothing in quotes: there is a field, perhaps an empty one. -/
  | quotes
  deriving DecidableEq, Repr

/-- A text all of whose characters have one mark. -/
def Piece.text (mark : Mark) (cs : Raw) : List Piece := cs.map fun c => .char c mark

/-- The text of pieces that are not divided into fields. -/
def Piece.plain (ps : List Piece) : Raw := ps.filterMap fun
  | .char c _ => some c
  | .gap => some ' '
  | .quotes => none

/-- The characters of pieces that are not divided, marked as quoted or not. -/
def Piece.marked (ps : List Piece) : Marked := ps.filterMap fun
  | .char c m => some (c, m == .exact)
  | .gap => some (' ', true)
  | .quotes => none

/-- How far the division into fields has come: the field at hand, last character first, those before it, and whether
blanks have just ended one. -/
structure Division where
  current : Option Marked := none
  done : List Marked := []
  blank : Bool := false

namespace Division

def close (d : Division) (blank : Bool) : Division :=
  match d.current with
  | some cs => { done := cs.reverse :: d.done, blank }
  | none => { d with blank := blank && d.blank }

def add (d : Division) (c : Char) (quoted : Bool) : Division :=
  { d with current := some ((c, quoted) :: d.current.getD []), blank := false }

def feed (ifs : Raw) (d : Division) (p : Piece) : Division :=
  match p with
  | .gap => d.close false
  | .quotes => { d with current := some (d.current.getD []), blank := false }
  | .char c .exact => d.add c true
  | .char c .active => d.add c false
  | .char c .loose =>
    if !ifs.contains c then d.add c false
    else if c = ' ' ∨ c = '\t' ∨ c = '\n' then d.close true
    else
      match d.current with
      | some cs => { done := cs.reverse :: d.done }
      | none => if d.blank then { d with blank := false } else { d with done := [] :: d.done }

end Division

/-- The fields of pieces. -/
def fieldsOf (ifs : Raw) (ps : List Piece) : List Marked :=
  ((ps.foldl (Division.feed ifs) {}).close false).done.reverse

/-- A pattern for a path, divided at its slashes. -/
def patternSegments (p : Marked) : List Marked :=
  let (last, done) := p.foldl (fun (cur, done) (c, q) =>
    if c = '/' then ([], cur.reverse :: done) else ((c, q) :: cur, done)) (([] : Marked), ([] : List Marked))
  (last.reverse :: done).reverse

/-- The names that fit a pattern below what has been found; `s` gives the directory. -/
def expandSegments (s : State) : List Marked → Raw → List Raw
  | [], found => [found]
  | seg :: rest, found =>
    let text := seg.map (·.1)
    if !hasWildcard seg then
      expandSegments s rest (found ++ text ++ if rest.isEmpty then [] else ['/'])
    else
      let dir : Path := if found = [] then s.path ['.'] else s.path found
      let names := ((s.machine.names dir).toOption.getD []).map Raw.ofBytes
      let fitting := (names.filter fun n =>
        fits seg n && (n.head? != some '.' || text.head? == some '.')).mergeSort Raw.before
      fitting.flatMap fun n =>
        let here := found ++ n
        if rest.isEmpty then [here]
        else if s.machine.isDir (s.path here) then expandSegments s rest (here ++ ['/'])
        else []

/-- The names of the files that fit a field with wildcards, or else the field itself. -/
def expandPath (s : State) (field : Marked) : List Raw :=
  let text := field.map (·.1)
  if !hasWildcard field then [text]
  else
    match (expandSegments s (patternSegments field) []).filter fun n => (s.machine.findHere (s.path n)).isOk with
    | [] => [text]
    | ns => ns

/-- A text without the shortest or longest beginning that fits a pattern. -/
def dropStart (longest : Bool) (pattern : Marked) (cs : Raw) : Raw :=
  let ks := (List.range (cs.length + 1)).filter fun k => fits pattern (cs.take k)
  match (if longest then ks.getLast? else ks.head?) with
  | some k => cs.drop k
  | none => cs

/-- A text without the shortest or longest end that fits a pattern. -/
def dropEnd (longest : Bool) (pattern : Marked) (cs : Raw) : Raw :=
  let ks := (List.range (cs.length + 1)).filter fun k => fits pattern (cs.drop k)
  match (if longest then ks.head? else ks.getLast?) with
  | some k => cs.take k
  | none => cs

/-- The letters of the options in the order in which a shell tells them. -/
def optionLetters : String := "pubaCEVvxsnmiIfe"

/-- The values of a parameter: none when it is not set, several only for the list of all arguments. -/
def State.parameter (s : State) (name : Raw) : Option (List Raw) :=
  match name with
  | ['?'] => some [(toString s.status).toList]
  | ['$'] => some [(toString s.shell).toList]
  | ['!'] => s.lastBackground.map fun n => [(toString n).toList]
  | ['#'] => some [(toString s.args.length).toList]
  | ['-'] => some [optionLetters.toList.filter s.has]
  | ['@'] | ['*'] => if s.args.isEmpty then none else some s.args
  | _ =>
    match Raw.nat? name with
    | some 0 => some [s.name]
    | some k => (s.args[k - 1]?).map fun a => [a]
    | none => (s.var name).map fun v => [v]

/-- The characters that divide fields. -/
def State.dividers (s : State) : Raw := (s.var "IFS".toList).getD [' ', '\t', '\n']

/-- The pieces of the values of a parameter. -/
def State.valuePieces (s : State) (name : Raw) (quoted : Bool) (values : List Raw) : List Piece :=
  if quoted then
    if name = ['@'] then ((values.map fun v => .quotes :: Piece.text .exact v).intersperse [.gap]).flatten
    else .quotes :: Piece.text .exact ((values.intersperse (s.dividers.take 1)).flatten)
  else ((values.map (Piece.text .loose)).intersperse [.gap]).flatten

/-- A line up to its end, with its escapes as `read` sees them, whether it has an end, and the text after it. -/
def readLine (raw : Bool) : Nat → List Piece → Raw → List Piece × Bool × Raw
  | 0, acc, cs => (acc.reverse, false, cs)
  | fuel + 1, acc, cs =>
    match cs with
    | [] => (acc.reverse, false, [])
    | '\n' :: rest => (acc.reverse, true, rest)
    | '\\' :: rest =>
      if raw then readLine raw fuel (.char '\\' .loose :: acc) rest
      else
        match rest with
        | '\n' :: rest => readLine raw fuel acc rest
        | c :: rest => readLine raw fuel (.char c .exact :: acc) rest
        | [] => (acc.reverse, false, [])
    | '\x00' :: rest => readLine raw fuel acc rest
    | c :: rest => readLine raw fuel (.char c .loose :: acc) rest

/-- The values that `read` gives to so many variables: a field for each, and the rest of the line for the last. -/
def readValues (ifs : Raw) : Nat → List Piece → List Raw
  | 0, _ => []
  | n + 1, ps =>
    let isBlank : Piece → Bool := fun
      | .char c .loose => ifs.contains c && (c == ' ' || c == '\t' || c == '\n')
      | _ => false
    let divides : Piece → Bool := fun
      | .char c .loose => ifs.contains c
      | _ => false
    let ps := ps.dropWhile isBlank
    if n = 0 then [Piece.plain ((ps.reverse.dropWhile isBlank).reverse)]
    else
      let field := ps.takeWhile (!divides ·)
      let after := (ps.drop field.length).dropWhile isBlank
      let after := if (ps.drop field.length).takeWhile isBlank = [] ∨ (after.head?.map divides).getD false
        then after.drop 1 else after
      Piece.plain field :: readValues ifs n after

end Retrace.Shell
