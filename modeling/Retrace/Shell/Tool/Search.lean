import Retrace.Shell.Regex
import Retrace.Shell.Tool.Basic

/-!
# Searching lines

The lines of texts that fit patterns, and how they are shown.
-/

namespace Retrace.Shell.Tool

/-- How lines are selected and shown. -/
structure LineSearch where
  patterns : List Regex
  folds : Bool
  inverted : Bool
  /-- The most lines that are selected in a text. -/
  most : Option Nat
  before : Nat
  after : Nat
  /-- Groups of lines are set off from each other. -/
  grouped : Bool
  onlyMatches : Bool
  numbered : Bool
  placed : Bool

namespace LineSearch

/-- The first match in a line from some place on, the longest one of those that begin there. -/
def find (s : LineSearch) (line : Raw) (start : Nat) : Option Regex.Found :=
  (s.patterns.filterMap fun r => r.find s.folds line start).foldl (fun best f =>
    match best with
    | none => some f
    | some g => if f.start < g.start ∨ (f.start = g.start ∧ g.length < f.length) then some f else some g) none

/-- The line is selected. -/
def selects (s : LineSearch) (line : Raw) : Bool := (s.find line 0).isSome != s.inverted

/-- The matches in a line that are not empty, each with its place. -/
def matches' (s : LineSearch) (line : Raw) : Nat → Nat → List (Nat × Raw)
  | 0, _ => []
  | fuel + 1, start =>
    match s.find line start with
    | none => []
    | some f =>
      if f.length = 0 then if line.length ≤ f.start then [] else matches' s line fuel (f.start + 1)
      else (f.start, (line.drop f.start).take f.length) :: matches' s line fuel (f.start + f.length)

/-- A line with its number and place in the text, and whether it is selected. -/
structure Row where
  text : Raw
  number : Nat
  place : Nat
  selected : Bool

/-- The lines of a text with what becomes of them. -/
def rows (s : LineSearch) (text : Raw) : List Row :=
  let step : List Row × Nat × Nat → Raw → List Row × Nat × Nat := fun (rows, count, place) line =>
    let selected := (s.most.map fun n => decide (count < n)).getD true && s.selects line
    (⟨line, rows.length + 1, place, selected⟩ :: rows, if selected then count + 1 else count, place + line.length + 1)
  ((Raw.lines text).foldl step ([], 0, 0)).1.reverse

/-- The rows that are shown: those that are selected and their neighbours. -/
def shown (s : LineSearch) (rows : List Row) : List Row :=
  let numbers := (rows.filter (·.selected)).map (·.number)
  -- The lines after the last one that may be selected count only as its neighbours.
  rows.filter fun r => r.selected || numbers.any fun n =>
    (r.number < n && n ≤ r.number + s.before) || (n < r.number && r.number ≤ n + s.after)

/-- The lines that are shown for a text. -/
def report (s : LineSearch) (label : Char → Raw) (text : Raw) : Raw :=
  let line (mark : Char) (r : Row) (place : Nat) (part : Raw) : Raw :=
    label mark ++ (if s.numbered then (toString r.number).toList ++ [mark] else []) ++
      (if s.placed then (toString place).toList ++ [mark] else []) ++ part ++ ['\n']
  let rows := s.shown (s.rows text)
  let step : Raw × Nat → Row → Raw × Nat := fun (out, last) r =>
    let gap := if s.grouped && last ≠ 0 && last + 1 < r.number then "--\n".toList else []
    let text :=
      if s.onlyMatches then
        if r.selected && !s.inverted then
          (s.matches' r.text (r.text.length + 1) 0).flatMap fun (k, part) => line ':' r (r.place + k) part
        else []
      else line (if r.selected then ':' else '-') r r.place r.text
    (text.reverse ++ gap.reverse ++ out, r.number)
  (rows.foldl step ([], 0)).1.reverse

end LineSearch

/-- The files below a path, by name. -/
def filesBelow (m : Machine) (path : Raw → Path) : Nat → Raw → List Raw
  | 0, _ => []
  | fuel + 1, name =>
    if m.isDir (path name) then
      let names := (((m.names (path name)).toOption.getD []).map Raw.ofBytes).mergeSort Raw.before
      names.flatMap fun n => filesBelow m path fuel (name ++ (if name.getLast? = some '/' then [] else ['/']) ++ n)
    else [name]

def grepOptions : OptionTable :=
  { plain := "EFGPivwxclLnoqshHraRbzUIyTuZ0123456789", valued := "efmABC"
    long := [("extended-regexp", 'E'), ("fixed-strings", 'F'), ("basic-regexp", 'G'), ("perl-regexp", 'P'),
      ("ignore-case", 'i'), ("invert-match", 'v'), ("word-regexp", 'w'), ("line-regexp", 'x'), ("count", 'c'),
      ("files-with-matches", 'l'), ("files-without-match", 'L'), ("line-number", 'n'), ("only-matching", 'o'),
      ("quiet", 'q'), ("silent", 'q'), ("no-messages", 's'), ("no-filename", 'h'), ("with-filename", 'H'),
      ("recursive", 'r'), ("text", 'a'), ("byte-offset", 'b'), ("regexp", 'e'), ("file", 'f'), ("max-count", 'm'),
      ("after-context", 'A'), ("before-context", 'B'), ("context", 'C'), ("line-buffered", 'u')] }

def grep (c : Call) : Deed :=
  let usage := "Usage: grep [OPTION]... PATTERNS [FILE]...\nTry 'grep --help' for more information.\n".toList
  let c := { c with args := c.args.filter fun a => !"--color".toList.isPrefixOf a && !"--colour".toList.isPrefixOf a }
  match grepOptions.read (2 * c.args.length + (c.args.map List.length).foldl (· + ·) 1) c.args with
  | .error why =>
    let spoken := "unrec".toList.isPrefixOf why || "option".toList.isPrefixOf why
    { err := (if spoken then c.complain why else []) ++ usage, status := 2 }
  | .ok (os, names) =>
    let os : Options := os.reverse
    let fault (text : Raw) : Deed := { err := c.complain text, status := 2 }
    let lines (t : Raw) : List Raw := Raw.lines (if t.getLast? = some '\n' then t else t ++ ['\n'])
    let given : List (Except Raw (List Raw)) := os.reverse.filterMap fun (o, v) =>
      if o = 'e' then some (.ok (lines v))
      else if o = 'f' then
        some (match c.read v with
          | .ok t => .ok (Raw.lines t)
          | .error e => .error (v ++ ": ".toList ++ Call.errorText e))
      else none
    let (given, names) := if given.isEmpty then ((names.take 1).map fun p => .ok (lines p), names.drop 1) else (given, names)
    if given.isEmpty then { err := usage, status := 2 }
    else
      match given.mapM id with
      | .error why => fault why
      | .ok given =>
        let extended := os.last? "EFGP" == some 'E' || os.last? "EFGP" == some 'P' || c.name == "egrep".toList
        let fixed := os.last? "EFGP" == some 'F' || c.name == "fgrep".toList
        let wrap (r : Regex) : Regex :=
          if os.has 'x' then .both .lineStart (.both r .lineEnd)
          else if os.has 'w' then .both (.noWord true) (.both r (.noWord false))
          else r
        let read (p : Raw) : Except RegexFault Regex :=
          (if fixed then .ok (Regex.literal p) else (Regex.read? extended p).map (·.1)).map wrap
        let context (o : Char) : Option Raw := (os.value? o).orElse fun _ => os.value? 'C'
        let digits := (os.reverse.filter (·.1.isDigit)).map (·.1)
        let size (o : Char) : Except Raw Nat :=
          match context o with
          | some v =>
            match Raw.nat? v with
            | some n => .ok n
            | none => .error (v ++ ": invalid context length argument".toList)
          | none => .ok ((Raw.nat? digits).getD 0)
        let most : Except Raw (Option Nat) := match os.value? 'm' with
          | none => .ok none
          | some v => if (Raw.nat? v).isSome then .ok (Raw.nat? v) else .error "invalid max count".toList
        match (given.flatten).mapM read, size 'B', size 'A', most with
        | .error e, _, _, _ => fault e.message.toList
        | _, .error why, _, _ | _, _, .error why, _ | _, _, _, .error why => fault why
        | .ok patterns, .ok before, .ok after, .ok most =>
          let s : LineSearch :=
            { patterns, folds := os.has 'i' || os.has 'y', inverted := os.has 'v', most, before, after
              grouped := (context 'A').isSome || (context 'B').isSome || !digits.isEmpty
              onlyMatches := os.has 'o', numbered := os.has 'n', placed := os.has 'b' }
          let recursive := os.has 'r' || os.has 'R'
          let files := if recursive then
              (if names.isEmpty then (filesBelow c.machine c.path 64 ['.']).map (·.drop 2)
                else names.flatMap (filesBelow c.machine c.path 64))
            else names
          let found := c.texts files
          let title (n : Raw) : Raw := if n = ['-'] then "(standard input)".toList else n
          let many := (files.length > 1 || recursive || os.has 'H') && !os.has 'h'
          let one : Raw × Except IoError Raw → List (Nat × Raw) × Bool × Bool := fun (n, t) =>
            match t with
            | .error e =>
              (if os.has 's' then [] else [(2, c.complain (n ++ ": ".toList ++ Call.errorText e))], false, true)
            | .ok text =>
              let count := ((s.rows text).filter (·.selected)).length
              let label (mark : Char) : Raw := if many then title n ++ [mark] else []
              let out : List (Nat × Raw) :=
                if os.has 'q' then []
                else if os.has 'L' then if count = 0 then [(1, title n ++ ['\n'])] else []
                else if os.has 'l' then if count = 0 then [] else [(1, title n ++ ['\n'])]
                else if os.has 'c' then [(1, label ':' ++ (toString count).toList ++ ['\n'])]
                else if text.contains '\x00' && !os.has 'a' then
                  if count = 0 then [] else [(2, c.complain (title n ++ ": binary file matches".toList))]
                else [(1, s.report label text)]
              (out, if os.has 'L' then count == 0 else count != 0, false)
          let results : List (List (Nat × Raw) × Bool × Bool) := found.map one
          let hit : Bool := results.any (·.2.1)
          { writes := results.flatMap (·.1)
            status := if (results.any (·.2.2)) && !(hit && os.has 'q') then 2 else if hit then 0 else 1
            rest := if Call.readsInput files then some [] else none }

end Retrace.Shell.Tool
