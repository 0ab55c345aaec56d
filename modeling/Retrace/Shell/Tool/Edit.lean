import Retrace.Shell.Tool.Script

/-!
# The stream editor

What an editing script does with the lines of a text.
-/

namespace Retrace.Shell.Tool

/-- The lines of a text, each with whether it has an end. -/
def endedLines (sep : Char) (t : Raw) : List (Raw × Bool) :=
  let (last, done) := t.foldl (fun (line, done) c =>
    if c = sep then ([], (line.reverse, true) :: done) else (c :: line, done)) ([], [])
  (if last = [] then done else (last.reverse, false) :: done).reverse

/-- A line that is read, and the name of its file. -/
structure InputLine where
  text : Raw
  ended : Bool
  file : Raw
  /-- It is the last one. -/
  isLast : Bool

/-- The state of the editor. -/
structure Editing where
  space : Raw := []
  ended : Bool := true
  hold : Raw := []
  line : Nat := 0
  file : Raw := ['-']
  isLast : Bool := false
  input : List InputLine
  /-- What has been written, the last part first. -/
  out : List Raw := []
  /-- The end of the last line is still missing in the output. -/
  missing : Bool := false
  /-- What is written at the end of the turn, the last part first. -/
  queue : List Raw := []
  replaced : Bool := false
  /-- The commands whose range goes on, each with the line that ends it if that is known. -/
  ranges : List (Nat × Option Nat) := []
  /-- The commands whose range will not begin again. -/
  closed : List Nat := []
  lastRegex : Option Regex := none
  /-- The files that the script writes. -/
  files : List (Raw × Raw) := []
  /-- How much of the files that it reads line by line has been read. -/
  sources : List (Raw × List Raw) := []
  fault : Option String := none

/-- What is fixed in a run of the editor. -/
structure EditPlan where
  commands : Array EditCommand
  quiet : Bool
  separator : Char
  read : Raw → Raw
  width : Nat

namespace Editing

def emit (s : Editing) (sep : Char) (text : Raw) (ended : Bool) : Editing :=
  { s with
    out := ((if s.missing then sep :: text else text) ++ (if ended then [sep] else [])) :: s.out
    missing := !ended }

/-- Write into a file of the script. -/
def emitTo (s : Editing) (sep : Char) (name text : Raw) (ended : Bool) : Editing :=
  if name = "/dev/stdout".toList then s.emit sep text ended
  else
    let line := text ++ [sep]
    if (s.files.lookup name).isSome then
      { s with files := s.files.map fun (n, t) => if n = name then (n, t ++ line) else (n, t) }
    else { s with files := s.files ++ [(name, line)] }

/-- Write what is due at the end of a turn. -/
def flush (s : Editing) (sep : Char) : Editing :=
  s.queue.reverse.foldl (fun (s : Editing) text =>
    if text = [] then s
    else { s with out := (if s.missing then sep :: text else text) :: s.out, missing := false }) { s with queue := [] }

/-- Take the next line. -/
def read? (s : Editing) (sep : Char) (keep : Bool) : Option Editing :=
  match s.input with
  | [] => none
  | l :: input =>
    some { (s.flush sep) with
      space := if keep then s.space ++ sep :: l.text else l.text
      ended := l.ended, line := s.line + 1, file := l.file, isLast := l.isLast, input
      replaced := if keep then s.replaced else s.replaced }

/-- The match of an expression. -/
def findIn (s : Editing) (p : EditPattern) (cs : Raw) (start : Nat) : Option Regex.Found × Editing :=
  match p.regex.orElse fun _ => s.lastRegex with
  | none => (none, { s with fault := some "no previous regular expression" })
  | some r => (r.find p.folds cs start, { s with lastRegex := some r })

/-- An address alone fits the line. -/
def fits (s : Editing) (a : EditAddress) : Bool × Editing :=
  match a with
  | .line n => (s.line == n, s)
  | .every first step => (if step = 0 then s.line == first else first ≤ s.line && (s.line - first) % step == 0, s)
  | .last => (s.isLast, s)
  | .fits p =>
    let (f, s) := s.findIn p s.space 0
    (f.isSome, s)
  | .after _ | .multiple _ => (false, s)

/-- The line is in the range of the command with an index. -/
def selects (s : Editing) (i : Nat) (k : EditCommand) : Bool × Editing :=
  let close (s : Editing) : Editing := { s with ranges := s.ranges.filter (·.1 ≠ i) }
  let openTo (s : Editing) (last : Option Nat) : Editing := { s with ranges := (i, last) :: s.ranges }
  match k.start, k.stop with
  | none, _ => (true, s)
  | some a, none => s.fits a
  | some a, some b =>
    let starting (s : Editing) : Bool × Editing :=
      let (here, s) := s.fits a
      if !here then (false, s)
      else
        match b with
        | .line n => (true, if n ≤ s.line then s else openTo s (some n))
        | .after n => (true, if n = 0 then s else openTo s (some (s.line + n)))
        | .multiple n =>
          let last := if n = 0 then s.line else (s.line + n - 1) / n * n
          (true, if last ≤ s.line then s else openTo s (some last))
        | _ => (true, openTo s none)
    match s.ranges.lookup i with
    | some (some last) =>
      if s.line < last then (true, s)
      else if s.line = last then (true, close s)
      else starting (close s)
    | some none =>
      let (over', s) := s.fits b
      (true, if over' then close s else s)
    | none =>
      if k.fromZero ∧ s.line = 1 ∧ !s.closed.contains i then
        let s := { s with closed := i :: s.closed }
        let (over', s) := s.fits b
        (true, if over' then s else openTo s none)
      else starting s

end Editing

/-- A text after a change of case. -/
structure Cased where
  /-- The text, last character first. -/
  text : Raw := []
  lasting : CaseChange := .keep
  once : CaseChange := .keep

def Cased.push (k : Cased) (cs : Raw) : Cased :=
  cs.foldl (fun k c =>
    let d := match k.once, k.lasting with
      | .upperOne, _ | .keep, .upper => c.toUpper
      | .lowerOne, _ | .keep, .lower => c.toLower
      | _, _ => c
    { k with text := d :: k.text, once := .keep }) k

/-- What a match is replaced by. -/
def replaced (parts : List Replacement) (whole : Raw) (groups : List (Nat × Raw)) (k : Cased) : Cased :=
  parts.foldl (fun k p => match p with
    | .text cs => k.push cs
    | .group 0 => k.push whole
    | .group n => k.push ((groups.lookup n).getD [])
    | .change .upperOne => { k with once := .upperOne }
    | .change .lowerOne => { k with once := .lowerOne }
    | .change c => { k with lasting := c, once := .keep }) k

/-- Replace matches from a place on: how many have been passed, where the last one has ended, and the text so far, last
character first. -/
def substituteFrom (r : Regex) (folds : Bool) (parts : List Replacement) (nth : Nat) (all : Bool) (cs : Raw) :
    Nat → Nat → Nat → Option Nat → Raw → Bool → Raw × Bool
  | 0, _, place, _, acc, done => ((cs.drop place).reverse ++ acc, done)
  | fuel + 1, count, place, lastEnd, acc, done =>
    let finish : Raw × Bool := ((cs.drop place).reverse ++ acc, done)
    if cs.length < place then (acc, done)
    else
      match r.find folds cs place with
      | none => finish
      | some f =>
        let acc := ((cs.drop place).take (f.start - place)).reverse ++ acc
        let whole := (cs.drop f.start).take f.length
        let stop := f.start + f.length
        let step (count : Nat) (acc : Raw) (done : Bool) : Raw × Bool :=
          if f.length = 0 then
            substituteFrom r folds parts nth all cs fuel count (f.start + 1) lastEnd
              ((cs[f.start]?).toList ++ acc) done
          else substituteFrom r folds parts nth all cs fuel count stop (some stop) acc done
        if f.length = 0 ∧ lastEnd = some f.start then step count acc done
        else if count + 1 < nth then step (count + 1) (whole.reverse ++ acc) done
        else
          let acc := (replaced parts whole f.groups {}).text ++ acc
          if all then step (count + 1) acc true
          else ((cs.drop stop).reverse ++ acc, true)

/-- A line as `l` shows it, in pieces of some width. -/
def visible (width : Nat) (cs : Raw) : Raw :=
  let shown (c : Char) : Raw :=
    match (['\\', '\x07', '\x08', '\x0c', '\n', '\r', '\t', '\x0b'].zip "\\abfnrtv".toList).lookup c with
    | some l => ['\\', l]
    | none =>
      if ' ' ≤ c ∧ c ≤ '~' then [c]
      else
        let d := Nat.toDigits 8 c.toNat
        '\\' :: List.replicate (3 - d.length) '0' ++ d
  let (_, out) := cs.foldl (fun (used, out) c =>
    let t := shown c
    if 1 < width ∧ width - 1 < used + t.length then (t.length, out ++ ['\\', '\n'] ++ t)
    else (used + t.length, out ++ t)) (0, ([] : Raw))
  out ++ ['$', '\n']

/-- How the commands for a line end. -/
inductive TurnEnd where
  /-- The line is written and the next one is read. -/
  | over
  /-- The next line is read. -/
  | deleted
  /-- The commands begin again with what is left. -/
  | again
  /-- The editor ends, and writes the line first when `shows` holds. -/
  | quit (status : Nat) (shows : Bool)

/-- Carry out the commands from one with an index on. -/
def editFrom (p : EditPlan) : Nat → Nat → Editing → TurnEnd × Editing
  | 0, _, s => (.quit 0 false, s)
  | fuel + 1, i, s =>
    match p.commands[i]? with
    | none => (.over, s)
    | some k =>
      let (here, s) := s.selects i k
      if s.fault.isSome then (.quit 1 false, s)
      else if here = k.negated then
        match k.action with
        | .block stop => editFrom p fuel (stop + 1) s
        | _ => editFrom p fuel (i + 1) s
      else
        let go (s : Editing) : TurnEnd × Editing := editFrom p fuel (i + 1) s
        let show' (s : Editing) : Editing := s.emit p.separator s.space s.ended
        match k.action with
        | .block _ | .idle => go s
        | .substitute e parts nth all print file =>
          match e.regex.orElse fun _ => s.lastRegex with
          | none => (.quit 1 false, { s with fault := some "no previous regular expression" })
          | some r =>
            let (text, done) := substituteFrom r e.folds parts nth all s.space (s.space.length + 2) 0 0 none [] false
            let s := { s with lastRegex := some r }
            if !done then go s
            else
              let s := { s with space := text.reverse, replaced := true }
              let s := if print then show' s else s
              go (match file with
                | some name => s.emitTo p.separator name s.space s.ended
                | none => s)
        | .transliterate pairs => go { s with space := s.space.map fun c => (pairs.lookup c).getD c }
        | .delete => (.deleted, s)
        | .deleteFirst =>
          if !s.space.contains '\n' then (.deleted, s)
          else (.again, { s with space := (s.space.dropWhile (· ≠ '\n')).drop 1 })
        | .print => go (show' s)
        | .printFirst => go (s.emit p.separator (s.space.takeWhile (· ≠ '\n')) true)
        | .next =>
          if s.input.isEmpty then (.quit 0 true, s)
          else
            let s := if p.quiet then s else show' s
            match s.read? p.separator false with
            | some s => go s
            | none => (.quit 0 true, s)
        | .appendNext =>
          match s.read? p.separator true with
          | some s => go s
          | none => (.quit 0 true, s)
        | .hold => go { s with hold := s.space }
        | .holdMore => go { s with hold := s.hold ++ '\n' :: s.space }
        | .get => go { s with space := s.hold }
        | .getMore => go { s with space := s.space ++ '\n' :: s.hold }
        | .swap => go { s with space := s.hold, hold := s.space }
        | .branch t => editFrom p fuel t s
        | .branchIf t => if s.replaced then editFrom p fuel t { s with replaced := false } else go s
        | .branchUnless t => if s.replaced then go { s with replaced := false } else editFrom p fuel t s
        | .append text => go { s with queue := text :: s.queue }
        | .insert text => go (s.emit p.separator text.dropLast true)
        | .change text =>
          let inRange := k.stop.isSome && !k.negated && (s.ranges.lookup i).isSome
          (.deleted, if inRange then s else s.emit p.separator text.dropLast true)
        | .quit status shows => (.quit status shows, s)
        | .number => go (s.emit p.separator (toString s.line).toList true)
        | .list width =>
          go (s.emit p.separator (visible (width.getD p.width) s.space).dropLast true)
        | .readFile name =>
          go { s with queue := (if name = "/dev/stdin".toList then p.read ['-'] else p.read name) :: s.queue }
        | .readLine name =>
          let lines := (s.sources.lookup name).getD (Raw.lines (p.read name))
          let s := { s with sources := (name, lines.drop 1) :: s.sources.filter (·.1 ≠ name) }
          go (match lines with
            | l :: _ => { s with queue := (l ++ ['\n']) :: s.queue }
            | [] => s)
        | .writeFile name onlyFirst =>
          go (if onlyFirst then s.emitTo p.separator name (s.space.takeWhile (· ≠ '\n')) true
            else s.emitTo p.separator name s.space s.ended)
        | .fileName => go (s.emit p.separator s.file true)
        | .clear => go { s with space := [] }

/-- Carry out the commands for each line, and give the status in the end. -/
def editAll (p : EditPlan) : Nat → Bool → Editing → Nat × Editing
  | 0, _, s => (0, s)
  | fuel + 1, reads, s =>
    let next := if reads then (s.read? p.separator false).map fun s => { s with replaced := false } else some s
    match next with
    | none => (0, s.flush p.separator)
    | some s =>
      let (e, s) := editFrom p fuel 0 s
      let shown (s : Editing) : Editing := if p.quiet then s else s.emit p.separator s.space s.ended
      match e with
      | .over => editAll p fuel true (shown s)
      | .deleted => editAll p fuel true s
      | .again => editAll p fuel false (s.flush p.separator)
      | .quit status shows => (status, (if shows then shown s else s).flush p.separator)

/-- The files that a script writes are there from its start. -/
def EditPlan.files (p : EditPlan) : List Raw :=
  p.commands.toList.filterMap fun k => match k.action with
    | .writeFile name _ => some name
    | .substitute _ _ _ _ _ file => file
    | _ => none

def sedOptions : OptionTable :=
  { plain := "nErsuzi", valued := "efl"
    long := [("quiet", 'n'), ("silent", 'n'), ("expression", 'e'), ("file", 'f'), ("regexp-extended", 'E'),
      ("separate", 's'), ("unbuffered", 'u'), ("null-data", 'z'), ("line-length", 'l'), ("in-place", 'i'),
      ("zero-terminated", 'z')] }

def sed (c : Call) : Deed :=
  -- A suffix may follow `-i`.
  let suffix := (c.args.findSome? fun a => match a with
    | '-' :: 'i' :: suffix => some suffix
    | _ => if "--in-place=".toList.isPrefixOf a then some (a.drop 11) else none).getD []
  let c := { c with args := c.args.map fun a =>
    if "-i".toList.isPrefixOf a ∨ "--in-place=".toList.isPrefixOf a then "-i".toList else a }
  c.withOptions sedOptions (fun os names =>
    let fault (status : Nat) (text : Raw) : Deed := { err := c.complain text, status }
    let pieces : List (Except Raw Raw) := os.reverse.filterMap fun (o, v) =>
      if o = 'e' then some (.ok v)
      else if o = 'f' then
        some (match c.read v with
          | .ok t => .ok (if t.getLast? = some '\n' then t.dropLast else t)
          | .error e => .error ("couldn't open file ".toList ++ v ++ ": ".toList ++ Call.errorText e))
      else none
    let (pieces, names) := if pieces.isEmpty then ((names.take 1).map .ok, names.drop 1) else (pieces, names)
    match pieces.mapM id with
    | .error why => fault 1 why
    | .ok [] =>
      { err := "Usage: sed [OPTION]... \x7bscript-only-if-no-other-script\x7d [input-file]...\n\n".toList, status := 1 }
    | .ok pieces =>
      let text := (pieces.intersperse ['\n']).flatten
      match readScript (os.has 'E' || os.has 'r') text with
      | .error (.label name) => fault 1 ("can't find label for jump to \x60".toList ++ name ++ ['\''])
      | .error (.inText place why) =>
        fault 1 ("-e expression #1, char ".toList ++ (toString place).toList ++ ": ".toList ++ why)
      | .ok commands =>
        let separator := if os.has 'z' then '\x00' else '\n'
        let p : EditPlan := { commands, separator, quiet := os.has 'n' || "#n\n".toList.isPrefixOf (text ++ ['\n'])
                              read := fun n => ((c.read n).toOption).getD []
                              width := ((os.value? 'l').bind Raw.nat?).getD 70 }
        let inPlace := os.has 'i'
        let found : List (Raw × Except IoError Raw) := c.texts names
        let err := found.flatMap fun (n, t) => match t with
          | .ok _ => []
          | .error (.os .EISDIR) =>
            c.complain (if inPlace then "couldn't edit ".toList ++ n ++ ": not a regular file".toList
              else "read error on ".toList ++ n ++ ": Is a directory".toList)
          | .error e => c.complain ("can't read ".toList ++ n ++ ": ".toList ++ Call.errorText e)
        let found : List (Raw × Raw) := found.filterMap fun (n, t) => t.toOption.map fun t => (n, t)
        let groups : List (List (Raw × Raw)) := if inPlace ∨ os.has 's' then found.map fun f => [f] else [found]
        let linesOf (fs : List (Raw × Raw)) : List InputLine :=
          let all := fs.flatMap fun (n, t) => (endedLines separator t).map fun (l, ended) => (n, l, ended)
          let count := all.length
          (all.zipIdx 1).map fun ((n, l, ended), k) =>
            { text := l, ended := ended || (decide (k < count)), file := n, isLast := k == count }
        let fuel : Nat := 1000000
        let start : Editing := { input := [], files := p.files.map fun n => (n, []) }
        let (status, s, results) := groups.foldl (fun (status, s, results) fs =>
          if status ≠ 0 ∨ s.fault.isSome then (status, s, results)
          else
            let (status, s) := editAll p fuel true { s with
              input := linesOf fs, missing := if inPlace then false else s.missing, line := if inPlace then 0 else s.line }
            if inPlace then (status, { s with out := [] }, results ++ [(fs, s.out.reverse.flatten)])
            else (status, s, results)) (0, start, ([] : List (List (Raw × Raw) × Raw)))
        let writes := (s.files.filter fun (n, _) => n ≠ "/dev/stdout".toList ∧ n ≠ "/dev/stderr".toList).map
          fun (n, t) => attempt fun m => m.write (c.path n) (Raw.bytes t)
        let edits := results.flatMap fun (fs, t) =>
          fs.flatMap fun (n, old) =>
            (if suffix = [] then [] else [attempt fun m => m.write (c.path (n ++ suffix)) (Raw.bytes old)]) ++
              [attempt fun m => m.write (c.path n) (Raw.bytes t)]
        let err := err ++ (match s.fault with
          | some why => c.complain ("-e expression #1, char 0: ".toList ++ why.toList)
          | none => []) ++ ((s.files.lookup "/dev/stderr".toList).getD [])
        { out := s.out.reverse.flatten, err, changes := writes ++ edits
          status := if s.fault.isSome then 1 else if status ≠ 0 then status else if found.length <
            (if names.isEmpty then 1 else names.length) then 2 else 0
          rest := if Call.readsInput names then some [] else none })

end Retrace.Shell.Tool
