import Retrace.Shell.Pattern
import Retrace.Shell.Tool.Order

/-!
# Tools for text

The tools that read text and write text.
-/

namespace Retrace.Shell.Tool

/-- Up to three octal digits. -/
def octal (cs : Raw) : Option (Nat × Raw) :=
  let digits := (cs.take 3).takeWhile fun c => '0' ≤ c && c ≤ '7'
  if digits = [] then none
  else some (digits.foldl (fun n c => n * 8 + (c.toNat - '0'.toNat)) 0 % 256, cs.drop digits.length)

/-- The character that a letter stands for after a backslash. -/
def controlChar? : Char → Option Char
  | 'a' => some '\x07'
  | 'b' => some '\x08'
  | 'f' => some '\x0c'
  | 'n' => some '\n'
  | 'r' => some '\r'
  | 't' => some '\t'
  | 'v' => some '\x0b'
  | '\\' => some '\\'
  | _ => none

/-- A text with blanks before it up to some width. -/
def wide (width : Nat) (cs : Raw) : Raw := List.replicate (width - cs.length) ' ' ++ cs

/-- The number in a base, with at least `width` digits. -/
def padded (base width n : Nat) : Raw :=
  let d := Nat.toDigits base n
  List.replicate (width - d.length) '0' ++ d

/-- A text divided at each separator. -/
def piecesAt (sep : Char) (cs : Raw) : List Raw :=
  let (last, done) := cs.foldl (fun (cur, done) c => if c = sep then ([], cur.reverse :: done) else (c :: cur, done))
    (([] : Raw), ([] : List Raw))
  (last.reverse :: done).reverse

/-- A count, perhaps with a unit. -/
def amount? (cs : Raw) : Option Nat :=
  let digits := cs.takeWhile Char.isDigit
  let unit : Option Nat := match String.ofList (cs.drop digits.length) with
    | "" => some 1
    | "b" => some 512
    | "kB" | "KB" => some 1000
    | "k" | "K" | "KiB" => some 1024
    | "MB" => some 1000000
    | "M" | "m" | "MiB" => some 1048576
    | "G" | "GiB" => some 1073741824
    | _ => none
  match Raw.nat? digits, unit with
  | some n, some u => some (n * u)
  | _, _ => none

/-! ## Whole texts -/

def catOptions : OptionTable :=
  { plain := "AbeEnstTuv"
    long := [("show-all", 'A'), ("number-nonblank", 'b'), ("show-ends", 'E'), ("number", 'n'), ("squeeze-blank", 's'),
      ("show-tabs", 'T'), ("show-nonprinting", 'v')] }

/-- A character as it is shown when it cannot be printed. -/
def caret (c : Char) : Raw :=
  let low (n : Nat) : Raw :=
    if n < 32 then ['^', Char.ofNat (n + 64)] else if n = 127 then ['^', '?'] else [Char.ofNat n]
  if 128 ≤ c.toNat then 'M' :: '-' :: low (c.toNat - 128) else low c.toNat

/-- How far a text has been shown: the number of lines, whether a line begins, and how many empty lines came last. -/
structure Shown where
  lines : Nat := 0
  fresh : Bool := true
  empty : Nat := 0

/-- A text with numbers and signs as options ask for them. -/
def decorated (os : Options) (s : Shown) (cs : Raw) : Shown × Raw :=
  let has (o : String) : Bool := (os.last? o).isSome
  let ends := has "AeE"
  let tabs := has "AtT"
  let signs := has "Aetv"
  let step : Shown × List Raw → Char → Shown × List Raw := fun (s, out) c =>
    let blank := s.fresh && c == '\n'
    if blank ∧ has "s" ∧ 1 ≤ s.empty then (s, out)
    else
      let counted := s.fresh && (if has "b" then !blank else has "n")
      let number := if counted then wide 6 (toString (s.lines + 1)).toList ++ ['\t'] else []
      let text : Raw :=
        if c = '\n' then (if ends then ['$', '\n'] else ['\n'])
        else if c = '\t' then if tabs then ['^', 'I'] else ['\t']
        else if signs then caret c
        else [c]
      ({ lines := if counted then s.lines + 1 else s.lines, fresh := c == '\n', empty := if blank then s.empty + 1 else 0 },
        (number ++ text) :: out)
  let (s, out) := cs.foldl step (s, [])
  (s, out.reverse.flatten)

def cat (c : Call) : Deed :=
  c.withOptions catOptions fun os names =>
    let plain := os.all (·.1 == 'u')
    let step : Deed × Shown → Raw × Except IoError Raw → Deed × Shown := fun (d, s) (n, t) =>
      match t with
      | .error e => ({ d with writes := (2, c.lament n e) :: d.writes, status := 1 }, s)
      | .ok t =>
        if plain then ({ d with writes := (1, t) :: d.writes }, s)
        else
          let (s, t) := decorated os s t
          ({ d with writes := (1, t) :: d.writes }, s)
    let (d, _) := (c.texts names).foldl step ({}, {})
    { d with writes := d.writes.reverse, rest := if Call.readsInput names then some [] else none }

def tac (c : Call) : Deed :=
  c.withOptions { plain := "br", valued := "s" } fun _ names =>
    c.filter names fun t =>
      let lines := linesBy '\n' t
      let ended := if t.getLast? = some '\n' then lines.map (· ++ ['\n'])
        else lines.dropLast.map (· ++ ['\n']) ++ lines.getLast?.toList
      ended.reverse.flatten

def rev (c : Call) : Deed :=
  c.withOptions {} fun _ names =>
    c.filter names fun t =>
      let out := Raw.unlines ((linesBy '\n' t).map List.reverse)
      if t.getLast? = some '\n' then out else out.dropLast

/-! ## Characters -/

/-- All characters from one to another. -/
def charRange (lo hi : Char) : Raw := (List.range (hi.toNat + 1 - lo.toNat)).map fun k => Char.ofNat (lo.toNat + k)

/-- A part of a set of characters. -/
inductive SetPart where
  | chars (cs : Raw)
  /-- As often as it takes when no count is given. -/
  | repeated (c : Char) (count : Option Nat)
  | letters (upper : Bool)

/-- One character of a set, with the text after it. -/
def setChar : Raw → Option (Char × Raw)
  | '\\' :: c :: rest =>
    match octal (c :: rest) with
    | some (n, rest) => some (Char.ofNat n, rest)
    | none => some ((controlChar? c).getD c, rest)
  | c :: rest => some (c, rest)
  | [] => none

/-- The parts of a set as `tr` writes it, or what is wrong with it. -/
def setParts : Nat → Raw → Except Raw (List SetPart)
  | 0, _ => .ok []
  | fuel + 1, cs =>
    let one (cs : Raw) : Except Raw (List SetPart) :=
      match setChar cs with
      | none => .ok []
      | some (c, rest) =>
        match rest, setChar (rest.drop 1) with
        | '-' :: _, some (d, rest) =>
          if d < c then
            .error ("range-endpoints of '".toList ++ [c, '-', d] ++ "' are in reverse collating sequence order".toList)
          else (setParts fuel rest).map (.chars (charRange c d) :: ·)
        | _, _ => (setParts fuel rest).map (.chars [c] :: ·)
    match cs with
    | '[' :: ':' :: rest =>
      match className [] rest with
      | some (name, rest) =>
        match String.ofList name with
        | "upper" => (setParts fuel rest).map (.letters true :: ·)
        | "lower" => (setParts fuel rest).map (.letters false :: ·)
        | _ =>
          let ranges := namedRanges name
          if ranges.isEmpty then .error ("invalid character class ".toList ++ quoted name)
          else
            let set := ranges.flatMap fun (lo, hi) => charRange lo hi
            (setParts fuel rest).map (.chars (set.mergeSort fun a b => a ≤ b) :: ·)
      | none => one cs
    | '[' :: '=' :: c :: '=' :: ']' :: rest => (setParts fuel rest).map (.chars [c] :: ·)
    | '[' :: rest =>
      match setChar rest with
      | some (c, '*' :: after) =>
        let digits := after.takeWhile Char.isDigit
        match after.drop digits.length with
        | ']' :: rest =>
          let n := if digits.head? = some '0' then digits.foldl (fun n d => n * 8 + (d.toNat - '0'.toNat)) 0
            else (Raw.nat? digits).getD 0
          (setParts fuel rest).map (.repeated c (if n = 0 then none else some n) :: ·)
        | _ => one cs
      | _ => one cs
    | cs => one cs

/-- The characters of a set that fills up to some length. -/
def setChars (length : Nat) (ps : List SetPart) : Raw :=
  let size : SetPart → Nat
    | .chars cs => cs.length
    | .repeated _ n => n.getD 0
    | .letters _ => 26
  let known := (ps.map size).foldl (· + ·) 0
  ps.flatMap fun
    | .chars cs => cs
    | .repeated c n => List.replicate (n.getD (length - known)) c
    | .letters upper => if upper then charRange 'A' 'Z' else charRange 'a' 'z'

/-- Each run of one character of a set, once. -/
def squeeze (set : Raw) : Option Char → Raw → Raw
  | _, [] => []
  | last, c :: cs => if last = some c ∧ c ∈ set then squeeze set last cs else c :: squeeze set (some c) cs

def trOptions : OptionTable :=
  { plain := "cCdst", leading := true
    long := [("complement", 'c'), ("delete", 'd'), ("squeeze-repeats", 's'), ("truncate-set1", 't')] }

def tr (c : Call) : Deed :=
  c.withOptions trOptions fun os sets =>
    let wrong (text : Raw) : Deed := { err := c.misused text, status := 1 }
    let fault (text : Raw) : Deed := { err := c.complain text, status := 1 }
    let deletes := os.has 'd'
    let squeezes := os.has 's'
    let least := if deletes = squeezes then 2 else 1
    let most := if deletes ∧ !squeezes then 1 else 2
    match sets with
    | [] => wrong "missing operand".toList
    | first :: others =>
      if others.length + 1 < least then
        wrong ("missing operand after ".toList ++ quoted first ++ (if deletes
          then "\nTwo strings must be given when both deleting and squeezing repeats."
          else "\nTwo strings must be given when translating.").toList)
      else if most < others.length + 1 then
        wrong ("extra operand ".toList ++ quoted ((others.drop (most - 1)).headD []) ++
          (if deletes ∧ others.length = 1 then "\nOnly one string may be given when deleting without squeezing repeats."
            else "").toList)
      else
        let parse (t : Raw) : Except Raw (List SetPart) := setParts (t.length + 1) t
        match parse first, parse (others.headD []) with
        | .error why, _ | _, .error why => fault why
        | .ok one, .ok two =>
          let all : Raw := charRange '\x00' '\xff'
          let listed := setChars 0 one
          let sources := if os.has 'c' ∨ os.has 'C' then all.filter (!listed.contains ·) else listed
          let goals := setChars sources.length two
          let translates := !deletes && !others.isEmpty
          let sources := if os.has 't' ∧ translates then sources.take goals.length else sources
          if translates ∧ goals = [] ∧ !os.has 't' then
            fault "when not truncating set1, string2 must be non-empty".toList
          else
            let table : Array (Option Char) :=
              if deletes then (all.map fun x => if sources.contains x then none else some x).toArray
              else if !translates then (all.map some).toArray
              else
                let filled := goals ++ List.replicate (sources.length - goals.length) (goals.getLast?.getD ' ')
                (sources.zip filled).foldl (fun t (x, y) => t.setIfInBounds x.toNat (some y)) (all.map some).toArray
            let squeezed : Raw := if !squeezes then [] else if others.isEmpty then sources else goals
            let text := c.input.filterMap fun x => table.getD x.toNat (some x)
            { out := if squeezed = [] then text else squeeze squeezed none text, rest := some [] }

/-! ## Parts of a text -/

/-- The first lines of a text. -/
def firstLines (n : Nat) (cs : Raw) : Raw :=
  match n with
  | 0 => []
  | n + 1 =>
    let line := cs.takeWhile (· ≠ '\n')
    match cs.drop line.length with
    | [] => line
    | _ :: rest => line ++ '\n' :: firstLines n rest

/-- How much of a text is taken: lines or bytes, from which end, and how many. -/
structure Portion where
  lines : Bool := true
  /-- Counted from the other end. -/
  other : Bool := false
  count : Nat := 10

/-- The portion that options ask for, or what is wrong with them. The sign counts from the other end. -/
def portion (sign : Char) (os : Options) : Except Raw Portion :=
  match os.find? fun (o, _) => o == 'n' || o == 'c' with
  | none => .ok {}
  | some (o, v) =>
    let digits := if v.head? = some '-' ∨ v.head? = some '+' then v.drop 1 else v
    match amount? digits with
    | some count => .ok { lines := o == 'n', other := v.head? == some sign, count }
    | none =>
      .error ("invalid number of ".toList ++ (if o = 'n' then "lines: " else "bytes: ").toList ++ quoted digits)

/-- Options of digits alone as they are written in full. -/
def spelledOut (args : List Raw) : List Raw :=
  match args with
  | ('-' :: d :: ds) :: rest =>
    let digits := (d :: ds).takeWhile Char.isDigit
    let letters := (d :: ds).drop digits.length
    if digits = [] then args
    else
      let unit := if letters.contains 'c' then 'c' else 'n'
      (['-', unit] ++ digits) :: ((letters.filter fun l => l ≠ 'c' && l ≠ 'l' && l ≠ 'n').map fun l => ['-', l]) ++ rest
  | args => args

/-- The texts of several files, each under a heading where options or their number ask for it, and what becomes of those
that cannot be read. -/
def headed (c : Call) (os : Options) (names : List Raw) (f : Raw → Raw) : Deed :=
  let names := if names.isEmpty then [['-']] else names
  let titled := match os.last? "qv" with
    | some 'q' => false
    | some _ => true
    | none => decide (1 < names.length)
  let title (name : Raw) : Raw := if name = ['-'] then "standard input".toList else name
  let step : Deed × Bool → Raw × Except IoError Raw → Deed × Bool := fun (d, first) (n, t) =>
    let heading := if titled then (if first then [] else ['\n']) ++ "==> ".toList ++ title n ++ " <==\n".toList else []
    match t with
    | .ok t => ({ d with writes := (1, heading ++ f t) :: d.writes }, false)
    | .error (.os .EISDIR) =>
      ({ d with
        writes := (2, c.complain ("error reading ".toList ++ quoted n ++ ": Is a directory".toList)) :: (1, heading) ::
          d.writes
        status := 1 }, false)
    | .error e =>
      ({ d with
        writes := (2, c.complain ("cannot open ".toList ++ quoted n ++ " for reading: ".toList ++ Call.errorText e)) ::
          d.writes
        status := 1 }, first)
  let (d, _) := (c.texts names).foldl step ({}, true)
  { d with writes := d.writes.reverse }

def headOptions : OptionTable :=
  { plain := "qvz", valued := "nc"
    long := [("lines", 'n'), ("bytes", 'c'), ("quiet", 'q'), ("silent", 'q'), ("verbose", 'v'),
      ("zero-terminated", 'z')] }

def head (c : Call) : Deed :=
  { c with args := spelledOut c.args }.withOptions headOptions fun os names =>
    match portion '-' os with
    | .error why => { err := c.complain why, status := 1 }
    | .ok p =>
      let lineCount (t : Raw) : Nat := t.count '\n' + (if t = [] ∨ t.getLast? = some '\n' then 0 else 1)
      let cut (t : Raw) : Raw :=
        if p.lines then firstLines (if p.other then lineCount t - p.count else p.count) t
        else t.take (if p.other then t.length - p.count else p.count)
      if names = ["/dev/zero".toList] ∧ !p.lines then { out := List.replicate p.count '\x00' }
      else
        let input := c.input
        let used := (cut input).length
        let taken := if !p.lines ∨ c.rewinds then used else if p.count = 0 then 0 else (used / 8192 + 1) * 8192
        { headed c os names cut with rest := if Call.readsInput names then some (input.drop taken) else none }

def tail (c : Call) : Deed :=
  let args := match c.args with
    | ('+' :: ds) :: rest => if ds ≠ [] ∧ ds.all Char.isDigit then ("-n+".toList ++ ds) :: rest else c.args
    | args => spelledOut args
  { c with args }.withOptions { headOptions with plain := "qvzfFs" } fun os names =>
    match portion '+' os with
    | .error why => { err := c.complain why, status := 1 }
    | .ok p =>
      let cut (t : Raw) : Raw :=
        if p.lines then
          let count := t.count '\n' + (if t = [] ∨ t.getLast? = some '\n' then 0 else 1)
          t.drop (firstLines (if p.other then p.count - 1 else count - p.count) t).length
        else t.drop (if p.other then p.count - 1 else t.length - p.count)
      { headed c os names cut with rest := if Call.readsInput names then some [] else none }

/-- Ranges of positions, the last one of a range missing when it goes on. -/
abbrev Ranges := List (Nat × Option Nat)

/-- The positions that a list spells, or what is wrong with it. -/
def readRanges (fields : Bool) (cs : Raw) : Except Raw Ranges :=
  let what := if fields then "field".toList else "byte/character position".toList
  ((piecesAt ',' cs).flatMap (piecesAt ' ')).mapM fun part =>
    let number (t : Raw) : Except Raw Nat :=
      match Raw.nat? t with
      | some 0 => .error (if fields then "fields are numbered from 1" else "byte/character positions are numbered from 1").toList
      | some n => .ok n
      | none => .error ("invalid ".toList ++ what ++ " value ".toList ++ quoted t)
    match piecesAt '-' part with
    | [t] => (number t).map fun n => (n, some n)
    | [[], []] => .error "invalid range with no endpoint: -".toList
    | [t, []] => (number t).map fun n => (n, none)
    | [[], t] => (number t).map fun n => (1, some n)
    | [a, b] => do
      let (lo, hi) := (← number a, ← number b)
      if hi < lo then .error "invalid decreasing range".toList else .ok (lo, some hi)
    | _ => .error ("invalid ".toList ++ what ++ (if fields then " range" else " range").toList)

/-- A position is in one of the ranges. -/
def inRanges (rs : Ranges) (n : Nat) : Bool := rs.any fun (lo, hi) => lo ≤ n && (hi.map fun h => decide (n ≤ h)).getD true

def cutOptions : OptionTable :=
  { plain := "sznC", valued := "dfcbO"
    long := [("bytes", 'b'), ("characters", 'c'), ("delimiter", 'd'), ("fields", 'f'), ("complement", 'C'),
      ("only-delimited", 's'), ("output-delimiter", 'O'), ("zero-terminated", 'z')] }

def cut (c : Call) : Deed :=
  c.withOptions cutOptions fun os names =>
    let wrong (text : String) : Deed := { err := c.misused text.toList, status := 1 }
    let lists := os.filter fun (o, _) => o == 'b' || o == 'c' || o == 'f'
    match lists with
    | [] => wrong "you must specify a list of bytes, characters, or fields"
    | _ :: _ :: _ => wrong "only one list may be specified"
    | [(o, spec)] =>
      let fields := o = 'f'
      if ((os.value? 'd').map fun d => decide (1 < d.length)).getD false then
        wrong "the delimiter must be a single character"
      else if !fields ∧ os.has 'd' then wrong "an input delimiter may be specified only when operating on fields"
      else if !fields ∧ os.has 's' then
        wrong "suppressing non-delimited lines makes sense\n\tonly when operating on fields"
      else
        match readRanges fields spec with
        | .error why => { err := c.misused why, status := 1 }
        | .ok ranges =>
          let sep := match os.value? 'd' with
            | some [x] => x
            | some _ => '\x00'
            | none => '\t'
          let stop := if os.has 'z' then '\x00' else '\n'
          let chosen (k : Nat) : Bool := inRanges ranges k != os.has 'C'
          let line (l : Raw) : Option Raw :=
            if fields then
              if !l.contains sep then if os.has 's' then none else some l
              else
                let parts := (((piecesAt sep l).zipIdx 1).filter fun (_, k) => chosen k).map (·.1)
                some (parts.intersperse ((os.value? 'O').getD [sep])).flatten
            else
              let step : Raw × Option Nat → Char × Nat → Raw × Option Nat := fun (out, last) (x, k) =>
                if !chosen k then (out, last)
                else
                  let gap := (last.map fun j => decide (j + 1 < k)).getD false
                  (x :: (if gap then ((os.value? 'O').getD []).reverse else []) ++ out, some k)
              some ((l.zipIdx 1).foldl step ([], none)).1.reverse
          c.filter names fun t => ((linesBy stop t).filterMap line).flatMap (· ++ [stop])

/-! ## Counts -/

/-- Count words. -/
def words (cs : Raw) : Nat :=
  (cs.foldl (fun (inWord, n) c =>
    if c = ' ' ∨ ('\t' ≤ c ∧ c ≤ '\r') then (false, n) else (true, if inWord then n else n + 1)) (false, 0)).2

def wcOptions : OptionTable :=
  { plain := "clLmw"
    long := [("bytes", 'c'), ("chars", 'm'), ("lines", 'l'), ("max-line-length", 'L'), ("words", 'w')] }

/-- The width of the longest line. -/
def longestLine (cs : Raw) : Nat :=
  (cs.foldl (fun (here, most) c =>
    if c = '\n' ∨ c = '\r' ∨ c = '\x0c' then (0, max here most)
    else
      let here := if c = '\t' then here + 8 - here % 8 else if ' ' ≤ c ∧ c ≤ '~' then here + 1 else here
      (here, max here most)) (0, 0)).2

def wc (c : Call) : Deed :=
  c.withOptions wcOptions fun os names =>
    let bare := os.isEmpty
    let counts (t : Raw) : List Nat :=
      (if os.has 'l' ∨ bare then [t.count '\n'] else []) ++ (if os.has 'w' ∨ bare then [words t] else []) ++
        (if os.has 'm' then [t.length] else []) ++ (if os.has 'c' ∨ bare then [t.length] else []) ++
        (if os.has 'L' then [longestLine t] else [])
    let found := c.texts names
    let isRegular (n : Raw) : Bool := if n = ['-'] then c.rewinds else c.machine.isFile (c.path n)
    let total := (found.map fun (n, t) => if isRegular n then (t.toOption.getD []).length else 0).foldl (· + ·) 0
    let width :=
      if found.length = 1 ∧ (counts []).length = 1 then 1
      else if found.any fun (n, t) => !isRegular n && (match t with | .error (.os .ENOENT) => false | _ => true) then max 7 (toString total).length
      else (toString total).length
    let line (ns : List Nat) (name : Raw) : Raw :=
      ((ns.map fun n => wide width (toString n).toList).intersperse [' ']).flatten ++
        (if name = [] then [] else ' ' :: name) ++ ['\n']
    let shown (name : Raw) : Raw := if names.isEmpty then [] else name
    let writes := found.flatMap fun (n, t) => match t with
      | .ok t => [(1, line (counts t) (shown n))]
      | .error (.os .EISDIR) => [(2, c.lament n (.os .EISDIR)), (1, line (counts []) n)]
      | .error e => [(2, c.lament n e)]
    let sums := found.foldl (fun acc (_, t) => match t with
      | .ok t => (acc.zip (counts t)).map fun (a, b) => if os.has 'L' ∧ acc.length = 1 then max a b else a + b
      | .error _ => acc) ((counts []).map fun _ => 0)
    { writes := writes ++ (if found.length > 1 then [(1, line sums "total".toList)] else [])
      status := if found.all fun (_, t) => t.isOk then 0 else 1
      rest := if Call.readsInput names then some [] else none }

/-! ## Bytes -/

/-- How bytes are shown: in which way, and how many at a time. -/
structure DumpKind where
  letter : Char
  size : Nat
  text : Bool := false

/-- The width of what is shown for one item. -/
def DumpKind.width (k : DumpKind) : Nat :=
  match k.letter with
  | 'c' | 'a' => 4
  | 'x' => 2 * k.size + 1
  | 'o' => (8 * k.size + 2) / 3 + 1
  | 'u' => (toString ((1 <<< (8 * k.size)) - 1)).length + 1
  | _ => (toString (1 <<< (8 * k.size - 1))).length + 2

/-- The names of the first characters. -/
def controlNames : List String :=
  ["nul", "soh", "stx", "etx", "eot", "enq", "ack", "bel", "bs", "ht", "nl", "vt", "ff", "cr", "so", "si", "dle", "dc1",
    "dc2", "dc3", "dc4", "nak", "syn", "etb", "can", "em", "sub", "esc", "fs", "gs", "rs", "us", "sp"]

/-- What is shown for an item. -/
def DumpKind.item (k : DumpKind) (bs : Raw) : Raw :=
  let n := bs.foldr (fun b n => n * 256 + b.toNat) 0
  let b := bs.headD '\x00'
  match k.letter with
  | 'c' =>
    match (['\x07', '\x08', '\x0c', '\n', '\r', '\t', '\x0b', '\x00'].zip "abfnrtv0".toList).lookup b with
    | some l => ['\\', l]
    | none => if ' ' ≤ b ∧ b ≤ '~' then [b] else padded 8 3 b.toNat
  | 'a' =>
    let m := b.toNat % 128
    if m = 127 then "del".toList else ((controlNames[m]?).getD (String.ofList [Char.ofNat m])).toList
  | 'x' => padded 16 (2 * k.size) n
  | 'o' => padded 8 ((8 * k.size + 2) / 3) n
  | 'u' => (toString n).toList
  | _ =>
    let half := 1 <<< (8 * k.size - 1)
    (if n < half then toString n else "-" ++ toString (2 * half - n)).toList

/-- The kinds that a text spells. -/
def dumpKinds : Nat → Raw → List DumpKind
  | 0, _ => []
  | fuel + 1, cs =>
    match cs with
    | [] => []
    | l :: rest =>
      let digits := rest.takeWhile Char.isDigit
      let after := rest.drop digits.length
      let (size, after) : Nat × Raw := match Raw.nat? digits, after with
        | some n, after => (n, after)
        | none, 'C' :: after => (1, after)
        | none, 'S' :: after => (2, after)
        | none, 'I' :: after => (4, after)
        | none, 'L' :: after => (8, after)
        | none, after => (if l = 'c' ∨ l = 'a' then 1 else 4, after)
      let text := after.head? = some 'z'
      { letter := l, size, text } :: dumpKinds fuel (if text then after.drop 1 else after)

/-- Rows of bytes, each with its address in front; equal rows are passed over unless `all` are shown. -/
def dump (address : Nat → Raw) (kinds : List DumpKind) (width : Nat) (all : Bool) :
    Nat → Nat → Option Raw → Bool → Raw → Raw
  | 0, _, _, _, _ => []
  | fuel + 1, place, last, starred, cs =>
    if cs.isEmpty then address place
    else
      let row := cs.take width
      let rest := cs.drop width
      if !all ∧ last = some row ∧ row.length = width then
        (if starred then [] else ['*', '\n']) ++ dump address kinds width all fuel (place + width) last true rest
      else
        let block := (kinds.map (·.size)).foldl max 1
        let cell := (kinds.map fun k => k.width * (block / k.size)).foldl max 1
        let line (isFirst : Bool) (k : DumpKind) : Raw :=
          let head := (address place).dropLast
          let count := (row.length + k.size - 1) / k.size
          let items := (List.range count).map fun i =>
            let bytes := (row.drop (i * k.size)).take k.size
            wide (cell * k.size / block) (k.item bytes)
          let text := items.flatten
          let full := (width / k.size) * (cell * k.size / block)
          (if isFirst then head else List.replicate head.length ' ') ++ text ++
            (if k.text then List.replicate (full - text.length) ' ' ++ "  >".toList ++
              row.map (fun b => if ' ' ≤ b ∧ b ≤ '~' then b else '.') ++ ['<'] else []) ++ ['\n']
        (kinds.zipIdx.flatMap fun (k, i) => line (i == 0) k) ++
          dump address kinds width all fuel (place + row.length) (some row) false rest

def odOptions : OptionTable :=
  { plain := "abcdfilosxv", valued := "AjNtwS"
    long := [("address-radix", 'A'), ("skip-bytes", 'j'), ("read-bytes", 'N'), ("format", 't'), ("width", 'w'),
      ("output-duplicates", 'v')] }

def od (c : Call) : Deed :=
  c.withOptions odOptions fun os names =>
    let kind : Char × Raw → List DumpKind := fun (o, v) =>
      match o with
      | 't' => dumpKinds (v.length + 1) v
      | 'a' | 'c' => [{ letter := o, size := 1 }]
      | 'b' => [{ letter := 'o', size := 1 }]
      | 'd' => [{ letter := 'u', size := 2 }]
      | 'i' => [{ letter := 'd', size := 4 }]
      | 'l' => [{ letter := 'd', size := 8 }]
      | 'o' => [{ letter := 'o', size := 2 }]
      | 's' => [{ letter := 'd', size := 2 }]
      | 'x' => [{ letter := 'x', size := 2 }]
      | _ => []
    let kinds := os.reverse.flatMap kind
    let kinds := if kinds.isEmpty then [{ letter := 'o', size := 2 }] else kinds
    let address (n : Nat) : Raw := match os.value? 'A' with
      | some ['n'] => []
      | some ['x'] => padded 16 6 n ++ ['\n']
      | some ['d'] => padded 10 7 n ++ ['\n']
      | _ => padded 8 7 n ++ ['\n']
    let number (o : Char) : Option Nat := (os.value? o).bind amount?
    let skip := (number 'j').getD 0
    let (texts, err) := c.inputs names
    let all := texts.flatMap (·.2)
    let bytes := all.drop skip
    let bytes := match number 'N' with
      | some n => bytes.take n
      | none => bytes
    { out := if texts.isEmpty then [] else dump address kinds ((number 'w').getD 16) (os.has 'v') (bytes.length + 1) skip
        none false bytes
      err, status := if err.isEmpty then 0 else 1
      rest := if Call.readsInput names then some (match number 'N' with
        | some n => c.input.drop (skip + n)
        | none => []) else none }

/-! ## Lines -/

def nl (c : Call) : Deed :=
  c.withOptions { plain := "p", valued := "bdfhilnsvw" } fun os names =>
    let number (o : Char) (default : Nat) : Nat := ((os.value? o).bind Raw.nat?).getD default
    let width := number 'w' 6
    let all := (os.value? 'b') == some ['a']
    let sep := (os.value? 's').getD ['\t']
    let shown (n : Nat) : Raw :=
      let d := (toString n).toList
      match (os.value? 'n').map String.ofList with
      | some "ln" => d ++ List.replicate (width - d.length) ' '
      | some "rz" => List.replicate (width - d.length) '0' ++ d
      | _ => wide width d
    c.filter names fun t =>
      let step : Nat × List Raw → Raw → Nat × List Raw := fun (n, out) l =>
        if l = [] ∧ !all then (n, (List.replicate (width + sep.length) ' ' ++ ['\n']) :: out)
        else (n + number 'i' 1, (shown n ++ sep ++ l ++ ['\n']) :: out)
      ((linesBy '\n' t).foldl step (number 'v' 1, [])).2.reverse.flatten

/-- Rows of texts side by side. -/
def besides (sep : Nat → Raw) : Nat → List (List Raw) → Raw
  | 0, _ => []
  | fuel + 1, columns =>
    if columns.all List.isEmpty then []
    else
      let cells := columns.map fun ls => ls.headD []
      let row := (cells.zipIdx).flatMap fun (t, k) => (if k = 0 then [] else sep (k - 1)) ++ t
      row ++ '\n' :: besides sep fuel (columns.map (·.drop 1))

def paste (c : Call) : Deed :=
  c.withOptions { plain := "sz", valued := "d", long := [("serial", 's'), ("delimiters", 'd')] } fun os names =>
    let rec separators : Nat → Raw → List Raw
      | 0, _ => []
      | fuel + 1, cs =>
        match cs with
        | '\\' :: '0' :: rest => [] :: separators fuel rest
        | '\\' :: x :: rest => [(controlChar? x).getD x] :: separators fuel rest
        | x :: rest => [x] :: separators fuel rest
        | [] => []
    let seps := match os.value? 'd' with
      | some d => separators (d.length + 1) d
      | none => [['\t']]
    let sep (k : Nat) : Raw := if seps.isEmpty then [] else seps.getD (k % seps.length) []
    let names := if names.isEmpty then [['-']] else names
    match (c.texts names).find? fun (_, t) => !t.isOk with
    | some (n, .error e) => { err := c.lament n e, status := 1 }
    | _ =>
      -- Columns that are read from the input share its lines.
      let inputs := (names.filter Call.isInput).length
      let shared := linesBy '\n' c.input
      let column (n : Raw) (k : Nat) : List Raw :=
        if !Call.isInput n then linesBy '\n' ((c.read n).toOption.getD [])
        else if os.has 's' then (if k = 0 then shared else [])
        else (shared.zipIdx.filter fun (_, i) => i % inputs == k).map (·.1)
      let columns := (names.foldl (fun (acc, k) n =>
        (acc ++ [column n k], if Call.isInput n then k + 1 else k)) (([] : List (List Raw)), 0)).1
      let out := if os.has 's' then columns.flatMap fun ls =>
          ((ls.zipIdx).flatMap fun (t, k) => (if k = 0 then [] else sep (k - 1)) ++ t) ++ ['\n']
        else besides sep ((columns.map List.length).foldl max 0 + 1) columns
      { out, rest := if Call.readsInput names then some [] else none }

/-- A line in pieces of some width, which end after a blank when `atBlanks` holds. -/
def foldLine (width : Nat) (atBlanks : Bool) : Nat → Raw → List Raw
  | 0, l => [l]
  | fuel + 1, l =>
    if l.length ≤ width then [l]
    else
      let piece := l.take width
      let kept := if atBlanks then (piece.reverse.dropWhile (· ≠ ' ')).reverse else piece
      let piece := if kept = [] then piece else kept
      piece :: foldLine width atBlanks fuel (l.drop piece.length)

def fold (c : Call) : Deed :=
  c.withOptions { plain := "bs", valued := "w", long := [("width", 'w'), ("spaces", 's'), ("bytes", 'b')] } fun os names =>
    let width := max 1 (((os.value? 'w').bind Raw.nat?).getD 80)
    c.filter names fun t =>
      let out := Raw.unlines ((linesBy '\n' t).flatMap fun l => foldLine width (os.has 's') (l.length + 1) l)
      if t.getLast? = some '\n' ∨ out = [] then out else out.dropLast

def expand (c : Call) : Deed :=
  c.withOptions { plain := "i", valued := "t", long := [("tabs", 't'), ("initial", 'i')] } fun os names =>
    let width := max 1 (((os.value? 't').bind Raw.nat?).getD 8)
    c.filter names fun t =>
      (t.foldl (fun (out, column) x =>
        if x = '\t' then
          let n := width - column % width
          (List.replicate n ' ' ++ out, column + n)
        else (x :: out, if x = '\n' then 0 else column + 1)) (([] : Raw), 0)).1.reverse

/-! ## Numbers -/

/-- A decimal number with a fixed number of places. -/
def decimalText (places : Nat) (n : Int) : Raw :=
  let d := (toString n.natAbs).toList
  let d := List.replicate (places + 1 - d.length) '0' ++ d
  (if n < 0 then ['-'] else []) ++ d.take (d.length - places) ++ (if places = 0 then [] else '.' :: d.drop (d.length - places))

def seqOptions : OptionTable :=
  { plain := "w", valued := "sf", leading := true, long := [("separator", 's'), ("equal-width", 'w'), ("format", 'f')] }

def seq (c : Call) : Deed :=
  -- Numbers below zero are no options.
  let isNumber (a : Raw) : Bool := match a with
    | '-' :: d :: _ => d.isDigit || d == '.'
    | _ => false
  let switches := c.args.takeWhile fun a => a.head? == some '-' && !isNumber a
  let valued := match switches.getLast? with
    | some ['-', 's'] | some ['-', 'f'] => 1
    | _ => 0
  let count := switches.length + valued
  let args := if switches.contains ['-', '-'] then c.args else c.args.take count ++ ['-', '-'] :: c.args.drop count
  { c with args }.withOptions seqOptions fun os ns =>
    let wrong (text : Raw) : Deed := { err := c.misused text, status := 1 }
    let number (t : Raw) : Option Decimal :=
      let body := if t.head? = some '-' ∨ t.head? = some '+' then t.drop 1 else t
      let (d, rest) := Decimal.leading true t
      if body ≠ [] ∧ (body.head?.map fun (x : Char) => x.isDigit || x == '.').getD false ∧ rest = [] then some d else none
    match ns with
    | [] => wrong "missing operand".toList
    | _ :: _ :: _ :: extra :: _ => wrong ("extra operand ".toList ++ quoted extra)
    | ns =>
      match ns.find? fun n => (number n).isNone with
      | some n => wrong ("invalid floating point argument: ".toList ++ quoted n)
      | none =>
        let ds := ns.filterMap number
        let one : Decimal := ⟨1, 0⟩
        let (first, step, last) : Decimal × Decimal × Decimal := match ds with
          | [l] => (one, one, l)
          | [f, l] => (f, one, l)
          | [f, s, l] => (f, s, l)
          | _ => (one, one, one)
        if step.digits = 0 then wrong ("invalid Zero increment value: ".toList ++ quoted (ns.getD 1 []))
        else
          let places (d : Decimal) : Nat := (-d.power).toNat
          let shown := max (places first) (places step)
          let scale := max shown (places last)
          let value (d : Decimal) : Int := d.digits * ((Nat.pow 10 (d.power + (scale : Int)).toNat : Nat) : Int)
          let (f, s, l) := (value first, value step, value last)
          let count := if 0 < s then if l < f then 0 else ((l - f) / s).toNat + 1
            else if f < l then 0 else ((f - l) / (-s)).toNat + 1
          let text (k : Nat) : Raw :=
            decimalText shown ((f + s * (k : Int)) / ((Nat.pow 10 (scale - shown) : Nat) : Int))
          let texts := (List.range count).map text
          let width := (texts.map List.length).foldl max (if os.has 'w' then (decimalText shown l).length else 0)
          let texts := if !os.has 'w' then texts
            else texts.map fun (t : Raw) =>
              let sign := t.takeWhile (· == '-')
              sign ++ List.replicate (width - t.length) '0' ++ t.drop sign.length
          if texts.isEmpty then {}
          else { out := (texts.intersperse ((os.value? 's').getD ['\n'])).flatten ++ ['\n'] }

/-- A line without end, as far as others can read it. -/
def yes (c : Call) : Deed :=
  let line := (if c.args.isEmpty then ['y'] else (c.args.intersperse [' ']).flatten) ++ ['\n']
  { out := (List.replicate (131072 / line.length + 1) line).flatten, status := 141 }

end Retrace.Shell.Tool
