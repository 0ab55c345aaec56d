import Retrace.Shell.Regex
import Retrace.Shell.Tool.Basic

/-!
# Editing scripts

The commands of a stream editor, read from their text.
-/

namespace Retrace.Shell.Tool

/-- An expression in an editing script; an empty one stands for the one that was used last. -/
structure EditPattern where
  regex : Option Regex
  folds : Bool := false
  deriving Repr, Inhabited

/-- A line, or the end of a range of lines. -/
inductive EditAddress where
  | line (n : Nat)
  | every (first step : Nat)
  | last
  | fits (p : EditPattern)
  /-- So many lines after the first one. -/
  | after (n : Nat)
  /-- The next line whose number is a multiple. -/
  | multiple (n : Nat)
  deriving Repr, Inhabited

/-- What becomes of the case of the letters that follow in a replacement. -/
inductive CaseChange where
  | upper
  | lower
  | upperOne
  | lowerOne
  | keep
  deriving DecidableEq, Repr

/-- A part of a replacement. -/
inductive Replacement where
  | text (cs : Raw)
  | group (n : Nat)
  | change (c : CaseChange)
  deriving Repr

/-- What a command does. A target is the index of a command. -/
inductive EditAction where
  /-- Go on behind the block that begins here when it is not chosen. -/
  | block (stop : Nat)
  | idle
  | substitute (p : EditPattern) (new : List Replacement) (nth : Nat) (all print : Bool) (file : Option Raw)
  | transliterate (pairs : List (Char × Char))
  | delete
  | deleteFirst
  | print
  | printFirst
  | next
  | appendNext
  | hold
  | holdMore
  | get
  | getMore
  | swap
  | branch (target : Nat)
  | branchIf (target : Nat)
  | branchUnless (target : Nat)
  | append (text : Raw)
  | insert (text : Raw)
  | change (text : Raw)
  | quit (status : Nat) (shows : Bool)
  | number
  | list (width : Option Nat)
  | readFile (name : Raw)
  | readLine (name : Raw)
  | writeFile (name : Raw) (onlyFirst : Bool)
  | fileName
  | clear
  deriving Repr

/-- A command with the lines that it is for. -/
structure EditCommand where
  start : Option EditAddress := none
  stop : Option EditAddress := none
  /-- The range may begin before the first line. -/
  fromZero : Bool := false
  negated : Bool := false
  action : EditAction
  deriving Repr

/-- A command whose targets are still labels. -/
inductive EditDraft where
  | done (a : EditAction)
  | jump (label : Raw) (act : Nat → EditAction)

/-- How far the reading of a script has come. -/
structure ScriptReading where
  rest : Raw
  place : Nat := 0

/-- A step of reading; a fault comes with its place and its wording. -/
abbrev ScriptStep (α : Type) := StateT ScriptReading (Except (Nat × Raw)) α

namespace ScriptStep

/-- The script has a fault here. -/
def fail {α : Type} (text : String) : ScriptStep α := do throw ((← get).place, text.toList)

/-- The next character. -/
def take : ScriptStep (Option Char) := do
  let r ← get
  match r.rest with
  | [] => return none
  | c :: rest =>
    set ({ rest, place := r.place + 1 } : ScriptReading)
    return some c

def peek : ScriptStep (Option Char) := return (← get).rest.head?

/-- Take so many characters. -/
def drop (n : Nat) : ScriptStep Unit := modify fun r => { rest := r.rest.drop n, place := r.place + min n r.rest.length }

/-- Take the characters as long as they belong. -/
def takeWhile (belongs : Char → Bool) : ScriptStep Raw := do
  let cs := (← get).rest.takeWhile belongs
  drop cs.length
  return cs

/-- Pass over blanks. -/
def skipBlanks : ScriptStep Unit := do
  let _ ← takeWhile fun c => c == ' ' || ('\t' ≤ c && c ≤ '\r' && c ≠ '\n')

/-- A number. -/
def number : ScriptStep (Option Nat) := return Raw.nat? (← takeWhile Char.isDigit)

/-- The text up to a separator, a separator after a backslash included, and whether there was one. In an expression
brackets hold separators. -/
def delimited (sep : Char) (isPattern : Bool) : Nat → Bool → Raw → Raw → Option (Raw × Nat)
  | 0, _, _, _ => none
  | fuel + 1, inBracket, acc, cs =>
    match cs with
    | [] => none
    | '\\' :: c :: rest =>
      if inBracket then delimited sep isPattern fuel true ('\\' :: acc) (c :: rest)
      else if c = sep then
        (delimited sep isPattern fuel false (if isPattern && sep ≠ '/' then c :: acc else if isPattern then c :: acc
          else if sep = '&' then c :: '\\' :: acc else c :: acc) rest).map fun (t, n) => (t, n + 2)
      else (delimited sep isPattern fuel false (c :: '\\' :: acc) rest).map fun (t, n) => (t, n + 2)
    | c :: rest =>
      if inBracket then
        match c, rest with
        | '[', m :: rest' =>
          if m = ':' ∨ m = '.' ∨ m = '=' then
            let inner := rest'.takeWhile (· ≠ ']')
            let text := '[' :: m :: inner ++ [']']
            (delimited sep isPattern fuel true (text.reverse ++ acc) (rest'.drop (inner.length + 1))).map fun (t, n) =>
              (t, n + text.length)
          else (delimited sep isPattern fuel true (c :: acc) rest).map fun (t, n) => (t, n + 1)
        | ']', _ => (delimited sep isPattern fuel false (c :: acc) rest).map fun (t, n) => (t, n + 1)
        | c, _ => (delimited sep isPattern fuel true (c :: acc) rest).map fun (t, n) => (t, n + 1)
      else if c = sep then some (acc.reverse, 1)
      else if isPattern ∧ c = '[' then
        let opening := (if rest.head? = some '^' then ['^'] else [])
        let opening := opening ++ (if (rest.drop opening.length).head? = some ']' then [']'] else [])
        (delimited sep isPattern fuel true (opening.reverse ++ '[' :: acc) (rest.drop opening.length)).map fun (t, n) =>
          (t, n + 1 + opening.length)
      else (delimited sep isPattern fuel false (c :: acc) rest).map fun (t, n) => (t, n + 1)

/-- The text up to a separator. -/
def upTo (sep : Char) (isPattern : Bool) (fault : String) : ScriptStep Raw := do
  let r ← get
  match delimited sep isPattern (r.rest.length + 1) false [] r.rest with
  | some (text, n) =>
    drop n
    return text
  | none =>
    drop r.rest.length
    fail fault

end ScriptStep

open ScriptStep

/-- A text with the escapes of characters put in. -/
def withControls (forPattern : Bool) : Nat → Raw → Raw
  | 0, cs => cs
  | fuel + 1, cs =>
    match cs with
    | '\\' :: c :: rest =>
      let coded (base : Nat) (ds : Raw) : Raw :=
        Char.ofNat ((ds.foldl (fun n d => n * base + ((digitIn base d).getD 0)) 0) % 256) ::
          withControls forPattern fuel (rest.drop ds.length)
      let digits (base count : Nat) : Raw := (rest.take count).takeWhile fun d => (digitIn base d).isSome
      let one (d : Char) : Raw := d :: withControls forPattern fuel rest
      match c with
      | 'n' => one '\n'
      | 't' => one '\t'
      | 'a' => one '\x07'
      | 'f' => one '\x0c'
      | 'v' => one '\x0b'
      | 'r' => if forPattern then one '\r' else one '\r'
      | 'x' => if digits 16 2 = [] then '\\' :: c :: withControls forPattern fuel rest else coded 16 (digits 16 2)
      | 'd' => if digits 10 3 = [] then '\\' :: c :: withControls forPattern fuel rest else coded 10 (digits 10 3)
      | 'o' => if digits 8 3 = [] then '\\' :: c :: withControls forPattern fuel rest else coded 8 (digits 8 3)
      | c => '\\' :: c :: withControls forPattern fuel rest
    | c :: rest => c :: withControls forPattern fuel rest
    | [] => []
where
  digitIn (base : Nat) (c : Char) : Option Nat :=
    let n := if c.isDigit then c.toNat - '0'.toNat
      else if c.isAlpha then c.toLower.toNat - 'a'.toNat + 10 else base
    if n < base then some n else none

/-- The expression that a text spells, and the number of its groups. -/
def editPattern (extended : Bool) (folds : Bool) (text : Raw) : ScriptStep (EditPattern × Nat) := do
  if text = [] then return (⟨none, folds⟩, 9)
  else
    match Regex.read? extended (withControls true (text.length + 1) text) with
    | .ok (r, n) => return (⟨some r, folds⟩, n)
    | .error e => fail e.message

/-- The parts of a replacement. -/
def replacement : Nat → Raw → Raw → List Replacement
  | 0, acc, cs => [.text (acc.reverse ++ cs)]
  | fuel + 1, acc, cs =>
    let cut (p : Replacement) (rest : Raw) : List Replacement :=
      if acc = [] then p :: replacement fuel [] rest else .text acc.reverse :: p :: replacement fuel [] rest
    match cs with
    | [] => if acc = [] then [] else [.text acc.reverse]
    | '&' :: rest => cut (.group 0) rest
    | '\\' :: c :: rest =>
      if c.isDigit then cut (.group (c.toNat - '0'.toNat)) rest
      else
        match c with
        | 'U' => cut (.change .upper) rest
        | 'L' => cut (.change .lower) rest
        | 'u' => cut (.change .upperOne) rest
        | 'l' => cut (.change .lowerOne) rest
        | 'E' => cut (.change .keep) rest
        | 'n' => replacement fuel ('\n' :: acc) rest
        | 't' => replacement fuel ('\t' :: acc) rest
        | 'a' => replacement fuel ('\x07' :: acc) rest
        | 'f' => replacement fuel ('\x0c' :: acc) rest
        | 'v' => replacement fuel ('\x0b' :: acc) rest
        | 'r' => replacement fuel ('\r' :: acc) rest
        | 'x' | 'o' | 'd' =>
          match withControls false 2 (c :: rest |> ('\\' :: ·)) with
          | d :: _ =>
            let base := if c = 'x' then 16 else if c = 'o' then 8 else 10
            let most := if c = 'x' then 2 else 3
            let n := ((rest.take most).takeWhile fun d => (withControls.digitIn base d).isSome).length
            if n = 0 then replacement fuel (c :: acc) rest else replacement fuel (d :: acc) (rest.drop n)
          | [] => replacement fuel (c :: acc) rest
        | c => replacement fuel (c :: acc) rest
    | c :: rest => replacement fuel (c :: acc) rest

/-- The flags after a substitution. -/
structure SubstituteFlags where
  all : Bool := false
  print : Bool := false
  nth : Option Nat := none
  folds : Bool := false
  file : Option Raw := none

/-- Nothing but the end of a command may follow. -/
def endOfCommand : ScriptStep Unit := do
  skipBlanks
  match ← peek with
  | none => return
  | some '\n' | some ';' => drop 1
  | some '}' | some '#' => return
  | some _ =>
    drop 1
    fail "extra characters after command"

/-- The name of a file up to the end of a line. -/
def scriptFile : ScriptStep Raw := do
  skipBlanks
  let name ← takeWhile (· ≠ '\n')
  drop 1
  if name = [] then fail "missing filename in r/R/w/W commands" else return name

def substituteFlags : Nat → SubstituteFlags → ScriptStep SubstituteFlags
  | 0, f => return f
  | fuel + 1, f => do
    match ← peek with
    | some 'g' =>
      drop 1
      if f.all then fail "multiple \x60g' options to \x60s' command" else substituteFlags fuel { f with all := true }
    | some 'p' =>
      drop 1
      if f.print then fail "multiple \x60p' options to \x60s' command" else substituteFlags fuel { f with print := true }
    | some 'i' | some 'I' =>
      drop 1
      substituteFlags fuel { f with folds := true }
    | some 'm' | some 'M' | some 'e' =>
      drop 1
      substituteFlags fuel f
    | some 'w' =>
      drop 1
      return { f with file := some (← scriptFile) }
    | some '}' | some '#' | none => return f
    | some '\n' | some ';' =>
      drop 1
      return f
    | some c =>
      if c.isDigit then
        let n := (← number).getD 0
        if n = 0 then fail "number option to \x60s' command may not be zero"
        else if f.nth.isSome then fail "multiple number options to \x60s' command"
        else substituteFlags fuel { f with nth := some n }
      else if c = ' ' ∨ c = '\t' then
        drop 1
        substituteFlags fuel f
      else
        drop 1
        fail "unknown option to \x60s'"

/-- An address, if one stands here. -/
def address? (extended : Bool) : ScriptStep (Option EditAddress) := do
  let pattern (sep : Char) : ScriptStep (Option EditAddress) := do
    let text ← upTo sep true "unterminated address regex"
    let folds := (← peek) == some 'I'
    let flags ← takeWhile fun c => c == 'I' || c == 'M'
    let _ := flags
    let (p, _) ← editPattern extended folds text
    return some (.fits p)
  match ← peek with
  | some '$' =>
    drop 1
    return some .last
  | some '/' =>
    drop 1
    pattern '/'
  | some '\\' =>
    drop 1
    match ← take with
    | some c => pattern c
    | none => fail "unterminated address regex"
  | some c =>
    if c.isDigit then
      let n := (← number).getD 0
      skipBlanks
      if (← peek) = some '~' then
        drop 1
        return some (.every n ((← number).getD 0))
      else return some (.line n)
    else return none
  | none => return none

/-- The end of a range. -/
def rangeEnd? (extended : Bool) : ScriptStep (Option EditAddress) := do
  match ← peek with
  | some '+' =>
    drop 1
    return (← number).map .after
  | some '~' =>
    drop 1
    return (← number).map .multiple
  | _ => address? extended

/-- The text of `a`, `i` or `c`. -/
def scriptText : ScriptStep Raw := do
  skipBlanks
  match ← peek with
  | none => fail "expected \\ after \x60a', \x60c' or \x60i'"
  | some c =>
    if c = '\\' then
      drop 1
      skipBlanks
      if (← peek) = some '\n' then drop 1
    let r ← get
    let rec body : Nat → Raw → Raw × Nat
      | 0, _ => ([], 0)
      | fuel + 1, cs =>
        match cs with
        | [] => ([], 0)
        | '\n' :: _ => ([], 1)
        | '\\' :: d :: rest => let (t, n) := body fuel rest; (d :: t, n + 2)
        | ['\\'] => ([], 1)
        | d :: rest => let (t, n) := body fuel rest; (d :: t, n + 1)
    let (text, n) := body (r.rest.length + 1) r.rest
    drop n
    return text ++ ['\n']

/-- A label up to a blank or a semicolon. -/
def scriptLabel : ScriptStep Raw := do
  skipBlanks
  let label ← takeWhile fun c => c ≠ '\n' && c ≠ ';' && c ≠ ' ' && c ≠ '\t'
  skipBlanks
  if (← peek) = some ';' ∨ (← peek) = some '\n' then drop 1
  return label

/-- A command after its addresses. -/
def scriptAction (extended : Bool) (c : Char) : ScriptStep EditDraft := do
  let simple (a : EditAction) : ScriptStep EditDraft := do
    endOfCommand
    return .done a
  match c with
  | 's' =>
    match ← take with
    | none => fail "unterminated \x60s' command"
    | some sep =>
      if sep = '\n' ∨ sep = '\\' then fail "unterminated \x60s' command"
      let old ← upTo sep true "unterminated \x60s' command"
      let new ← upTo sep false "unterminated \x60s' command"
      let flags ← substituteFlags ((← get).rest.length + 1) {}
      let (p, groups) ← editPattern extended flags.folds old
      let parts := replacement (new.length + 1) [] new
      match parts.findSome? fun
        | .group n => if groups < n then some n else none
        | _ => none with
      | some n => fail ("invalid reference \\" ++ toString n ++ " on \x60s' command's RHS")
      | none => return .done (.substitute p parts (flags.nth.getD 1) flags.all flags.print flags.file)
  | 'y' =>
    match ← take with
    | none => fail "unterminated \x60y' command"
    | some sep =>
      let plain (cs : Raw) : Raw := unescaped (cs.length + 1) (withControls false (cs.length + 1) cs)
      let old := plain (← upTo sep false "unterminated \x60y' command")
      let new := plain (← upTo sep false "unterminated \x60y' command")
      if old.length ≠ new.length then
        drop 1
        fail "strings for \x60y' command are different lengths"
      else simple (.transliterate (old.zip new))
  | 'd' => simple .delete
  | 'D' => simple .deleteFirst
  | 'p' => simple .print
  | 'P' => simple .printFirst
  | 'n' => simple .next
  | 'N' => simple .appendNext
  | 'h' => simple .hold
  | 'H' => simple .holdMore
  | 'g' => simple .get
  | 'G' => simple .getMore
  | 'x' => simple .swap
  | '=' => simple .number
  | 'F' => simple .fileName
  | 'z' => simple .clear
  | 'q' | 'Q' =>
    skipBlanks
    let n ← number
    simple (.quit (n.getD 0) (c == 'q'))
  | 'l' =>
    skipBlanks
    let n ← number
    simple (.list n)
  | 'a' => return .done (.append (← scriptText))
  | 'i' => return .done (.insert (← scriptText))
  | 'c' => return .done (.change (← scriptText))
  | 'b' => return .jump (← scriptLabel) .branch
  | 't' => return .jump (← scriptLabel) .branchIf
  | 'T' => return .jump (← scriptLabel) .branchUnless
  | 'r' => return .done (.readFile (← scriptFile))
  | 'R' => return .done (.readLine (← scriptFile))
  | 'w' => return .done (.writeFile (← scriptFile) false)
  | 'W' => return .done (.writeFile (← scriptFile) true)
  | 'v' =>
    let _ ← scriptLabel
    return .done .idle
  | c => fail ("unknown command: \x60" ++ c.toString ++ "'")
where
  unescaped : Nat → Raw → Raw
    | 0, cs => cs
    | fuel + 1, cs =>
      match cs with
      | '\\' :: c :: rest => c :: unescaped fuel rest
      | c :: rest => c :: unescaped fuel rest
      | [] => []

/-- The commands of a script, the last one first, with the blocks that are open and the labels. -/
structure ScriptDraft where
  commands : List (EditCommand × Option (Raw × (Nat → EditAction))) := []
  blocks : List Nat := []
  /-- The blocks that have been closed: where each begins and where it ends. -/
  closed : List (Nat × Nat) := []
  labels : List (Raw × Nat) := []

def readCommands (extended : Bool) : Nat → ScriptDraft → ScriptStep ScriptDraft
  | 0, d => return d
  | fuel + 1, d => do
    let _ ← takeWhile fun c => c == ' ' || c == ';' || ('\t' ≤ c && c ≤ '\r')
    let index := d.commands.length
    match ← peek with
    | none => return d
    | some '#' =>
      let _ ← takeWhile (· ≠ '\n')
      readCommands extended fuel d
    | some _ =>
      let start ← address? extended
      skipBlanks
      let stop ← if start.isSome ∧ (← peek) = some ',' then do
          drop 1
          skipBlanks
          match ← rangeEnd? extended with
          | some a => pure (some a)
          | none => fail "unexpected \x60,'"
        else pure none
      skipBlanks
      let isZero : Bool := match start with
        | some (.line 0) => true
        | _ => false
      let endsInPattern : Bool := match stop with
        | some (.fits _) => true
        | _ => false
      let negated := (← peek) == some '!'
      if negated then
        drop 1
        let _ ← takeWhile fun c => c == ' '
        if (← peek) = some '!' then
          drop 1
          fail "multiple \x60!'s"
      match ← take with
      | none => fail "missing command"
      | some c =>
        if isZero ∧ !endsInPattern then fail "invalid usage of line address 0"
        let command (action : EditAction) : EditCommand := { start, stop, fromZero := isZero, negated, action }
        let add (k : EditCommand) (jump : Option (Raw × (Nat → EditAction))) (d : ScriptDraft) : ScriptDraft :=
          { d with commands := (k, jump) :: d.commands }
        match c with
        | '\x7b' => readCommands extended fuel { add (command (.block 0)) none d with blocks := index :: d.blocks }
        | '\x7d' =>
          match d.blocks with
          | [] => fail "unexpected \x60\x7d'"
          | b :: blocks =>
            if start.isSome then fail "\x7d doesn't want any addresses"
            endOfCommand
            readCommands extended fuel { add (command .idle) none d with blocks, closed := (b, index) :: d.closed }
        | ':' =>
          if start.isSome then fail ": doesn't want any addresses"
          let label ← scriptLabel
          if label = [] then fail "\":\" lacks a label"
          readCommands extended fuel { add (command .idle) none d with labels := (label, index) :: d.labels }
        | c =>
          match ← scriptAction extended c with
          | .done a => readCommands extended fuel (add (command a) none d)
          | .jump label act => readCommands extended fuel (add (command .idle) (some (label, act)) d)

/-- What is wrong with a script. -/
inductive ScriptFault where
  | inText (place : Nat) (text : Raw)
  | label (name : Raw)

/-- The commands of a script. -/
def readScript (extended : Bool) (text : Raw) : Except ScriptFault (Array EditCommand) :=
  match (readCommands extended (text.length + 1) {}).run { rest := text } with
  | .error (place, why) => .error (.inText place why)
  | .ok (d, _) =>
    if !d.blocks.isEmpty then .error (.inText 0 "unmatched \x60\x7b'".toList)
    else
      let count := d.commands.length
      let finish : (EditCommand × Option (Raw × (Nat → EditAction))) × Nat → Except ScriptFault EditCommand :=
        fun ((k, jump), i) =>
          match jump, k.action with
          | some (label, act), _ =>
            if label = [] then .ok { k with action := act count }
            else
              match d.labels.lookup label with
              | some t => .ok { k with action := act t }
              | none => .error (.label label)
          | none, .block _ => .ok { k with action := .block ((d.closed.lookup i).getD count) }
          | none, _ => .ok k
      (d.commands.reverse.zipIdx.mapM finish).map List.toArray

end Retrace.Shell.Tool
