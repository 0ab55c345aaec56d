import Retrace.Shell.Token

/-!
# Reading shell scripts

From the text of a script to its commands, one complete command after the other, so that those before a fault are
known. Readers take from the text that is left; `fuel` bounds their depth.

The text of a here-document stands after the line with its redirection. So each command is read twice: at first for
those texts alone, and then with the texts in their places.
-/

namespace Retrace.Shell

/-- The text of a script that is left, and the number of its first line. -/
structure Source where
  text : Raw
  line : Nat := 1
  /-- What words stand for where a command begins. -/
  aliases : List (Raw × Raw) := []
  deriving Repr

namespace Reader

def isNameStart (c : Char) : Bool := c.isAlpha || c == '_'

def isNameChar (c : Char) : Bool := c.isAlphanum || c == '_'

/-- A word of letters, digits and underscores that can name a variable. -/
def isName (cs : Raw) : Bool := (cs.head?.map isNameStart).getD false && cs.all isNameChar

/-- A word outside of quotes ends before this character. -/
def isMeta (c : Char) : Bool := [' ', '\t', '\n', ';', '&', '|', '<', '>', '(', ')'].contains c

/-- A parameter is named by this character alone. -/
def isSpecial (c : Char) : Bool := ['?', '$', '!', '#', '@', '*', '-'].contains c || c.isDigit

/-- A here-document whose text is still to come. -/
structure HereDoc where
  id : Nat
  mark : Raw
  /-- Tabs at the beginning of its lines do not count. -/
  trim : Bool
  /-- Nothing in it is expanded. -/
  exact : Bool

/-- How far the reading has come. -/
structure Progress extends Source where
  last : Token := .endOfFile
  /-- The last token is to be read once more. -/
  again : Bool := false
  /-- The last word. -/
  word : Word := []
  /-- The last redirection: its descriptor, its kind, and whether tabs do not count. -/
  redirection : Nat × RedirectKind × Bool := (0, .read, false)
  waiting : List HereDoc := []
  nextHere : Nat := 0
  /-- The texts of here-documents that have been read. -/
  found : List (Nat × Word) := []
  /-- The texts of here-documents that are known from before. -/
  known : List (Nat × Word) := []
  /-- The aliases in whose text the reading is, each with how much text was left after it. -/
  inside : List (Raw × Nat) := []
  /-- The word after so much text may be an alias, too. -/
  also : Option Nat := none

/-- A step of reading. -/
abbrev Step (α : Type) := StateT Progress (Except Fault) α

/-- The script has a fault here. -/
def fail {α : Type} (why : String) : Step α := do throw ⟨(← get).line, why⟩

/-- The last token does not fit here. -/
def unexpected {α : Type} : Step α := do fail ((← get).last.title ++ " unexpected")

/-- The last token does not fit here, where only one would. -/
def insteadOf {α : Type} (t : Token) : Step α := do
  fail ((← get).last.title ++ " unexpected (expecting " ++ t.title ++ ")")

/-- More fuel was needed than any script needs. -/
def exhausted {α : Type} : Step α := fail "out of depth"

/-! ## Characters -/

/-- A text without the backslashes and ends of lines before its first other character, and their number. -/
def dropJoins : Raw → Nat × Raw
  | '\\' :: '\n' :: cs => ((dropJoins cs).1 + 1, (dropJoins cs).2)
  | cs => (0, cs)

/-- Pass over lines that are joined to the next one. -/
def skipJoins : Step Unit := modify fun r =>
  let (n, cs) := dropJoins r.text
  { r with text := cs, line := r.line + n }

/-- The next character as it stands. -/
def takeExact : Step (Option Char) := do
  let r ← get
  set { r with text := r.text.drop 1 }
  return r.text.head?

/-- The next character after joined lines. -/
def take : Step (Option Char) := do skipJoins; takeExact

/-- The next character after joined lines, which stays. -/
def peek : Step (Option Char) := do skipJoins; return (← get).text.head?

/-- Take the next character if it is the given one. -/
def accept (c : Char) : Step Bool := do
  if (← peek) = some c then
    let _ ← takeExact
    return true
  else return false

/-- Put a character back. -/
def putBack (c : Char) : Step Unit := modify fun r => { r with text := c :: r.text }

/-- The end of a line has been passed. -/
def newLine : Step Unit := modify fun r => { r with line := r.line + 1 }

/-- A text from its first character on that is no blank and in no comment, and the number of joined lines passed. -/
def dropBlanks : Raw → Nat × Raw
  | '\\' :: '\n' :: cs => ((dropBlanks cs).1 + 1, (dropBlanks cs).2)
  | '#' :: cs => (0, cs.dropWhile (· ≠ '\n'))
  | c :: cs => if c = ' ' ∨ c = '\t' then dropBlanks cs else (0, c :: cs)
  | [] => (0, [])

/-- Pass over blanks and comments. -/
def skipBlanks : Step Unit := modify fun r =>
  let (n, cs) := dropBlanks r.text
  { r with text := cs, line := r.line + n }

/-- Characters as long as they belong to a name, or to a number. -/
def takeWhile (belongs : Char → Bool) : Nat → Step Raw
  | 0 => exhausted
  | fuel + 1 => do
    match ← peek with
    | some c =>
      if belongs c then
        let _ ← takeExact
        return c :: (← takeWhile belongs fuel)
      else return []
    | none => return []

/-! ## Words under construction -/

/-- Parts of a word, the last one first, and the characters of a text in that order, too. -/
abbrev Parts := List Part

/-- One more character. -/
def Parts.push (c : Char) (quoted : Bool) : Parts → Parts
  | .text cs q :: ps => if q = quoted then .text (c :: cs) q :: ps else .text [c] quoted :: .text cs q :: ps
  | ps => .text [c] quoted :: ps

/-- Quotes have been seen. -/
def Parts.quote : Parts → Parts
  | .text cs true :: ps => .text cs true :: ps
  | ps => .text [] true :: ps

/-- The characters of a text in the other order. -/
def reverseText : Part → Part
  | .text cs q => .text cs.reverse q
  | p => p

/-- The word made of parts. -/
def Parts.word (ps : Parts) : Word := ps.reverse.map reverseText

/-- The parts that make a word. -/
def partsOf (w : Word) : Parts := w.reverse.map reverseText

/-- Quotes stand in the word. -/
def isQuoted (w : Word) : Bool := w.any fun
  | .text _ q => q
  | _ => false

/-- Where a piece of a script ends that consists of characters. -/
inductive Ending where
  | word
  | quote
  | brace
  | arith
  | text
  deriving DecidableEq

/-- What surrounds the characters of a word. -/
structure Surroundings where
  ending : Ending := .word
  /-- Double quotes, or something like them. -/
  quoted : Bool := false
  /-- The braces of a parameter. -/
  inBraces : Bool := false
  /-- A here-document. -/
  inHere : Bool := false
  /-- The word is the mark of a here-document, in which nothing is expanded. -/
  isMark : Bool := false

/-- A backslash before this character says only that the character stands for itself. -/
def Surroundings.escapes (s : Surroundings) (c : Char) : Bool :=
  !s.quoted || c == '\\' || c == '\x60' || c == '$' || (c == '"' && (s.inBraces || !s.inHere)) ||
    (c == '}' && s.inBraces)

/-- The text up to the end of single quotes, and the text after it. -/
def singleQuoted : Step Raw := do
  let r ← get
  let inner := r.text.takeWhile (· ≠ '\'')
  match r.text.drop inner.length with
  | [] => throw ⟨r.line + inner.count '\n', "Unterminated quoted string"⟩
  | _ :: rest =>
    set { r with text := rest, line := r.line + inner.count '\n' }
    return inner

/-- The text up to the next backquote, its own escapes taken away. -/
def backquoted (quoted : Bool) : Nat → Raw → Step Raw
  | 0, _ => exhausted
  | fuel + 1, acc => do
    match ← take with
    | none => fail "EOF in backquote substitution"
    | some '\x60' => return acc.reverse
    | some '\\' =>
      match ← takeExact with
      | none => fail "EOF in backquote substitution"
      | some c =>
        if c = '\\' ∨ c = '\x60' ∨ c = '$' ∨ (quoted ∧ c = '"') then backquoted quoted fuel (c :: acc)
        else backquoted quoted fuel (c :: '\\' :: acc)
    | some '\n' => newLine; backquoted quoted fuel ('\n' :: acc)
    | some c => backquoted quoted fuel (c :: acc)

/-- The operator of a parameter in braces. A closing brace is taken with a parameter that has none. -/
def operator : Step ParamOp := do
  let colon ← accept ':'
  match ← take with
  | some '}' => return .plain
  | some '-' => return .orDefault colon
  | some '+' => return .alternative colon
  | some '?' => return .orFail colon
  | some '=' => return .orAssign colon
  | some '%' => if colon then return .malformed else return .dropEnd (← accept '%')
  | some '#' => if colon then return .malformed else return .dropStart (← accept '#')
  | _ => return .malformed

/-- The name of a parameter in braces with its operator. -/
def parameter (fuel : Nat) : Step (Raw × ParamOp) := do
  match ← peek with
  | some '}' | none => return ([], .malformed)
  | some c =>
    if isNameStart c then
      let name ← takeWhile isNameChar fuel
      return (name, ← operator)
    else if c.isDigit then
      let name ← takeWhile Char.isDigit fuel
      return (name, ← operator)
    else
      let _ ← takeExact
      if c = '#' then
        match ← peek with
        | none => return ([], .malformed)
        | some d =>
          if isNameStart d then return (← takeWhile isNameChar fuel, .length)
          else if d.isDigit then return (← takeWhile Char.isDigit fuel, .length)
          else
            let _ ← takeExact
            if d ≠ '}' ∧ (← peek) = some '}' then return if isSpecial d then ([d], .length) else ([], .malformed)
            else
              putBack d
              return (['#'], ← operator)
      else if isSpecial c then return ([c], ← operator)
      else return ([], .malformed)

/-! ## Here-documents -/

/-- The next line of a text, and the text after it. A line that is joined to the next one goes on there, where
backslashes do that. -/
def nextLine (exact : Bool) : Nat → Raw → Raw × Raw
  | 0, cs => (cs, [])
  | fuel + 1, cs =>
    let line := cs.takeWhile (· ≠ '\n')
    let rest := cs.drop line.length
    let slashes := (line.reverse.takeWhile (· == '\\')).length
    if exact ∨ slashes % 2 = 0 ∨ rest.isEmpty then (line, rest)
    else
      let (more, rest) := nextLine exact fuel (rest.drop 1)
      (line ++ '\n' :: more, rest)

/-- The text of a here-document, and the text after the line that ends it. -/
def hereText (d : HereDoc) : Nat → Raw → Raw × Raw
  | 0, cs => ([], cs)
  | _ + 1, [] => ([], [])
  | fuel + 1, cs =>
    let (line, rest) := nextLine d.exact fuel cs
    let line := if d.trim then line.dropWhile (· == '\t') else line
    if line = d.mark then ([], rest.drop 1)
    else
      let (more, left) := hereText d fuel (rest.drop 1)
      (line ++ rest.take 1 ++ more, left)

/-! ## Tokens and commands -/

/-- What to do with the next token: pass over ends of lines before it, and see whether it is a reserved word. -/
structure Wanted where
  newlines : Bool := false
  reserved : Bool := false
  /-- It may be an alias. -/
  expands : Bool := false

/-- A command may begin here. -/
def Wanted.command : Wanted := { reserved := true, expands := true }

/-- A command may begin here or on one of the next lines. -/
def Wanted.further : Wanted := { newlines := true, reserved := true, expands := true }

/-- Put the text of an alias in its place, if the last word is one. -/
def replaceAlias : Step Bool := do
  let r ← get
  match r.word.bare?.bind fun name => (r.aliases.lookup name).map fun text => (name, text) with
  | none => return false
  | some (name, text) =>
    let left := r.text.length
    if r.inside.any fun (n, k) => n == name && k < left then return false
    else
      set { r with
        text := text ++ r.text
        inside := (name, left) :: r.inside.filter fun (_, k) => k < left
        also := if text.getLast? = some ' ' ∨ text.getLast? = some '\t' then some left else none }
      return true

/-- The last token has been this one. -/
def is (t : Token) : Step Token := do
  modify fun r => { r with last := t }
  return t

/-- Read the last token once more. -/
def unread : Step Unit := modify fun r => { r with again := true }

/-- These builtins cannot be replaced by functions. -/
def isReservedName (name : Raw) : Bool :=
  [":", ".", "break", "continue", "eval", "exec", "exit", "export", "readonly", "return", "set", "shift", "times",
    "trap", "unset", "local"].contains (String.ofList name)

/-- The name that a word assigns to, with the rest of the word. -/
def assignment? : Word → Option (Raw × Word)
  | .text cs false :: ps =>
    let name := cs.takeWhile isNameChar
    match cs.drop name.length with
    | '=' :: rest => if isName name then some (name, if rest = [] then ps else .text rest false :: ps) else none
    | _ => none
  | _ => none

/-- The redirection that begins with a character, after the descriptor given for it. -/
def redirection (c : Char) (fd : Option Nat) : Step Unit := do
  let found : Option (Nat × RedirectKind) := match c, ← peek with
    | '>', some '>' => some (1, .append)
    | '>', some '|' => some (1, .overwrite)
    | '>', some '&' => some (1, .duplicate)
    | '<', some '<' => some (0, .here)
    | '<', some '&' => some (0, .duplicate)
    | '<', some '>' => some (0, .readWrite)
    | _, _ => none
  if found.isSome then
    let _ ← takeExact
  let (default, kind) := found.getD (if c = '>' then (1, .write) else (0, .read))
  let trim ← if kind = .here then accept '-' else pure false
  modify fun p => { p with redirection := (fd.getD default, kind, trim) }

/-- The descriptor that a word before a redirection gives, if that is all there is to the word. -/
def descriptor? : Word → Option (Option Nat)
  | [] => some none
  | [.text [c] false] => if c.isDigit then some (some (c.toNat - '0'.toNat)) else none
  | _ => none

mutual

/-- The parts of a word up to the end of the piece that they stand in; `depth` counts the parentheses that are
open. -/
def pieces (s : Surroundings) (depth : Nat) (acc : Parts) : Nat → Step Word
  | 0 => exhausted
  | fuel + 1 => do
    let some c ← take |
      match s.ending with
      | .word | .text => return acc.word
      | .arith => fail "Missing '))'"
      | _ => if s.quoted && !s.inHere then fail "Unterminated quoted string" else fail "Missing '\x7d'"
    let plain (depth : Nat) : Step Word := pieces s depth (acc.push c s.quoted) fuel
    if s.ending = .word ∧ isMeta c then
      putBack c
      return acc.word
    else
      match c with
      | '\n' => newLine; plain depth
      | '\\' =>
        match ← takeExact with
        | none => pieces s depth (acc.push '\\' true) fuel
        | some d =>
          let acc := if s.escapes d then acc else acc.push '\\' true
          pieces s depth (acc.push d true) fuel
      | '\'' =>
        if s.quoted then plain depth
        else
          let inner ← singleQuoted
          pieces s depth (inner.foldl (fun acc c => acc.push c true) acc.quote) fuel
      | '"' =>
        match s.ending with
        | .quote => return acc.word
        | .arith | .text => plain depth
        | _ =>
          let inner ← pieces { s with ending := .quote, quoted := true } 0 [] fuel
          pieces s depth (partsOf inner ++ .text [] true :: acc) fuel
      | '\x60' =>
        if s.isMark then plain depth
        else
          let inner ← backquoted s.quoted fuel []
          let r ← get
          set { r with text := inner, line := 1, waiting := [] }
          let body ← list true true fuel
          modify fun p => { p with text := r.text, line := r.line, waiting := r.waiting, again := false }
          pieces s depth (.command body s.quoted :: acc) fuel
      | '$' =>
        match ← dollar s fuel with
        | some p => pieces s depth (p :: acc) fuel
        | none => plain depth
      | '}' => if s.ending = .brace then return acc.word else plain depth
      | '(' => plain (depth + 1)
      | ')' =>
        if s.ending = .arith ∧ depth = 0 then
          if ← accept ')' then return acc.word else plain depth
        else plain (depth - 1)
      | _ => plain depth
termination_by structural fuel => fuel

/-- What follows a dollar sign, if that says more than itself. -/
def dollar (s : Surroundings) : Nat → Step (Option Part)
  | 0 => exhausted
  | fuel + 1 => do
    let c ← peek
    match c.filter fun _ => !s.isMark with
    | none => return none
    | some '(' =>
      let _ ← takeExact
      if ← accept '(' then
        let expr ← pieces { s with ending := .arith, quoted := true, inBraces := false } 0 [] fuel
        return some (.arith expr s.quoted)
      else
        let r ← get
        set { r with waiting := [] }
        let body ← list true true fuel
        if (← token {} fuel) ≠ .closeParen then insteadOf .closeParen
        modify fun p => { p with waiting := r.waiting }
        return some (.command body s.quoted)
    | some '{' =>
      let _ ← takeExact
      let (name, op) ← parameter fuel
      if op = .plain then return some (.param name s.quoted .plain [])
      else
        let isPattern := match op with
          | .dropEnd _ | .dropStart _ => true
          | _ => false
        let arg ← pieces { s with ending := .brace, quoted := s.quoted && !isPattern, inBraces := true } 0 [] fuel
        return some (.param name s.quoted op arg)
    | some c =>
      if isNameStart c then return some (.param (← takeWhile isNameChar fuel) s.quoted .plain [])
      else if isSpecial c then
        let _ ← takeExact
        return some (.param [c] s.quoted .plain [])
      else return none
termination_by structural fuel => fuel

/-- Read the texts of the here-documents that are waiting. -/
def hereDocs : Nat → Step Unit
  | 0 => exhausted
  | fuel + 1 => do
    let r ← get
    match r.waiting with
    | [] => return
    | d :: waiting =>
      let (text, rest) := hereText d (r.text.length + 1) r.text
      set { r with text, waiting }
      let body ← if d.exact then pure [.text text true]
        else pieces { ending := .text, quoted := true, inHere := true } 0 [] fuel
      modify fun p => { p with
        text := rest, line := r.line + (r.text.count '\n' - rest.count '\n'), found := (d.id, body) :: p.found }
      hereDocs fuel
termination_by structural fuel => fuel

/-- The next token as it is by itself. -/
def scan (isMark : Bool) : Nat → Step Token
  | 0 => exhausted
  | fuel + 1 => do
    let r ← get
    if r.again then
      set { r with again := false }
      return r.last
    skipBlanks
    match ← take with
    | none => is .endOfFile
    | some '\n' => newLine; is .newline
    | some '&' => is (if ← accept '&' then .andAnd else .ampersand)
    | some '|' => is (if ← accept '|' then .orOr else .bar)
    | some ';' => is (if ← accept ';' then .doubleSemicolon else .semicolon)
    | some '(' => is .openParen
    | some ')' => is .closeParen
    | some c =>
      putBack c
      let w ← pieces { isMark } 0 [] fuel
      match descriptor? w, (← get).text with
      | some fd, c :: _ =>
        if c = '<' ∨ c = '>' then
          let _ ← takeExact
          redirection c fd
          is .redirection
        else
          modify fun r => { r with word := w }
          is .word
      | _, _ =>
        modify fun r => { r with word := w }
        is .word
termination_by structural fuel => fuel

/-- The next token that is no end of a line, here-documents read on the way. -/
def afterLines (t : Token) : Nat → Step Token
  | 0 => exhausted
  | fuel + 1 => do
    if t = .newline then
      hereDocs fuel
      afterLines (← scan false fuel) fuel
    else return t
termination_by structural fuel => fuel

/-- The next token. -/
def token (w : Wanted) : Nat → Step Token
  | 0 => exhausted
  | fuel + 1 => do
    let r ← get
    let also := match r.also with
      | some k => !r.again && (dropBlanks r.text).2.length ≤ k
      | none => false
    if also then set { r with also := none }
    let w := { w with expands := w.expands || also }
    let t ← scan false fuel
    let t ← if w.newlines then afterLines t fuel else pure t
    if t ≠ .word then return t
    else
      let word := (← get).word
      match (if w.reserved then word.bare?.bind Token.reserved? else none) with
      | some t => is t
      | none => if w.expands && (← replaceAlias) then token w fuel else return t
termination_by structural fuel => fuel

/-- The next token must be this one. -/
def expect (t : Token) (w : Wanted) : Nat → Step Unit
  | 0 => exhausted
  | fuel + 1 => do if (← token w fuel) ≠ t then insteadOf t
termination_by structural fuel => fuel

/-- Commands up to the end of the list that they stand in. A list that is not `inner` ends with its line, and an inner
one that `mayBeEmpty` may have no commands. -/
def list (inner mayBeEmpty : Bool) : Nat → Step Command
  | 0 => exhausted
  | fuel + 1 => do
    match ← listFrom inner mayBeEmpty none fuel with
    | some c => return c
    | none => return .nothing
termination_by structural fuel => fuel

/-- What follows the commands of a list that have been read. -/
def listFrom (inner mayEnd : Bool) (before : Option Command) : Nat → Step (Option Command)
  | 0 => exhausted
  | fuel + 1 => do
    match ← token { newlines := inner, reserved := true, expands := true } fuel with
    | .newline =>
      hereDocs fuel
      return before
    | .endOfFile =>
      hereDocs fuel
      unread
      return before
    | t =>
      unread
      if inner ∧ mayEnd ∧ t.endsList then return before
      else
        let c ← andOr {} fuel
        let t ← token {} fuel
        let c := if t = .ampersand then .background c else c
        let all := match before with
          | some b => .seq b c
          | none => c
        match t with
        | .newline | .endOfFile =>
          unread
          listFrom inner true (some all) fuel
        | .ampersand | .semicolon => listFrom inner true (some all) fuel
        | _ =>
          if !inner then unexpected
          else
            unread
            return some all
termination_by structural fuel => fuel

/-- Pipelines joined by `&&` and `||`. -/
def andOr (w : Wanted) : Nat → Step Command
  | 0 => exhausted
  | fuel + 1 => do andOrFrom (← pipeline w fuel) fuel
termination_by structural fuel => fuel

/-- The pipelines joined to the commands before them. -/
def andOrFrom (c : Command) : Nat → Step Command
  | 0 => exhausted
  | fuel + 1 => do
    match ← token {} fuel with
    | .andAnd => andOrFrom (.andThen c (← pipeline .further fuel)) fuel
    | .orOr => andOrFrom (.orElse c (← pipeline .further fuel)) fuel
    | _ =>
      unread
      return c
termination_by structural fuel => fuel

/-- Commands joined by `|`, perhaps negated. -/
def pipeline (w : Wanted) : Nat → Step Command
  | 0 => exhausted
  | fuel + 1 => do
    let negated := (← token w fuel) == .reserved "!"
    if !negated then unread
    let c ← command (if negated then .command else {}) fuel
    let more ← stages fuel
    let c := if more.isEmpty then c else .pipe (c :: more)
    return if negated then .negate c else c
termination_by structural fuel => fuel

/-- The further stages of a pipeline. -/
def stages : Nat → Step (List Command)
  | 0 => exhausted
  | fuel + 1 => do
    if (← token {} fuel) = .bar then
      let c ← command .further fuel
      return c :: (← stages fuel)
    else
      unread
      return []
termination_by structural fuel => fuel

/-- A single command with its redirections. -/
def command (w : Wanted) : Nat → Step Command
  | 0 => exhausted
  | fuel + 1 => do
    let line := (← get).line
    match ← token w fuel with
    | .reserved "if" =>
      let c ← branches fuel
      expect (.reserved "fi") {} fuel
      redirected line c fuel
    | .reserved "while" => loop line false fuel
    | .reserved "until" => loop line true fuel
    | .reserved "for" =>
      let t ← token {} fuel
      let word := (← get).word
      match t, word.bare? with
      | .word, some name =>
        if !isName name then fail "Bad for loop variable"
        let words ← if (← token .further fuel) = .reserved "in" then
            let ws ← words fuel
            let t := (← get).last
            if t ≠ .newline ∧ t ≠ .semicolon then unexpected
            pure (some ws)
          else do
            if (← get).last ≠ .semicolon then unread
            pure none
        expect (.reserved "do") .further fuel
        let body ← list true false fuel
        expect (.reserved "done") {} fuel
        redirected line (.forIn line name words body) fuel
      | _, _ => fail "Bad for loop variable"
    | .reserved "case" =>
      expect .word {} fuel
      let word := (← get).word
      expect (.reserved "in") .further fuel
      let arms ← arms fuel
      redirected line (.caseOf line word arms) fuel
    | .openParen =>
      let c ← list true false fuel
      expect .closeParen {} fuel
      redirected line (.subshell line c) fuel
    | .reserved "\x7b" =>
      let c ← list true false fuel
      expect (.reserved "\x7d") {} fuel
      redirected line c fuel
    | .word | .redirection =>
      unread
      simple (← get).line false [] [] [] fuel
    | _ => unexpected
termination_by structural fuel => fuel

/-- A loop after its first word. -/
def loop (line : Nat) (negated : Bool) : Nat → Step Command
  | 0 => exhausted
  | fuel + 1 => do
    let cond ← list true false fuel
    expect (.reserved "do") {} fuel
    let body ← list true false fuel
    expect (.reserved "done") {} fuel
    redirected line (.loop negated cond body) fuel
termination_by structural fuel => fuel

/-- The branches of an `if` after its first word, up to its end. -/
def branches : Nat → Step Command
  | 0 => exhausted
  | fuel + 1 => do
    let cond ← list true false fuel
    expect (.reserved "then") {} fuel
    let yes ← list true false fuel
    match ← token {} fuel with
    | .reserved "elif" => return .ifThen cond yes (← branches fuel)
    | .reserved "else" => return .ifThen cond yes (← list true false fuel)
    | _ =>
      unread
      return .ifThen cond yes .nothing
termination_by structural fuel => fuel

/-- The arms of a `case` up to its end. -/
def arms : Nat → Step (List (List Word × Command))
  | 0 => exhausted
  | fuel + 1 => do
    let t ← token { newlines := true, reserved := true } fuel
    if t = .reserved "esac" then return []
    else
      if t = .openParen then
        let _ ← token {} fuel
      let patterns ← patterns fuel
      if (← get).last ≠ .closeParen then insteadOf .closeParen
      let body ← list true true fuel
      match ← token { newlines := true, reserved := true } fuel with
      | .reserved "esac" => return [(patterns, body)]
      | .doubleSemicolon => return (patterns, body) :: (← arms fuel)
      | _ => insteadOf .doubleSemicolon
termination_by structural fuel => fuel

/-- The patterns of an arm; the first one is the last word. -/
def patterns : Nat → Step (List Word)
  | 0 => exhausted
  | fuel + 1 => do
    let p := (← get).word
    if (← token {} fuel) = .bar then
      let _ ← token {} fuel
      return p :: (← patterns fuel)
    else return [p]
termination_by structural fuel => fuel

/-- Words up to another token. -/
def words : Nat → Step (List Word)
  | 0 => exhausted
  | fuel + 1 => do
    if (← token {} fuel) = .word then
      let w := (← get).word
      return w :: (← words fuel)
    else return []
termination_by structural fuel => fuel

/-- What the last redirection leads to. -/
def redirect : Nat → Step Redirect
  | 0 => exhausted
  | fuel + 1 => do
    let (fd, kind, trim) := (← get).redirection
    if (← scan (kind = .here) fuel) ≠ .word then unexpected
    let w := (← get).word
    if kind = .here then
      let r ← get
      let d : HereDoc := ⟨r.nextHere, w.literal, trim, isQuoted w⟩
      set { r with nextHere := r.nextHere + 1, waiting := r.waiting ++ [d] }
      return .mk fd .here ((r.known.lookup d.id).getD [])
    else return .mk fd kind w
termination_by structural fuel => fuel

/-- A compound command with the redirections after it. -/
def redirected (line : Nat) (c : Command) : Nat → Step Command
  | 0 => exhausted
  | fuel + 1 => do
    let rs ← redirects fuel
    return if rs.isEmpty then c else .redirected line c rs
termination_by structural fuel => fuel

/-- Redirections up to another token. -/
def redirects : Nat → Step (List Redirect)
  | 0 => exhausted
  | fuel + 1 => do
    if (← token .command fuel) = .redirection then
      let r ← redirect fuel
      return r :: (← redirects fuel)
    else
      unread
      return []
termination_by structural fuel => fuel

/-- The rest of a simple command, whose assignments, words and redirections so far are given with the last one first;
`begun` says that a word has been read. -/
def simple (line : Nat) (begun : Bool) (assigns : List (Raw × Word)) (words : List Word) (rs : List Redirect) :
    Nat → Step Command
  | 0 => exhausted
  | fuel + 1 => do
    let finish : Step Command := do
      unread
      return .simple line assigns.reverse words.reverse rs.reverse
    match ← token { expands := !begun } fuel with
    | .word =>
      let w := (← get).word
      match (if begun then none else assignment? w) with
      | some a => simple line false (a :: assigns) words rs fuel
      | none => simple line true assigns (w :: words) rs fuel
    | .redirection =>
      let r ← redirect fuel
      simple line begun assigns words (r :: rs) fuel
    | .openParen =>
      match words, assigns, rs with
      | [w], [], [] =>
        expect .closeParen {} fuel
        match w.bare? with
        | some name =>
          if !isName name || isReservedName name then fail "Bad function name"
          return .function name (← command .further fuel)
        | none => fail "Bad function name"
      | _, _, _ => finish
    | _ => finish
termination_by structural fuel => fuel

end

/-- A text in which only what a dollar sign or a backquote begins is expanded. -/
def textWord (text : Raw) : Word :=
  match (pieces { ending := .text, quoted := true, inHere := true } 0 [] (8 * text.length + 64)).run { text } with
  | .ok (w, _) => w
  | .error _ => []

/-- Read the next complete command. -/
def next (s : Source) (known : List (Nat × Word)) : Except Fault (Option Command × Progress) :=
  let fuel := 8 * s.text.length + 64
  (listFrom false false none fuel).run { toSource := s, known }

end Reader

/-- What is found next in a script. -/
inductive Reading where
  | ended
  | command (c : Command) (rest : Source)
  | faulty (f : Fault)

/-- The next complete command of a script. -/
def Source.next (s : Source) : Reading :=
  let again : Option Command × Reader.Progress → Except Fault (Option Command × Reader.Progress) := fun (c, p) =>
    if p.found.isEmpty then .ok (c, p) else Reader.next s p.found
  match (Reader.next s []).bind again with
  | .error f => .faulty f
  | .ok (none, p) => if p.last = .endOfFile then .ended else .command .nothing p.toSource
  | .ok (some c, p) => .command c p.toSource

end Retrace.Shell
