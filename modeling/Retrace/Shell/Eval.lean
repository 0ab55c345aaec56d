import Retrace.Shell.Jobs
import Retrace.Shell.Tool.Named

/-!
# Running shell scripts

What commands do, one after the other. The processes of a pipeline follow each other in turn, each with a clock that
starts with the pipeline, and what a process beside the others does is known as soon as it starts, but happens in its
time. `fuel` bounds the number of steps; a script that takes more goes on for ever.
-/

namespace Retrace.Shell

/-! ## Home directories -/

/-- The home directory of a user, or of the one who runs the shell when no name is given. -/
def State.home (s : State) (user : Raw) : Option Raw :=
  if user = [] then s.var "HOME".toList else if user = "root".toList then some "/root".toList else none

/-- The parts of an unquoted text with home directories put in for tildes at its start and, in a value, after each
colon; `last` says that nothing follows it in its word. -/
def State.homeParts (s : State) (inValue last : Bool) : Nat → Raw → Word
  | 0, cs => [.text cs false]
  | fuel + 1, cs =>
    let (here, after) : Word × Raw := match cs with
      | '~' :: rest =>
        let user := rest.takeWhile fun c => c ≠ '/' && !(inValue && c == ':')
        let after := rest.drop user.length
        match (if after = [] ∧ !last then none else s.home user) with
        | some h => (if h = [] then [] else [.text h true], after)
        | none => ([], cs)
      | _ => ([], cs)
    let chunk := if inValue then after.takeWhile (· ≠ ':') else after
    match after.drop chunk.length with
    | [] => here ++ [.text chunk false]
    | _ :: rest => here ++ .text (chunk ++ [':']) false :: s.homeParts inValue last fuel rest

/-- A word with its home directories put in. -/
def State.homeWord (s : State) (inValue : Bool) (w : Word) : Word :=
  let later : Word → Word := fun ps =>
    (ps.zipIdx 1).flatMap fun (p, k) =>
      match p with
      | .text cs false =>
        let chunk := cs.takeWhile (· ≠ ':')
        match cs.drop chunk.length with
        | [] => [p]
        | _ :: rest =>
          .text (chunk ++ [':']) false :: s.homeParts inValue (k == ps.length) (rest.length + 1) rest
      | p => [p]
  let others (ps : Word) : Word := if inValue then later ps else ps
  match w with
  | .text cs false :: ps => s.homeParts inValue ps.isEmpty (cs.length + 1) cs ++ others ps
  | ps => others ps

/-! ## What is carried out -/

/-- What the words of a command mean. -/
inductive Meaning where
  | nothing
  | function (body : Command) (args : List Raw)
  /-- A failure of a `special` builtin ends the shell. -/
  | builtin (special : Bool) (name : String) (args : List Raw)
  /-- It is looked for where a system has its programs when `standard` holds. -/
  | program (standard : Bool) (argv : List Raw)

/-- The words that `command` carries out, without its options, and whether the program is one of the system. -/
def commanded (standard : Bool) : List Raw → Option (Bool × List Raw)
  | [] => none
  | ['-', '-'] :: rest => if rest.isEmpty then none else some (standard, rest)
  | ('-' :: c :: cs) :: rest => if (c :: cs).all (· == 'p') then commanded true rest else none
  | n :: rest => if n = "command".toList then commanded standard rest else some (standard, n :: rest)

/-- The meaning of the words of a command. -/
def State.meaning (s : State) : List Raw → Meaning
  | [] => .nothing
  | name :: args =>
    let word := String.ofList name
    match s.functions.lookup name with
    | some body => .function body args
    | none =>
      if word = "command" then
        match commanded false args with
        | none => .builtin false word args
        | some (standard, argv) =>
          let word := String.ofList (argv.headD [])
          if isBuiltin word then .builtin false word (argv.drop 1) else .program standard argv
      else if isBuiltin word then .builtin (isSpecial word) word args
      else .program false (name :: args)

/-- Take the ends of lines off the end of a text. -/
def trimLines (cs : Raw) : Raw := (cs.reverse.dropWhile (· == '\n')).reverse

/-- A redirection whose target is known. -/
abbrev Move := Nat × RedirectKind × Raw

/-- Set descriptors. The second result tells that all of it could be done. -/
def State.redirect (s : State) : List Move → State × Bool
  | [] => (s, true)
  | (fd, kind, name) :: rest =>
    match kind with
    | .here =>
      let (n, s) := s.newPipe
      let filled : Pipe := { chunks := [⟨s.now, s.pid, name⟩], closed := s.now }
      ({ s with pipes := s.pipes.set! n filled } : State).setFd fd (some (.pipe n)) |>.redirect rest
    | .duplicate =>
      if name = ['-'] then (s.setFd fd none).redirect rest
      else
        match (Raw.nat? name).bind s.channel with
        | some c => (s.setFd fd (some c)).redirect rest
        | none => (s.complain (name ++ ": Bad file descriptor".toList), false)
    | kind =>
      match s.openFor kind name with
      | .ok (c, s) => (s.setFd fd (some c)).redirect rest
      | .error why => (s.complain why, false)

/-- The descriptors of redirections get back what they were before. -/
def State.restoreFds (s : State) (before : State) (moves : List Move) : State :=
  moves.foldl (fun s (fd, _) => s.setFd fd (before.channel fd)) s

/-- A signal that has come kills the process before it does anything more. -/
def State.isDoomed (s : State) : Bool :=
  s.leads && (match s.blow with
    | .die .. => true
    | _ => false)

/-- What a name of a program is looked for along. -/
def standardPath : Bytes := Bytes.ofString "/usr/sbin:/usr/bin:/sbin:/bin"

mutual

/-- The pieces of a word. -/
def expand : Nat → Word → State → List Piece × State
  | 0, _, s => ([], { s with broken := true })
  | fuel + 1, ps, s =>
    match ps with
    | [] => ([], s)
    | .text [] true :: .param ['@'] true .plain [] :: rest =>
      let (more, s) := expand fuel rest s
      (s.valuePieces ['@'] true s.args ++ more, s)
    | p :: rest =>
      let (here, s) := if s.broken then ([], s) else expandPart fuel p s
      let (more, s) := expand fuel rest s
      (here ++ more, s)
termination_by structural fuel => fuel

/-- The pieces of a part of a word. -/
def expandPart : Nat → Part → State → List Piece × State
  | 0, _, s => ([], { s with broken := true })
  | fuel + 1, p, s =>
    let failing (why : Raw) (s : State) : List Piece × State := ([], s.breakOff why)
    match p with
    | .text cs true => (.quotes :: Piece.text .exact cs, s)
    | .text cs false => (Piece.text .active cs, s)
    | .command body quoted =>
      let (n, s) := s.newPipe
      let child := { s.fork.setFd 1 (some (.pipe n)) with inCondition := false }
      let (f, t) := s.resume (inChild fuel body child)
      let text := (trimLines (t.pipeText n)).filter (· ≠ '\x00')
      let t := { t with substituted := t.status, status := s.status, broken := f == .never }
      (if quoted then .quotes :: Piece.text .exact text else Piece.text .loose text, t)
    | .arith expr quoted =>
      let (ps, s) := expand fuel expr s
      let text := Piece.plain ps
      if s.broken then ([], s)
      else
        match arithmetic (fun name => (s.parameter name).map fun vs => (vs.intersperse [' ']).flatten) text with
        | .ok (n, assigned) =>
          let s := assigned.foldl (fun (s : State) (name, v) =>
            if s.broken then s else s.store name (toString v.toInt).toList) s
          (Piece.text (if quoted then .exact else .loose) (toString n.toInt).toList, s)
        | .error why => failing (why.message text) s
    | .param name quoted op arg =>
      let values := s.parameter name
      let own := s.valuePieces name quoted (values.getD [])
      let text := ((values.getD []).intersperse [' ']).flatten
      let isSet (colon : Bool) : Bool := values.isSome && !(colon && text.isEmpty)
      let other (s : State) : List Piece × State :=
        let (ps, s) := expand fuel (if quoted then arg else s.homeWord false arg) s
        (if quoted then .quotes :: ps else ps.map fun
          | .char c .active => .char c .loose
          | p => p, s)
      let result (text : Raw) : List Piece :=
        if quoted then .quotes :: Piece.text .exact text else Piece.text .loose text
      let mustBeSet (r : List Piece × State) : List Piece × State :=
        if s.has 'u' ∧ values.isNone ∧ name ≠ ['@'] ∧ name ≠ ['*'] then
          failing (name ++ ": parameter not set".toList) s
        else r
      match op with
      | .plain => mustBeSet (own, s)
      | .length => mustBeSet (result (toString text.length).toList, s)
      | .malformed => failing "Bad substitution".toList s
      | .orDefault colon => if isSet colon then (own, s) else other s
      | .alternative colon => if isSet colon then other s else ([], s)
      | .orAssign colon =>
        if isSet colon then (own, s)
        else
          let (ps, s) := other s
          if s.broken then ([], s)
          else if !Reader.isName name then failing (name ++ ": bad variable name".toList) s
          else (result (Piece.plain ps), s.store name (Piece.plain ps))
      | .orFail colon =>
        if isSet colon then (own, s)
        else
          let (ps, s) := other s
          let why := if !arg.isEmpty then Piece.plain ps
            else if colon then "parameter not set or null".toList else "parameter not set".toList
          if s.broken then ([], s) else failing (name ++ ": ".toList ++ why) s
      | .dropEnd longest =>
        let (ps, s) := expand fuel arg s
        mustBeSet (result (dropEnd longest (Piece.marked ps) text), s)
      | .dropStart longest =>
        let (ps, s) := expand fuel arg s
        mustBeSet (result (dropStart longest (Piece.marked ps) text), s)
termination_by structural fuel => fuel

/-- The fields of words. An assignment is one field when they are `declared`. -/
def expandWords (declared : Bool) : Nat → List Word → State → List Raw × State
  | 0, _, s => ([], { s with broken := true })
  | fuel + 1, ws, s =>
    match ws with
    | [] => ([], s)
    | w :: rest =>
      if s.broken then ([], s)
      else
        let (fields, s) := match (if declared then Reader.assignment? w else none) with
          | some (name, value) =>
            let (ps, s) := expand fuel (s.homeWord true value) s
            ([name ++ '=' :: Piece.plain ps], s)
          | none =>
            let (ps, s) := expand fuel (s.homeWord false w) s
            let fields := fieldsOf s.dividers ps
            (if s.has 'f' then fields.map (·.map (·.1)) else fields.flatMap (expandPath s), s)
        let (more, s) := expandWords declared fuel rest s
        (fields ++ more, s)
termination_by structural fuel => fuel

/-- The fields of the words of a command; `commanded` says that `command` comes before them. -/
def expandCommand (commanded : Bool) : Nat → List Word → State → List Raw × State
  | 0, _, s => ([], { s with broken := true })
  | fuel + 1, ws, s =>
    match ws with
    | [] => ([], s)
    | w :: rest =>
      let (fields, s) := expandWords false fuel [w] s
      let (more, s) := match fields with
        | [] => expandCommand commanded fuel rest s
        | name :: _ =>
          if (commanded ∧ name.head? = some '-') ∨ name = "command".toList then expandCommand true fuel rest s
          else expandWords (isAssigning (String.ofList name)) fuel rest s
      (fields ++ more, s)
termination_by structural fuel => fuel

/-- The redirections with their targets. -/
def expandRedirects : Nat → List Redirect → State → List Move × State
  | 0, _, s => ([], { s with broken := true })
  | fuel + 1, rs, s =>
    match rs with
    | [] => ([], s)
    | .mk fd kind target :: rest =>
      if s.broken then ([], s)
      else
        let (ps, s) := expand fuel (s.homeWord false target) s
        let name := Piece.plain ps
        let fits := kind ≠ .duplicate ∨ name = ['-'] ∨ (name.length = 1 ∧ name.all Char.isDigit)
        let s := if s.broken ∨ fits then s
          else ({ s with line := s.readLine } : State).breakOff "Syntax error: Bad fd number".toList
        let (more, s) := expandRedirects fuel rest s
        ((fd, kind, name) :: more, s)
termination_by structural fuel => fuel

/-- Make assignments, and hand them on to other programs when `exported` holds. -/
def assign (exported : Bool) : Nat → List (Raw × Word) → State → State
  | 0, _, s => { s with broken := true }
  | fuel + 1, as, s =>
    match as with
    | [] => s
    | (name, w) :: rest =>
      if s.broken then s
      else
        let (ps, s) := expand fuel (s.homeWord true w) s
        let s := if s.broken then s else s.store name (Piece.plain ps)
        assign exported fuel rest (if exported then s.export name else s)
termination_by structural fuel => fuel

/-- Write a command before it is carried out, when the shell is told to. -/
def trace (errors : Option Channel) (assigned : List (Raw × Raw)) (fields : List Raw) : Nat → State → State
  | 0, s => s
  | fuel + 1, s =>
    if !s.has 'x' then s
    else
      let (mark, t) := expand fuel (Reader.textWord ((s.var "PS4".toList).getD [])) { s with options := [] }
      let words := (assigned.map fun (n, v) => n ++ '=' :: v) ++ fields
      let text := Piece.plain mark ++ (words.intersperse [' ']).flatten ++ ['\n']
      { (t.write errors text).2 with options := s.options, status := s.status }
termination_by structural fuel => fuel

/-- Carry out a command. -/
def exec : Nat → Command → State → Flow × State
  | 0, _, s => (.never, s)
  | fuel + 1, c, s =>
    let isFinal := s.isFinal && !s.hasTraps
    let s := { s with isFinal := false }
    let last (s : State) : State := { s with isFinal }
    if s.has 'n' then (.next, s)
    else
    match c with
    | .nothing => (.next, s)
    | .seq c d =>
      match exec fuel c s with
      | (.next, s) => exec fuel d (last s)
      | r => r
    | .andThen c d =>
      match asCondition fuel c s with
      | (.next, s) => if s.status = 0 then exec fuel d (last s) else (.next, s)
      | r => r
    | .orElse c d =>
      match asCondition fuel c s with
      | (.next, s) => if s.status = 0 then (.next, s) else exec fuel d (last s)
      | r => r
    | .negate c =>
      match asCondition fuel c s with
      | (.next, s) => s.ended (if s.status = 0 then 1 else 0)
      | r => r
    | .ifThen cond yes no =>
      match asCondition fuel cond s with
      | (.next, s) =>
        if s.status = 0 then exec fuel yes (last s)
        else
          match no with
          | .nothing => s.ended 0
          | no => exec fuel no (last s)
      | r => r
    | .loop negated cond body =>
      let (f, t) := turns negated cond body 0 fuel { s with loops := s.loops + 1 }
      (f, { t with loops := s.loops })
    | .forIn line name words body =>
      let s := { s with line }
      let (values, s) := match words with
        | some ws => expandWords false fuel ws s
        | none => (s.args, s)
      if s.broken then s.abort
      else
        let (f, t) := forEach name body 0 fuel values { s with loops := s.loops + 1 }
        (f, { t with loops := s.loops })
    | .caseOf line word arms =>
      let s := { s with line }
      let (ps, s) := expand fuel (s.homeWord false word) s
      if s.broken then s.abort else choose (Piece.plain ps) fuel arms (last s)
    | .function name body =>
      ({ s with functions := (name, body) :: s.functions.filter (·.1 ≠ name) } : State).ended 0
    | .subshell line c =>
      let s := { s with line }
      if isFinal then inChild fuel c s else strictly (attend fuel (s.resume (inChild fuel c s.fork)))
    | .pipe cs => strictly (attend fuel (stages fuel cs s.now none s.now s))
    | .redirected line c rs =>
      let s := { s with line }
      let (moves, s) := expandRedirects fuel rs s
      if s.broken then s.abort
      else
        match s.redirect moves with
        | (t, false) => strictly ((t.restoreFds s moves).ended 2)
        | (t, true) =>
          let (f, t) := exec fuel c t
          (f, t.restoreFds s moves)
    | .background c =>
      let ignored := s.fork.reactions.filter fun (n, _) => n ≠ 2 && n ≠ 3
      let child := { s.fork.setFd 0 (some (.device .null)) with
        reactions := (2, .ignore) :: (3, .ignore) :: ignored, inCondition := false, changes := [], backgrounds := [] }
      let moved (rs : List Redirect) : State :=
        let (moves, t) := expandRedirects fuel rs child
        (t.redirect moves).1
      let outer := match c with
        | .simple _ _ _ rs => moved rs
        | .redirected _ _ rs => moved rs
        | _ => child
      (.next, s.adopt child.pid outer.held (inChild fuel c child))
    | .simple line assigns words redirects =>
      if s.horizon < s.now then attend fuel (.never, s)
      else strictly (attend fuel (simple line assigns words redirects fuel (last s)))
termination_by structural fuel => fuel

/-- Carry out a command whose failure is no failure of the script. -/
def asCondition : Nat → Command → State → Flow × State
  | 0, _, s => (.never, s)
  | fuel + 1, c, s =>
    let (f, t) := exec fuel c { s with inCondition := true }
    (f, { t with inCondition := s.inCondition })
termination_by structural fuel => fuel

/-- Attend to the signals that have come. -/
def attend : Nat → Flow × State → Flow × State
  | 0, (_, s) => (.never, s)
  | fuel + 1, (f, s) =>
    if !s.leads then (f, s)
    else
      match f with
      | .killed n => (.killed n, s)
      | f =>
        let s := if f = .never then s.goTo (s.horizon + 1) else s
        match s.blow with
        | .die n moment => (.killed n, { s with now := moment })
        | .none => (if s.halted then .never else f, s)
        | .react script left =>
          if f ≠ .next then (f, s)
          else
            let t := { s with signals := left, kept := some s.status, inCondition := false }
            match run false { text := script } fuel t with
            | (.next, t) =>
              attend fuel (f, { t with status := s.status, kept := s.kept, inCondition := s.inCondition })
            | r => r
termination_by structural fuel => fuel

/-- Go on with the turns of a loop; `last` is the status of the turn before. -/
def turns (negated : Bool) (cond body : Command) (last : Nat) : Nat → State → Flow × State
  | 0, s => (.never, s)
  | fuel + 1, s =>
    if s.horizon < s.now then attend fuel (.never, s)
    else
      let (f, t) := asCondition fuel cond s
      match f with
      | .next =>
        if (t.status = 0) = negated then t.ended last
        else
          let (g, t) := exec fuel body t
          let t := if t.now = s.now then t.pass 1 else t
          match g.turn with
          | .more => turns negated cond body t.status fuel t
          | .done g => (g, t)
      | f =>
        match f.turn with
        | .more => turns negated cond body last fuel t
        | .done f => (f, t)
termination_by structural fuel => fuel

/-- Carry out the body of a loop for each value. -/
def forEach (name : Raw) (body : Command) (last : Nat) : Nat → List Raw → State → Flow × State
  | 0, _, s => (.never, s)
  | fuel + 1, values, s =>
    match values with
    | [] => s.ended last
    | v :: rest =>
      let s := s.store name v
      if s.broken then s.abort
      else
        let (f, s) := exec fuel body s
        match f.turn with
        | .more => forEach name body s.status fuel rest s
        | .done f => (f, s)
termination_by structural fuel => fuel

/-- Carry out the first branch with a pattern that a word fits. -/
def choose (word : Raw) : Nat → List (List Word × Command) → State → Flow × State
  | 0, _, s => (.never, s)
  | fuel + 1, arms, s =>
    match arms with
    | [] => s.ended 0
    | ([], _) :: rest => choose word fuel rest s
    | (p :: ps, body) :: rest =>
      let isFinal := s.isFinal
      let (pieces, s) := expand fuel (s.homeWord false p) { s with isFinal := false }
      let s := { s with isFinal }
      if s.broken then s.abort
      else if fits (Piece.marked pieces) word then
        match body with
        | .nothing => s.ended 0
        | body => exec fuel body s
      else choose word fuel ((ps, body) :: rest) s
termination_by structural fuel => fuel

/-- The stages of a pipeline, each in its own process. All have begun at `start`; those before have ended by `ends`. -/
def stages : Nat → List Command → Nat → Option Nat → Nat → State → Flow × State
  | 0, _, _, _, _, s => (.never, s)
  | fuel + 1, cs, start, input, ends, s =>
    match cs with
    | [] => (.next, s.goTo ends)
    | c :: rest =>
      let s := { s with now := start }
      let (n, s) := if rest.isEmpty then (0, s) else s.newPipe
      let child := s.fork
      let child := match input with
        | some k => child.setFd 0 (some (.pipe k))
        | none => child
      let child := if rest.isEmpty then child else child.setFd 1 (some (.pipe n))
      let (f, t) := s.resume (inChild fuel c child)
      let t := if f = .never then t.goTo (t.horizon + 1) else t
      let t := if rest.isEmpty then t else
        { t with status := s.status, pipes := t.pipes.modify n fun p => { p with closed := t.now } }
      match stages fuel rest start (some n) (max ends t.now) t with
      | (g, u) => (if f = .never then .never else g, u)
termination_by structural fuel => fuel

/-- Carry out a command as all that a process does. -/
def inChild : Nat → Command → State → Flow × State
  | 0, _, s => (.never, s)
  | fuel + 1, c, s => farewell fuel (exec fuel c { s with isFinal := true })
termination_by structural fuel => fuel

/-- A shell that ends does what it has set itself for its end. -/
def farewell : Nat → Flow × State → Flow × State
  | 0, (_, s) => (.never, s)
  | fuel + 1, (f, s) =>
    match f with
    | .killed n => (.killed n, s)
    | .never => (.never, s)
    | _ =>
      match s.farewell with
      | none => (.leave, s)
      | some script =>
        let t := { s with farewell := none, kept := some s.status, inCondition := false, loops := 0 }
        match run false { text := script } fuel t with
        | (.leave, t) => (.leave, t)
        | (.killed n, t) => (.killed n, t)
        | (.never, t) => (.never, t)
        | (.abort, t) => (.leave, t)
        | (_, t) => (.leave, { t with status := s.status })
termination_by structural fuel => fuel

/-- Carry out the commands of a script, each after it has been read; `begun` says that there has been one. -/
def run (begun : Bool) (script : Source) : Nat → State → Flow × State
  | 0, s => (.never, s)
  | fuel + 1, s =>
    match ({ script with aliases := s.aliases } : Source).next with
    | .faulty f =>
      (({ s with line := f.line } : State).complain ("Syntax error: ".toList ++ f.why.toList)).abort
    | .ended => (.next, if begun then s else { s with status := 0 })
    | .command c rest =>
      let (f, t) := exec fuel c { s with readLine := rest.line, isFinal := false }
      let begun := begun || (match c with
        | .nothing => false
        | _ => true)
      if f = .next then run begun rest fuel { t with readLine := s.readLine }
      else (f, { t with readLine := s.readLine })
termination_by structural fuel => fuel

/-- Carry out a simple command. -/
def simple (line : Nat) (assigns : List (Raw × Word)) (words : List Word) (redirects : List Redirect) :
    Nat → State → Flow × State
  | 0, s => (.never, s)
  | fuel + 1, s =>
    let isFinal := s.isFinal
    let s := { s with line, substituted := 0, isFinal := false }
    let (fields, s) := expandCommand false fuel words s
    let (moves, s) := expandRedirects fuel redirects s
    if s.horizon < s.now then (.never, s)
    else if s.broken then s.abort
    else if s.isDoomed then (.next, s)
    else
      let meaning := s.meaning fields
      let special := match meaning with
        | .builtin special .. => special
        | _ => false
      let names := assigns.map (·.1)
      let lasting := match meaning with
        | .nothing => true
        | .builtin special .. => special
        | _ => false
      let exported := match meaning with
        | .nothing => false
        | .builtin special name args => !special || (name == "exec" && !args.isEmpty)
        | _ => true
      let (t, done) := s.redirect moves
      if !done then
        let t := t.restoreFds s moves
        if special then t.abort else t.ended 2
      else
        let t := assign exported fuel assigns t
        if t.broken then (t.restoreFds s moves).abort
        else
          let t := trace (s.channel 2) (names.map fun n => (n, (t.var n).getD [])) fields fuel t
          let (f, u) := perform isFinal meaning fuel t
          let keepsFds : Bool := match meaning with
            | .builtin _ "exec" _ => f == .next
            | _ => false
          let u := if keepsFds then u else u.restoreFds s moves
          let u := if lasting then u
            else
              { u.restoreVars (s.varsOf names) with
                exported := u.exported.filter (fun n => !names.contains n || s.exported.contains n) }
          (f, u)
termination_by structural fuel => fuel

/-- Do what a command means. -/
def perform (isFinal : Bool) (meaning : Meaning) : Nat → State → Flow × State
  | 0, s => (.never, s)
  | fuel + 1, s =>
    match meaning with
    | .nothing => s.ended s.substituted
    | .function body args =>
      let (f, t) := exec fuel body { s with
        args, locals := [], loops := 0, inFunction := true, optionIndex := 1, optionPlace := none }
      let t := { t.restoreVars t.locals with
        args := s.args, locals := s.locals, loops := s.loops, inFunction := s.inFunction
        optionIndex := s.optionIndex, optionPlace := s.optionPlace }
      (if f = .back then .next else f, t)
    | .builtin special name args =>
      let (f, t) := builtin fuel name args { s with builtin := name.toList }
      let t := { t with builtin := s.builtin }
      if t.broken ∨ (f = .abort ∧ !special) then
        let t := { t with broken := false, status := 2 }
        (if special then .abort else .next, t)
      else (f, t)
    | .program standard argv =>
      let name := argv.headD []
      let searchPath := if standard then standardPath else s.searchPath
      match s.lookUp searchPath name with
      | .error e => (s.complain (startFault name e).1).ended 127
      | .ok _ =>
        let s := if name.contains '/' then s else { s with hashed := name :: s.hashed.filter (· ≠ name) }
        if isFinal && !s.hasTraps then become searchPath fuel argv s else s.resume (become searchPath fuel argv s.fork)
termination_by structural fuel => fuel

/-- Carry out a command that the shell does itself. -/
def builtin : Nat → String → List Raw → State → Flow × State
  | 0, _, _, s => (.never, s)
  | fuel + 1, name, args, s =>
    match name with
    | "exit" => s.withNumber (s.kept.getD s.status) args fun n => (.leave, { s with status := n })
    | "return" => s.withNumber s.status args fun n => (.back, { s with status := n })
    | "break" => s.loopCount .stop args
    | "continue" => s.loopCount .again args
    | "eval" => if args.isEmpty then s.ended 0 else run false { text := (args.intersperse [' ']).flatten } fuel s
    | "." =>
      match args with
      | [] => s.ended 0
      | file :: _ =>
        let found : Option Path :=
          if file.contains '/' then some ⟨Raw.bytes file⟩
          else (Machine.candidates s.searchPath (Raw.bytes file)).find? fun p => s.machine.isFile (s.dir.join p)
        match found with
        | none => s.refuse (file ++ ": not found".toList)
        | some p =>
          let name := Raw.ofBytes p.raw
          match s.machine.find (s.path name) with
          | .error e => s.refuse ("cannot open ".toList ++ name ++ ": ".toList ++ State.openFault false e)
          | .ok _ =>
            let text := (Raw.ofBytes ((s.machine.read (s.path name)).toOption.getD [])).filter (· ≠ '\x00')
            let (f, t) := run false { text } fuel { s with builtin := name, inCondition := false }
            (if f = .back then .next else f, { t with inCondition := s.inCondition })
    | "exec" =>
      match (if args.head? = some ['-', '-'] then args.drop 1 else args) with
      | [] => s.ended 0
      | argv => become s.searchPath fuel argv s
    | "kill" =>
      match s.kill args with
      | (r, none) => r
      | ((_, t), some script) =>
        match run false { text := script } fuel { t with builtin := [], kept := some 0 } with
        | (.next, t) => (.next, { t with status := 0, kept := s.kept })
        | r => r
    | "wait" => s.waitFor args
    | "jobs" => s.listJobs args
    | "command" =>
      s.withOptions ['p', 'v', 'V'] [] args fun os names =>
        match (os.filter (·.1 ≠ 'p')).getLast? with
        | some (c, _) => s.tellTypes (c = 'v') (names.take 1)
        | none => s.ended 0
    | name => (s.plainBuiltin name args).getD (s.ended 127)
termination_by structural fuel => fuel

/-- A process of a shell becomes a program, which it leaves only at its end. -/
def become (searchPath : Bytes) : Nat → List Raw → State → Flow × State
  | 0, _, s => (.never, s)
  | fuel + 1, argv, s =>
    match s.loadNamed searchPath argv with
    | .ok (tool, argv) => start fuel tool argv s.withoutTraps
    | .error e =>
      let (text, status) := startFault (argv.headD []) e
      (.leave, { s.complain text with status })
termination_by structural fuel => fuel

/-- Start a tool of the system. -/
def start : Nat → Raw → List Raw → State → Flow × State
  | 0, _, _, s => (.never, s)
  | fuel + 1, tool, argv, s =>
    let gone (r : Flow × State) : Flow × State :=
      match attend fuel r with
      | (.next, s) => (.leave, s)
      | r => r
    let name := argv.headD []
    let args := argv.drop 1
    match String.ofList tool with
    | "sh" => shell fuel argv s
    | "kill" => gone (s.killTool name args)
    | "env" =>
      let complain (why : Raw) (status : Nat) (s : State) : Flow × State :=
        gone (s.perform tool name { err := name ++ ": ".toList ++ why ++ ['\n'], status })
      match Tool.envPlan s.environment args with
      | .error why =>
        complain (why ++ "\nTry '".toList ++ name ++ " --help' for more information.".toList) 125 s
      | .ok plan =>
        let away : Except IoError State := match plan.dir with
          | none => .ok s
          | some d => do
            let p ← s.machine.canonicalize (s.path d)
            if s.machine.isDir p then .ok { s with dir := p } else .error (.os .ENOTDIR)
        match plan.command, away with
        | [], _ =>
          gone (s.perform tool name { out := Raw.unlines (plan.env.map fun (k, v) => k ++ '=' :: v) })
        | _, .error e =>
          complain ("cannot change directory to ".toList ++ quoted (plan.dir.getD []) ++ ": ".toList ++
            Call.errorText e) 125 s
        | command, .ok s =>
          let t : State := { s with vars := plan.env, exported := plan.env.map fun (n, _) => n }
          match t.loadNamed ((plan.env.lookup "PATH".toList).elim standardPath Raw.bytes) command with
          | .ok (tool, argv) => start fuel tool argv t
          | .error e =>
            complain (quoted (command.headD []) ++ ": ".toList ++ Call.errorText e)
              (if e = .os .ENOENT then 127 else 126) s
    | _ =>
      match Tool.named? tool with
      | some t => gone (s.useTool t tool name args)
      | none => gone (s.ended 127)
termination_by structural fuel => fuel

/-- A process becomes a shell. -/
def shell : Nat → List Raw → State → Flow × State
  | 0, _, s => (.never, s)
  | fuel + 1, argv, s =>
    let s := s.newShell (argv.headD [])
    let stop (why : Raw) (s : State) : Flow × State := (.leave, { ({ s with line := 0 } : State).complain why with status := 2 })
    let text (bs : Raw) : Source := { text := bs.filter (· ≠ '\x00') }
    match s.startOptions false ((argv.map List.length).foldl (· + · + 1) 1) (argv.drop 1) with
    | .error (why, s) => stop why s
    | .ok (isScript, args, s) =>
      if isScript then
        match args with
        | [] => stop "-c requires an argument".toList s
        | script :: rest =>
          farewell fuel (run false { text := script } fuel { s with name := rest.headD s.name, args := rest.drop 1 })
      else
        match (if s.has 's' then none else args.head?) with
        | none =>
          let source := s.channel 0
          let input := s.textOf source
          let s := (s.goTo (s.completeAt source)).leaveRest source []
          farewell fuel (run false (text input) fuel { s.setOption 's' true with args })
        | some file =>
          match s.machine.find (s.path file) with
          | .error e => stop ("cannot open ".toList ++ file ++ ": ".toList ++ State.openFault false e) s
          | .ok _ =>
            let bs := (s.machine.read (s.path file)).toOption.getD []
            farewell fuel (run false (text (Raw.ofBytes bs)) fuel { s with name := file, args := args.drop 1 })
termination_by structural fuel => fuel

end

end Retrace.Shell
