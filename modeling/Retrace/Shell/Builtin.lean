import Retrace.Shell.Condition
import Retrace.Shell.Expansion
import Retrace.Shell.Format
import Retrace.Shell.Image
import Retrace.Shell.Mode
import Retrace.Shell.Reader

/-!
# Builtins

The commands that a shell carries out itself, as far as they carry out no other commands.
-/

namespace Retrace.Shell

/-- A failure of one of these ends the shell. -/
def isSpecial (name : String) : Bool :=
  [":", "exit", "return", "break", "continue", "exec", "eval", ".", "trap", "set", "shift", "export", "readonly",
    "unset", "times", "local"].contains name

/-- The names of the commands that a shell carries out itself. -/
def isBuiltin (name : String) : Bool :=
  isSpecial name || ["true", "false", "echo", "printf", "test", "[", "cd", "chdir", "pwd", "read", "kill", "wait",
    "command", "umask", "getopts", "type", "hash", "alias", "unalias", "jobs", "fg", "bg", "ulimit"].contains name

/-- The arguments of one of these may be assignments, which are not divided into fields. -/
def isAssigning (name : String) : Bool := ["export", "readonly", "local", "alias"].contains name

/-- A text in quotes from which a shell reads it again. -/
def quoteWord (cs : Raw) : Raw :=
  let rec go : Nat → Raw → Raw
    | 0, _ => []
    | fuel + 1, cs =>
      let plain := cs.takeWhile (· ≠ '\'')
      let rest := cs.drop plain.length
      let marks := rest.takeWhile (· == '\'')
      ['\''] ++ plain ++ ['\''] ++
        (if marks = [] then []
          else ['"'] ++ marks ++ ['"'] ++ (if rest.length = marks.length then [] else go fuel (rest.drop marks.length)))
  go (cs.length + 1) cs

/-- A setting of a shell: its letter, its name, and whether the letter can be used. -/
structure OptionName where
  letter : Char
  name : String
  isFlag : Bool := true

/-- The settings of a shell in their order. -/
def optionNames : List OptionName :=
  [⟨'e', "errexit", true⟩, ⟨'f', "noglob", true⟩, ⟨'I', "ignoreeof", true⟩, ⟨'i', "interactive", true⟩,
    ⟨'m', "monitor", true⟩, ⟨'n', "noexec", true⟩, ⟨'s', "stdin", true⟩, ⟨'x', "xtrace", true⟩, ⟨'v', "verbose", true⟩,
    ⟨'V', "vi", true⟩, ⟨'E', "emacs", true⟩, ⟨'C', "noclobber", true⟩, ⟨'a', "allexport", true⟩, ⟨'b', "notify", true⟩,
    ⟨'u', "nounset", true⟩, ⟨'p', "privileged", true⟩, ⟨'l', "nolog", false⟩, ⟨'d', "debug", false⟩]

/-- The setting with a letter. -/
def isFlag (c : Char) : Bool := optionNames.any fun o => o.isFlag && o.letter == c

/-- The letters of the options before the other arguments, each with its value if it takes one, or what is wrong with
them. -/
def leadingOptions (plain valued : Raw) : Nat → List Raw → Except Raw (List (Char × Raw) × List Raw)
  | 0, args => .ok ([], args)
  | fuel + 1, args =>
    match args with
    | ['-', '-'] :: rest => .ok ([], rest)
    | ('-' :: c :: cs) :: rest =>
      if valued.contains c then
        match cs, rest with
        | [], [] => .error ("No arg for -".toList ++ c :: " option".toList)
        | [], v :: rest => do
          let (os, ns) ← leadingOptions plain valued fuel rest
          return ((c, v) :: os, ns)
        | v, rest => do
          let (os, ns) ← leadingOptions plain valued fuel rest
          return ((c, v) :: os, ns)
      else if plain.contains c then do
        let (os, ns) ← leadingOptions plain valued fuel (if cs = [] then rest else ('-' :: cs) :: rest)
        return ((c, []) :: os, ns)
      else .error ("Illegal option -".toList ++ [c])
    | args => .ok ([], args)

/-- What a command leaves that ended with a status. -/
def State.ended (s : State) (status : Nat) : Flow × State := (.next, { s with status })

/-- A builtin fails. -/
def State.refuse (s : State) (why : Raw) : Flow × State := (s.breakOff why).ended 2

/-- Write an output and end with a status, or by the signal for an output that nobody reads. -/
def State.output (s : State) (text : Raw) (status : Nat) : Flow × State :=
  match s.write (s.channel 1) text with
  | (.done, s) => s.ended status
  | (.failed _, s) => (s.complain (s.builtin ++ ": I/O error".toList)).ended (status ||| 1)
  | (.unread, s) =>
    match s.reactions.lookup sigPipe with
    | none => (.killed sigPipe, s)
    | some .ignore => s.ended 1
    | some (.run _) => ({ s with signals := (s.now, sigPipe) :: s.signals } : State).ended 1

/-- Use the number that an argument spells. -/
def State.withNumber (s : State) (default : Nat) (args : List Raw) (use : Nat → Flow × State) : Flow × State :=
  match args with
  | [] => use default
  | a :: _ =>
    match Raw.nat? (skipSpace a) with
    | some n => if (n : Int) ≤ Int32.maxValue.toInt then use n else s.refuse ("Illegal number: ".toList ++ a)
    | none => s.refuse ("Illegal number: ".toList ++ a)

/-- Use the arguments after the options. -/
def State.withOptions (s : State) (plain valued : Raw) (args : List Raw)
    (use : List (Char × Raw) → List Raw → Flow × State) : Flow × State :=
  match leadingOptions plain valued (2 * args.length + (args.flatten).length + 2) args with
  | .error why => s.refuse why
  | .ok (os, rest) => use os rest

/-! ## Variables -/

/-- Variables with their values, one a line, each after a word. -/
def State.listing (s : State) (word : Raw) (names : List Raw) : Raw :=
  let names := names.mergeSort Raw.before
  names.flatMap fun n =>
    word ++ (if word = [] then [] else [' ']) ++ n ++
      (match s.var n with
        | some v => '=' :: quoteWord v
        | none => []) ++ ['\n']

/-- Carry out an assignment that is an argument, or a use of `mark` on a name. -/
def State.declare (mark : State → Raw → State) (s : State) (arg : Raw) : State :=
  if s.broken then s
  else
    let name := arg.takeWhile (· ≠ '=')
    if !Reader.isName name then s.breakOff (name ++ ": bad variable name".toList)
    else mark (if arg.length = name.length then s else s.store name (arg.drop (name.length + 1))) name

def State.fix (s : State) (name : Raw) : State :=
  { s with fixed := if s.fixed.contains name then s.fixed else name :: s.fixed }

def State.declareAll (s : State) (word : String) (marked : List Raw) (mark : State → Raw → State) (args : List Raw) :
    Flow × State :=
  s.withOptions ['p'] [] args fun os names =>
    if names.isEmpty ∨ !os.isEmpty then s.output (s.listing word.toList marked) 0
    else (names.foldl (State.declare mark) s).ended 0

def State.unsetAll (s : State) (args : List Raw) : Flow × State :=
  s.withOptions ['v', 'f'] [] args fun os names =>
    if (os.getLast?.map (·.1)) = some 'f' then
      ({ s with functions := s.functions.filter fun (n, _) => !names.contains n } : State).ended 0
    else
      (names.foldl (fun (s : State) n =>
        if s.broken then s
        else if !Reader.isName n then s.breakOff (n ++ ": bad variable name".toList)
        else if s.fixed.contains n then s.breakOff (n ++ ": is read only".toList)
        else s.unsetVar n) s).ended 0

/-- The values of variables. -/
def State.varsOf (s : State) (names : List Raw) : List (Raw × Option Raw) := names.map fun n => (n, s.var n)

/-- Variables get back the values that they had before. -/
def State.restoreVars (s : State) (old : List (Raw × Option Raw)) : State :=
  old.foldl (fun s (n, v) => match v with
    | some v => s.setVar n v
    | none => { s with vars := s.vars.filter (·.1 ≠ n) }) s

def State.makeLocal (s : State) (args : List Raw) : Flow × State :=
  if !s.inFunction then s.refuse "not in a function".toList
  else
    let names := args.map (·.takeWhile (· ≠ '='))
    let fresh := names.filter fun n => (s.locals.lookup n).isNone
    ((args.foldl (fun (s : State) a =>
      let name := a.takeWhile (· ≠ '=')
      if a.length = name.length ∨ s.broken then s else s.store name (a.drop (name.length + 1)))
      { s with locals := s.varsOf fresh ++ s.locals })).ended 0

/-- Set options and arguments. -/
def State.setOptions : Nat → List Raw → State → Flow × State
  | 0, _, s => s.ended 0
  | fuel + 1, args, s =>
    let done (args : List Raw) : Flow × State :=
      (if args.isEmpty then s else { s with args, optionIndex := 1, optionPlace := none }).ended 0
    match args with
    | [] => s.ended 0
    | ['-'] :: rest =>
      let s := (s.setOption 'x' false).setOption 'v' false
      (if rest.isEmpty then s else { s with args := rest }).ended 0
    | ['-', '-'] :: rest => ({ s with args := rest, optionIndex := 1, optionPlace := none } : State).ended 0
    | (sign :: cs) :: rest =>
      if sign ≠ '-' ∧ sign ≠ '+' then done args
      else
        let on := sign = '-'
        let bad := cs.find? fun c => c ≠ 'o' && !isFlag c
        let s := (cs.takeWhile fun c => c ≠ 'o' && isFlag c).foldl (fun s c => s.setOption c on) s
        match bad with
        | some c => s.refuse ("Illegal option -".toList ++ [c])
        | none =>
          if !cs.contains 'o' then setOptions fuel rest s
          else
            match rest with
            | [] =>
              let line (o : OptionName) : Raw :=
                let name := o.name.toList
                if on then name ++ List.replicate (16 - name.length) ' ' ++ (if s.has o.letter then "on" else "off").toList
                else "set ".toList ++ (if s.has o.letter then "-o " else "+o ").toList ++ name
              s.output ((if on then "Current option settings\n".toList else []) ++
                Raw.unlines (optionNames.map line)) 0
            | name :: rest =>
              match optionNames.find? (·.name.toList == name) with
              | some o => setOptions fuel rest (s.setOption o.letter on)
              | none => s.refuse ("Illegal option -o ".toList ++ name)
    | [] :: _ => done args

/-! ## Directories -/

/-- The directory that is called `name` where the working directory is called `here`, all of its segments looked at as
names. -/
def textualDir (here name : Raw) : Raw :=
  let start := if name.head? = some '/' then [] else here
  let segments := (Bytes.split Path.slash (Raw.bytes (start ++ '/' :: name))).filter (!Path.isIdle ·)
  let kept := segments.foldl (fun acc s => if s = Path.dotdot then acc.drop 1 else s :: acc) []
  '/' :: Raw.ofBytes (Bytes.join Path.slash kept.reverse)

/-- Go to a directory. -/
def State.goToDir (s : State) (physical : Bool) (name : Raw) : Option State :=
  let text := if physical then name else textualDir s.shownDir name
  match s.machine.canonicalize (s.path (if text = [] then ['.'] else text)) with
  | .error _ => none
  | .ok p =>
    if !s.machine.isDir p then none
    else
      let shown := if physical then Raw.ofBytes p.raw else text
      let old := s.shownDir
      let s : State := { s with dir := p, shownDir := shown }
      some (((s.setVar "OLDPWD".toList old).setVar "PWD".toList shown).export "OLDPWD".toList |>.export "PWD".toList)

def State.changeDir (s : State) (args : List Raw) : Flow × State :=
  s.withOptions ['P', 'L'] [] args fun os names =>
    let physical := (os.getLast?.map (·.1)) = some 'P'
    let back := names.head? = some ['-']
    let target := if back then (s.var "OLDPWD".toList).getD []
      else names.headD ((s.var "HOME".toList).getD [])
    let isFree : Bool := match target with
      | '/' :: _ | ['.'] | '.' :: '/' :: _ | ['.', '.'] | '.' :: '.' :: '/' :: _ => false
      | _ => true
    let entries := if isFree then (Bytes.split SearchPath.colon (Raw.bytes ((s.var "CDPATH".toList).getD []))).map
        Raw.ofBytes else []
    let found := entries.findSome? fun d =>
      let p := if d = [] then target else d ++ '/' :: target
      if d ≠ [] ∧ s.machine.isDir (s.path p) then (s.goToDir physical p).map fun t => (t, true) else none
    match found.orElse fun _ => (s.goToDir physical target).map fun t => (t, back) with
    | some (t, shown) => if shown then t.output (t.shownDir ++ ['\n']) 0 else t.ended 0
    | none => s.refuse ("can't cd to ".toList ++ target)

def State.printDir (s : State) (args : List Raw) : Flow × State :=
  s.withOptions ['P', 'L'] [] args fun os _ =>
    s.output ((if (os.getLast?.map (·.1)) = some 'P' then Raw.ofBytes s.dir.raw else s.shownDir) ++ ['\n']) 0

/-! ## Modes of new files -/

def State.useMask (s : State) (args : List Raw) : Flow × State :=
  s.withOptions ['S'] [] args fun os names =>
    match names with
    | [] =>
      if os.isEmpty then s.output (Tool.padded 8 4 s.mask ++ ['\n']) 0
      else
        let keep := 0o777 - s.mask
        s.output ("u=".toList ++ permissionLetters (keep >>> 6) ++ ",g=".toList ++ permissionLetters (keep >>> 3 &&& 7) ++
          ",o=".toList ++ permissionLetters (keep &&& 7) ++ ['\n']) 0
    | spec :: _ =>
      if (spec.head?.map Char.isDigit).getD false then
        if spec.all fun c => '0' ≤ c && c ≤ '7' then
          ({ s with mask := ((inBase 8 spec).getD 0) &&& 0o777 } : State).ended 0
        else s.refuse ("Illegal number: ".toList ++ spec)
      else
        match changedMode true 0 (0o777 - s.mask) spec with
        | some m => ({ s with mask := 0o777 - (m &&& 0o777) } : State).ended 0
        | none => s.refuse ("Illegal mode: ".toList ++ spec)

/-! ## Names of commands -/

/-- The directories of programs. -/
def State.searchPath (s : State) : Bytes := Raw.bytes ((s.var "PATH".toList).getD [])

/-- The program that a name stands for along a search path: the first file of that name, whether it can be started or
not. -/
def State.lookUp (s : State) (searchPath : Bytes) (name : Raw) : Except IoError Path :=
  if name.contains '/' then .ok ⟨Raw.bytes name⟩
  else
    (Machine.candidates searchPath (Raw.bytes name)).foldl (fun found p =>
      match found with
      | .ok q => .ok q
      | .error why =>
        match s.machine.find (s.dir.join p) with
        | .ok _ => if s.machine.isFile (s.dir.join p) then .ok p else .error (.os .EACCES)
        | .error e => .error (if e = .os .ENOENT ∨ e = .os .ENOTDIR then why else e)) (.error (.os .ENOENT))

/-- What a name of a command means, in words or, with `brief`, as it is used. -/
def State.describe (s : State) (brief : Bool) (name : Raw) : Option Raw :=
  let say (text : String) (short : Raw) : Option Raw := some (if brief then short else name ++ text.toList)
  if (Token.reserved? name).isSome then say " is a shell keyword" name
  else
    match s.aliases.lookup name with
    | some v =>
      some (if brief then "alias ".toList ++ name ++ '=' :: quoteWord v
        else name ++ " is an alias for ".toList ++ v)
    | none =>
      if (s.functions.lookup name).isSome then say " is a shell function" name
      else if isSpecial (String.ofList name) then say " is a special shell builtin" name
      else if isBuiltin (String.ofList name) then say " is a shell builtin" name
      else
        match s.lookUp s.searchPath name with
        | .ok p =>
          let shown := Raw.ofBytes p.raw
          if name.contains '/' ∧ !s.machine.isFile (s.path name) then none
          else if brief then some shown
          else some (name ++ (if s.hashed.contains name then " is a tracked alias for " else " is ").toList ++ shown)
        | .error _ => none

def State.tellTypes (s : State) (brief : Bool) (names : List Raw) : Flow × State :=
  let texts := names.map fun n =>
    match s.describe brief n with
    | some t => t ++ ['\n']
    | none => if brief then [] else n ++ ": not found\n".toList
  s.output texts.flatten (if names.all fun n => (s.describe brief n).isSome then 0 else 127)

/-- Note where programs are, or tell which have been noted. -/
def State.useHash (s : State) (args : List Raw) : Flow × State :=
  s.withOptions ['r', 'v'] [] args fun os names =>
    if os.any (·.1 == 'r') then ({ s with hashed := [] } : State).ended 0
    else if names.isEmpty then
      s.output (s.hashed.flatMap fun n => match s.lookUp s.searchPath n with
        | .ok p => Raw.ofBytes p.raw ++ ['\n']
        | .error _ => []) 0
    else
      let isKnown (n : Raw) : Bool := isBuiltin (String.ofList n) || (s.functions.lookup n).isSome ||
        (s.lookUp s.searchPath n).isOk
      let lost := names.filter (!isKnown ·)
      let s := lost.foldl (fun s n => s.complain (n ++ ": not found".toList)) s
      let found := names.filter fun n => isKnown n && !isBuiltin (String.ofList n) && (s.functions.lookup n).isNone
      ({ s with hashed := found ++ s.hashed.filter (!found.contains ·) } : State).ended (if lost.isEmpty then 0 else 1)

def State.useAliases (s : State) (args : List Raw) : Flow × State :=
  let shown (n v : Raw) : Raw := n ++ '=' :: quoteWord v ++ ['\n']
  if args.isEmpty then
    s.output ((s.aliases.mergeSort fun a b => Raw.before a.1 b.1).flatMap fun (n, v) => shown n v) 0
  else
    let (s, out, lost) := args.foldl (fun ((s, out, lost) : State × Raw × List Raw) a =>
      let name := a.takeWhile (· ≠ '=')
      if name = [] ∨ name.length = a.length then
        match s.aliases.lookup a with
        | some v => (s, out ++ shown a v, lost)
        | none => (s, out, lost ++ [a])
      else
        ({ s with aliases := (name, a.drop (name.length + 1)) :: s.aliases.filter (·.1 ≠ name) }, out, lost)) (s, [], [])
    let s := lost.foldl (fun s a => s.tell ("alias: ".toList ++ a ++ " not found\n".toList)) s
    s.output out (if lost.isEmpty then 0 else 1)

def State.dropAliases (s : State) (args : List Raw) : Flow × State :=
  s.withOptions ['a'] [] args fun os names =>
    if !os.isEmpty then ({ s with aliases := [] } : State).ended 0
    else
      let lost := names.filter fun n => (s.aliases.lookup n).isNone
      let s := lost.foldl (fun s a => s.tell ("unalias: ".toList ++ a ++ " not found\n".toList)) s
      ({ s with aliases := s.aliases.filter fun (n, _) => !names.contains n } : State).ended
        (if lost.isEmpty then 0 else 1)

/-! ## Reading -/

def State.readLine' (s : State) (args : List Raw) : Flow × State :=
  s.withOptions ['r'] ['p'] args fun os names =>
    match names.find? (!Reader.isName ·) with
    | some n => s.refuse (n ++ ": bad variable name".toList)
    | none =>
      if names.isEmpty then s.refuse "arg count".toList
      else
        let source := s.channel 0
        let text := s.textOf source
        let (ps, ended, rest) := readLine (os.any (·.1 == 'r')) (text.length + 1) [] text
        let s := (if ended then s else s.goTo (s.completeAt source)).leaveRest source rest
        let s := (names.zip (readValues s.dividers names.length ps)).foldl (fun (s : State) (n, v) =>
          if s.broken then s else s.store n v) s
        s.ended (if ended then 0 else 1)

/-- One step of `getopts`. -/
def State.nextOption (s : State) (letters name : Raw) (words : List Raw) : Flow × State :=
  let index := if words.length + 1 < s.optionIndex then 1 else s.optionIndex
  let place := if words.length + 1 < s.optionIndex then none else s.optionPlace
  let inside : Raw := match place with
    | some k => if index ≤ 1 then [] else (words.getD (index - 2) []).drop k
    | none => []
  let finish (s : State) (value : Raw) (index : Nat) (place : Option Nat) (status : Nat) : Flow × State :=
    let s : State := { s.setVar "OPTIND".toList (toString index).toList with optionIndex := index, optionPlace := place }
    (s.store name value).ended status
  let atEnd (index : Nat) : Flow × State := finish s ['?'] index none 1
  let quiet := letters.head? = some ':'
  -- The letter `c` of the argument before `index`, with the text after it.
  let letter (c : Char) (rest : Raw) (index : Nat) : Flow × State :=
    let after := letters.dropWhile (· ≠ c)
    let placed : Option Nat := some ((words.getD (index - 2) []).length - rest.length)
    if after = [] ∨ c = ':' then
      let s := if quiet then s.setVar "OPTARG".toList [c]
        else (s.tell ("Illegal option -".toList ++ c :: ['\n'])).unsetVar "OPTARG".toList
      finish s ['?'] index placed 0
    else if (after.drop 1).head? = some ':' then
      if rest ≠ [] then finish (s.setVar "OPTARG".toList rest) [c] index none 0
      else
        match words[index - 1]? with
        | some v => finish (s.setVar "OPTARG".toList v) [c] (index + 1) none 0
        | none =>
          if quiet then finish (s.setVar "OPTARG".toList [c]) [':'] index placed 0
          else finish ((s.tell ("No arg for -".toList ++ c :: " option\n".toList)).unsetVar "OPTARG".toList) ['?'] index
            placed 0
    else finish (s.setVar "OPTARG".toList []) [c] index placed 0
  match inside with
  | c :: rest => letter c rest index
  | [] =>
    match words[index - 1]? with
    | some ['-', '-'] => atEnd (index + 1)
    | some ('-' :: c :: rest) => letter c rest (index + 1)
    | _ => atEnd index

def State.getOptions (s : State) (args : List Raw) : Flow × State :=
  match args with
  | letters :: name :: words => s.nextOption letters name (if words.isEmpty then s.args else words)
  | _ => s.refuse "Usage: getopts optstring var [arg]".toList

/-! ## Signals -/

def State.setTraps (s : State) (args : List Raw) : Flow × State :=
  let set (s : State) (action : Option Raw) (n : Nat) : State :=
    if n = 0 then { s with farewell := action }
    else
      let others := s.reactions.filter (·.1 ≠ n)
      { s with reactions := match action with
        | some [] => (n, .ignore) :: others
        | some script => (n, .run script) :: others
        | none => others }
  let rec each (action : Option Raw) : List Raw → State → Flow × State
    | [], s => s.ended 0
    | n :: ns, s =>
      match signal? n with
      | some k => each action ns (set s action k)
      | none => (s.tell ("trap: ".toList ++ n ++ ": bad trap\n".toList)).ended 1
  s.withOptions [] [] args fun _ args =>
    match args with
    | [] =>
      let shown (script : Raw) (n : Nat) : Raw := "trap -- ".toList ++ quoteWord script ++ ' ' :: signalName n ++ ['\n']
      let own := (s.farewell.map fun script => shown script 0).getD []
      s.output (own ++ (s.reactions.mergeSort fun a b => a.1 ≤ b.1).flatMap fun (n, r) => shown (match r with
        | .ignore => []
        | .run script => script) n) 0
    | [n] => each none [n] s
    | a :: ns =>
      if (signal? a).isSome then each none (a :: ns) s
      else each (if a = ['-'] then none else some a) ns s

/-- The names of the signals, or of those with some numbers. -/
def State.listSignals (s : State) (args : List Raw) : Flow × State :=
  let name (n : Nat) : Raw :=
    if n = 0 then ['0']
    else if n = 34 then "RTMIN".toList
    else if n = 64 then "RTMAX".toList
    else if 34 < n ∧ n < 50 then ("RTMIN+" ++ toString (n - 34)).toList
    else if 50 ≤ n ∧ n < 64 then ("RTMAX-" ++ toString (64 - n)).toList
    else signalName n
  match args with
  | [] => s.output (Raw.unlines ((List.range 65).map name)) 0
  | a :: _ => s.withNumber 0 args fun n =>
    let k := if 128 < n then n - 128 else n
    if 0 < k ∧ k ≤ 64 then s.output (name k ++ ['\n']) 0
    else s.refuse ("invalid signal number or exit status: ".toList ++ a)

/-- Carry out a builtin that carries out no other commands. -/
def State.plainBuiltin (s : State) (name : String) (args : List Raw) : Option (Flow × State) :=
  let tested (args : List Raw) : Flow × State :=
    match condition s.machine s.path args with
    | .ok r => s.ended (if r then 0 else 1)
    | .error why => s.refuse why.message
  match name with
  | "true" | ":" => some (s.ended 0)
  | "hash" => some (s.useHash args)
  | "false" => some (s.ended 1)
  | "fg" | "bg" => some (s.refuse "No current job".toList)
  | "times" => some (s.output ("0m0.000000s 0m0.000000s\n0m0.000000s 0m0.000000s\n").toList 0)
  | "ulimit" => some (s.output "unlimited\n".toList 0)
  | "echo" => some (s.output (echo args) 0)
  | "printf" => some <| s.withOptions [] [] args fun _ args =>
    match args with
    | [] => s.refuse "usage: printf format [arg ...]".toList
    | format :: args =>
      let r := printf format args
      let s := r.complaints.foldl (fun s f => s.complain f.message) s
      match r.fault with
      | some (spec, isKind) =>
        let (f, s) := s.output r.out 2
        let why : Raw := if isKind then spec ++ ": invalid directive".toList else "missing format character".toList
        if f = .next then s.refuse why else (f, s)
      | none => s.output r.out (if r.complaints.isEmpty then 0 else 1)
  | "test" => some (tested args)
  | "[" => some (if args.getLast? ≠ some [']'] then s.refuse "missing ]".toList else tested args.dropLast)
  | "pwd" => some (s.printDir args)
  | "cd" | "chdir" => some (s.changeDir args)
  | "read" => some (s.readLine' args)
  | "umask" => some (s.useMask args)
  | "set" =>
    some (if args.isEmpty then s.output (s.listing [] (s.vars.map (·.1))) 0
      else s.setOptions (args.length + 1) args)
  | "shift" => some <| s.withNumber 1 args fun n =>
    if s.args.length < n then s.refuse "can't shift that many".toList
    else ({ s with args := s.args.drop n, optionIndex := 1, optionPlace := none } : State).ended 0
  | "export" => some (s.declareAll "export" s.exported State.export args)
  | "readonly" => some (s.declareAll "readonly" s.fixed State.fix args)
  | "local" => some (s.makeLocal args)
  | "unset" => some (s.unsetAll args)
  | "getopts" => some (s.getOptions args)
  | "type" => some (s.tellTypes false args)
  | "alias" => some (s.useAliases args)
  | "unalias" => some (s.dropAliases args)
  | "trap" => some (s.setTraps args)
  | _ => none

end Retrace.Shell
