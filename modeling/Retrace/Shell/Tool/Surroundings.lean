import Retrace.Shell.Image

/-!
# Tools for the surroundings

The tools that tell of the process that has called them, of its environment and of the system, and that wait.
-/

namespace Retrace.Shell.Tool

/-- What a tool says about an argument too many. -/
def extraOperand (c : Call) (arg : Raw) (status : Nat) : Deed :=
  { err := c.misused ("extra operand ".toList ++ quoted arg), status }

/-- A time with at most three places counts as whole milliseconds; a unit may follow. -/
def duration? (cs : Raw) : Option Nat :=
  let whole := cs.takeWhile Char.isDigit
  let rest := cs.drop whole.length
  let places := if rest.head? = some '.' then (rest.drop 1).takeWhile Char.isDigit else []
  let unit := if rest.head? = some '.' then rest.drop (places.length + 1) else rest
  let scale : Option Nat := match unit with
    | [] | ['s'] => some 1
    | ['m'] => some 60
    | ['h'] => some 3600
    | ['d'] => some 86400
    | _ => none
  let exact := (Raw.nat? (whole ++ (places ++ "000".toList).take 3)).getD 0
  let above := (places.drop 3).any (· ≠ '0')
  if cs = "infinity".toList ∨ cs = "inf".toList then some 1000000000000
  else if whole = [] ∧ places = [] then none
  else scale.map fun s => (exact + if above then 1 else 0) * s

def sleep (c : Call) : Deed :=
  c.withOptions {} fun _ times =>
    let wrong := times.filter fun t => (duration? t).isNone
    if times.isEmpty then { err := c.misused "missing operand".toList, status := 1 }
    else
      match wrong.getLast? with
      | none => { millis := (times.filterMap duration?).foldl (· + ·) 0 }
      | some last =>
        let text (t : Raw) : Raw := "invalid time interval ".toList ++ quoted t
        { err := wrong.dropLast.flatMap (fun t => c.complain (text t)) ++ c.misused (text last), status := 1 }

def pwd (c : Call) : Deed :=
  c.withOptions { plain := "LP", long := [("logical", 'L'), ("physical", 'P')] } fun _ names =>
    { out := Raw.ofBytes c.dir.raw ++ ['\n']
      err := if names.isEmpty then [] else c.complain "ignoring non-option arguments".toList }

def printenv (c : Call) : Deed :=
  c.withOptions { plain := "0", long := [("null", '0')], leading := true } (fun os names =>
    let stop : Raw := [if os.has '0' then '\x00' else '\n']
    if names.isEmpty then { out := c.env.flatMap fun (k, v) => k ++ '=' :: v ++ stop }
    else
      { out := names.flatMap fun n => ((c.env.lookup n).map (· ++ stop)).getD []
        status := if names.all fun n => (c.env.lookup n).isSome then 0 else 1 }) 2

def id (c : Call) : Deed :=
  c.withOptions { plain := "aGgnruz", long := [("user", 'u'), ("group", 'g'), ("groups", 'G'), ("name", 'n')] }
    fun os names =>
      match names.find? (· ≠ "root".toList) with
      | some n => { err := c.complain (quoted n ++ ": no such user".toList), status := 1 }
      | none =>
        let text : String := if os.has 'u' ∨ os.has 'g' ∨ os.has 'G' then (if os.has 'n' then "root" else "0")
          else "uid=0(root) gid=0(root) groups=0(root)"
        { out := text.toList ++ ['\n'] }

def whoami (c : Call) : Deed :=
  c.withOptions {} fun _ names =>
    match names with
    | [] => { out := "root\n".toList }
    | n :: _ => extraOperand c n 1

def uname (c : Call) : Deed :=
  let table : OptionTable :=
    { plain := "asnrvmpio"
      long := [("all", 'a'), ("kernel-name", 's'), ("nodename", 'n'), ("kernel-release", 'r'), ("kernel-version", 'v'),
        ("machine", 'm'), ("operating-system", 'o')] }
  c.withOptions table fun os names =>
    match names with
    | n :: _ => extraOperand c n 1
    | [] =>
      let parts := [('s', "Linux"), ('m', "x86_64"), ('o', "GNU/Linux")].filter fun (k, _) => os.has k
      let parts := if parts.isEmpty then ["Linux"] else parts.map (·.2)
      { out := (" ".intercalate parts).toList ++ ['\n'] }

def tty (c : Call) : Deed :=
  c.withOptions { plain := "s", long := [("quiet", 's'), ("silent", 's')] } (fun os names =>
    match names with
    | n :: _ => extraOperand c n 2
    | [] => { out := if os.has 's' then [] else "not a tty\n".toList, status := 1 }) 2

def which (c : Call) : Deed :=
  let searchPath := ((c.env.lookup "PATH".toList).map Raw.bytes).getD []
  let isProgram (p : Path) : Bool := match c.machine.node? (c.dir.join p) with
    | some (.file _ mode) => mode &&& 0o111 ≠ 0
    | _ => false
  let all := c.args.head? = some ['-', 'a']
  let names := if all then c.args.drop 1 else c.args
  let found (n : Raw) : List Path :=
    let ps := if n.contains '/' then [(⟨Raw.bytes n⟩ : Path)] else Machine.candidates searchPath (Raw.bytes n)
    let ps := ps.filter isProgram
    if all then ps else ps.take 1
  { out := names.flatMap fun n => Raw.unlines ((found n).map fun p => Raw.ofBytes p.raw)
    status := if !names.isEmpty && names.all fun n => !(found n).isEmpty then 0 else 1 }

/-- An interpreter for which no module can be found. -/
def interpreter (c : Call) : Deed :=
  match c.args with
  | ['-', 'm'] :: name :: _ =>
    { err := "/usr/bin/".toList ++ "python3: No module named ".toList ++ name ++ ['\n'], status := 1 }
  | _ => {}

/-- What `env` is to do: the settings, the directory and the command. -/
structure EnvPlan where
  env : List (Raw × Raw)
  dir : Option Raw
  command : List Raw

/-- The words of a text, of which quotes can hold blanks. -/
def splitWords (text : Raw) : List Raw :=
  let close (s : Option Raw × List Raw) : List Raw := s.1.toList ++ s.2
  let rec go (quote : Option Char) (word : Option Raw) (done : List Raw) : Raw → List Raw
    | [] => close (word, done)
    | c :: cs =>
      let keep : List Raw := go quote (some (word.getD [] ++ [c])) done cs
      match quote with
      | some q => if c = q then go none (some (word.getD [])) done cs else keep
      | none =>
        if c = ' ' ∨ c = '\t' ∨ c = '\n' then go none none (close (word, done)) cs
        else if c = '\'' ∨ c = '"' then go (some c) (some (word.getD [])) done cs
        else keep
  (go none none [] text).reverse

/-- The plan of `env` for its environment and arguments, or what is wrong with them. -/
def envPlan (env : List (Raw × Raw)) (args : List Raw) : Except Raw EnvPlan := do
  let set (env : List (Raw × Raw)) (k v : Raw) : List (Raw × Raw) :=
    if (env.lookup k).isSome then env.map fun (n, w) => if n = k then (n, v) else (n, w) else env ++ [(k, v)]
  let rec settings (env : List (Raw × Raw)) : List Raw → List (Raw × Raw) × List Raw
    | a :: rest =>
      let k := a.takeWhile (· ≠ '=')
      if k.length = a.length then (env, a :: rest) else settings (set env k (a.drop (k.length + 1))) rest
    | [] => (env, [])
  let table : OptionTable :=
    { plain := "i0v", valued := "uCS", leading := true
      long := [("ignore-environment", 'i'), ("null", '0'), ("unset", 'u'), ("chdir", 'C'), ("split-string", 'S'),
        ("debug", 'v')] }
  let read (args : List Raw) : Except Raw (List (Char × Raw) × List Raw) :=
    table.read ((args.map List.length).foldl (· + · + 1) 1) args
  let (os, rest) ← read args
  let (more, rest) ← match os.lookup 'S' with
    | some text => read (splitWords text ++ rest)
    | none => pure ([], rest)
  let os := (os ++ more).reverse
  let (bare, rest) := if rest.head? = some ['-'] then (true, rest.drop 1) else (false, rest)
  let env := if bare ∨ Options.has os 'i' then [] else env
  let (env, command) := settings (env.filter fun (n, _) => !(Options.values os 'u').contains n) rest
  return { env, dir := Options.value? os 'C', command }

end Retrace.Shell.Tool
