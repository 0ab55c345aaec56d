import Retrace.Machine.Files
import Retrace.Shell.Syntax

/-!
# Tools

What a tool of the system is given when it is called, and what it does.
-/

namespace Retrace.Shell

namespace Raw

/-- The characters for bytes. -/
def ofBytes (bs : Bytes) : Raw := bs.map fun b => Char.ofNat b.toNat

/-- The bytes of characters. -/
def bytes (cs : Raw) : Bytes := cs.map fun c => UInt8.ofNat c.toNat

/-- The bytes of a text, as characters. -/
def ofText (s : String) : Raw := ofBytes (Utf8.encode s)

/-- The lines of a text, each without its end; what follows the last end is a line only when it is not empty. -/
def lines (cs : Raw) : List Raw :=
  let (last, done) := cs.foldl (fun (line, done) c =>
    if c = '\n' then ([], line.reverse :: done) else (c :: line, done)) ([], [])
  (if last = [] then done else last.reverse :: done).reverse

/-- Lines, each with its end. -/
def unlines (ls : List Raw) : Raw := ls.flatMap (· ++ ['\n'])

/-- The number in decimal digits. -/
def nat? (cs : Raw) : Option Nat :=
  if cs.isEmpty || !cs.all Char.isDigit then none else some (cs.foldl (fun n c => n * 10 + (c.toNat - '0'.toNat)) 0)

/-- The number in decimal digits, perhaps after a sign. -/
def int? : Raw → Option Int
  | '-' :: cs => (nat? cs).map fun n => -(n : Int)
  | '+' :: cs => (nat? cs).map fun n => (n : Int)
  | cs => (nat? cs).map fun n => (n : Int)

/-- The order of the bytes. -/
def before : Raw → Raw → Bool
  | [], _ => true
  | _ :: _, [] => false
  | c :: cs, d :: ds => c < d || (c == d && before cs ds)

end Raw

/-- The descriptor that a name of a file stands for. -/
def descriptorOf? (name : Raw) : Option Nat :=
  match String.ofList name with
  | "/dev/stdin" => some 0
  | "/dev/stdout" => some 1
  | "/dev/stderr" => some 2
  | _ =>
    let start := ["/dev/fd/", "/proc/self/fd/"].find? fun p => p.toList.isPrefixOf name
    start.bind fun p => Raw.nat? (name.drop p.length)

/-- What a tool is given. -/
structure Call where
  name : Raw
  args : List Raw
  machine : Machine
  /-- The directory that it works in. -/
  dir : Path
  env : List (Raw × Raw)
  /-- The permissions that new files do not get. -/
  mask : Nat
  /-- What its open descriptors hold to be read. -/
  streams : List (Nat × Except IoError Raw)
  /-- Its standard input is a file, of which a part can be left to others. -/
  rewinds : Bool

/-- What a tool does. -/
structure Deed where
  /-- What it writes, each text with its descriptor, before `err` and `out`. -/
  writes : List (Nat × Raw) := []
  out : Raw := []
  err : Raw := []
  status : Nat := 0
  /-- What it leaves of its standard input, if it reads that. -/
  rest : Option Raw := none
  /-- Its changes to the machine, in order. -/
  changes : List (Machine → Machine) := []
  millis : Nat := 1

/-! ## Quotes -/

/-- A name in quotes from which a shell reads it again. -/
def quoted (name : Raw) : Raw :=
  let isPrintable (c : Char) : Bool := ' ' ≤ c && c ≤ '~'
  let isCommon (c : Char) : Bool := isPrintable c && !("\"$&()*;<=>[^|!?\\\x60".toList.contains c)
  if name.contains '\'' ∧ name.all isCommon then '"' :: name ++ ['"']
  else
    let control (c : Char) : Raw :=
      match (['\x07', '\x08', '\x0c', '\n', '\r', '\t', '\x0b'].zip "abfnrtv".toList).lookup c with
      | some l => ['\\', l]
      | none => '\\' :: (let d := Nat.toDigits 8 c.toNat; List.replicate (3 - d.length) '0' ++ d)
    let rec go (inControl : Bool) : Raw → Raw
      | [] => ['\'']
      | c :: cs =>
        if isPrintable c then
          (if inControl then "''".toList else []) ++ (if c = '\'' then "'\\''".toList else [c]) ++ go false cs
        else (if inControl then [] else "'$'".toList) ++ control c ++ go true cs
    '\'' :: go false name

/-- A name, in quotes where a shell would need them. -/
def quotedIfNeeded (name : Raw) : Raw :=
  let isPlain (c : Char) : Bool := '!' ≤ c && c ≤ '~' && !("!\"$&'()*;<=>?[^|\\\x60".toList.contains c)
  let odd : Bool := match name with
    | [] | ['\x7b'] | ['\x7d'] => true
    | c :: _ => c == '#' || c == '~'
  if odd || !name.all isPlain then quoted name else name

namespace Call

/-- The path that a name stands for. -/
def path (c : Call) (name : Raw) : Path := if name = [] then ⟨[]⟩ else c.dir.join ⟨Raw.bytes name⟩

/-- A complaint of the tool. -/
def complain (c : Call) (text : Raw) : Raw := c.name ++ ": ".toList ++ text ++ ['\n']

/-- What a tool says that is called in a wrong way. -/
def misused (c : Call) (text : Raw) : Raw :=
  c.complain text ++ "Try '".toList ++ c.name ++ " --help' for more information.\n".toList

/-- The wording of an error of the machine. -/
def errorText : IoError → Raw
  | .os e => e.text.toList
  | e => Raw.ofText e.text

/-- What could not be done, and why. -/
def blame {α : Type} (what : Raw) (r : Except IoError α) : Except Raw α :=
  r.mapError fun e => what ++ ": ".toList ++ errorText e

/-- A complaint about a file. -/
def lament (c : Call) (name : Raw) (e : IoError) : Raw :=
  c.complain (quotedIfNeeded name ++ ": ".toList ++ errorText e)

/-- All that a descriptor holds to be read. -/
def stream (c : Call) (fd : Nat) : Except IoError Raw := (c.streams.lookup fd).getD (.error (.os .EBADF))

/-- All that its standard input holds. -/
def input (c : Call) : Raw := ((c.stream 0).toOption).getD []

/-- The text of a named file. -/
def read (c : Call) (name : Raw) : Except IoError Raw :=
  if name = ['-'] then c.stream 0
  else
    match descriptorOf? name with
    | some fd => if (c.streams.lookup fd).isSome then c.stream fd else .error (.os .ENOENT)
    | none => (c.machine.read (c.path name)).map Raw.ofBytes

/-- The name of the standard input. -/
def isInput (name : Raw) : Bool := name = ['-'] || descriptorOf? name == some 0

/-- The texts of the named files, or of the input when none is named. The input can be read only once. -/
def texts (c : Call) (names : List Raw) : List (Raw × Except IoError Raw) :=
  let names := if names.isEmpty then [['-']] else names
  names.zipIdx.map fun (n, k) =>
    (n, if isInput n && (names.take k).any isInput then .ok [] else c.read n)

/-- The tool reads its input. -/
def readsInput (names : List Raw) : Bool := names.isEmpty || names.any isInput

/-- The texts that could be read, with the complaints about the others. -/
def inputs (c : Call) (names : List Raw) : List (Raw × Raw) × Raw :=
  (c.texts names).foldr (fun (name, text) (texts, err) =>
    match text with
    | .ok text => ((name, text) :: texts, err)
    | .error e => (texts, c.lament name e ++ err)) ([], [])

/-- What a tool does that turns all of its input into an output. -/
def filter (c : Call) (names : List Raw) (f : Raw → Raw) : Deed :=
  let (texts, err) := c.inputs names
  { out := f (texts.flatMap (·.2)), err, status := if err.isEmpty then 0 else 1
    rest := if readsInput names then some [] else none }

end Call

/-- A change that leaves the machine as it is when it cannot be made. -/
def attempt (f : Machine → Except IoError Machine) (m : Machine) : Machine := (f m).toOption.getD m

namespace Call

/-- What is done for each of the names in turn: a change with an output, or a complaint. -/
def onEach (c : Call) (names : List Raw) (act : Raw → Machine → Except Raw (Machine × Raw)) : Deed :=
  let step := fun (s : Machine × Deed) name =>
    let (m, d) := s
    match act name m with
    | .ok (m, text) =>
      (m, { d with
        writes := d.writes ++ [(1, text)]
        changes := d.changes ++ [fun m => ((act name m).toOption.map (·.1)).getD m] })
    | .error why => (m, { d with writes := d.writes ++ [(2, c.complain why)], status := 1 })
  (names.foldl step (c.machine, {})).2

end Call

/-! ## Options -/

/-- The options of a tool: letters, letters with a value, and the letters for long names. -/
structure OptionTable where
  plain : String := ""
  valued : String := ""
  long : List (String × Char) := []
  /-- The options end before the first argument that is none. -/
  leading : Bool := false

/-- The options with their values and the other arguments, or what is wrong with them. -/
def OptionTable.read (t : OptionTable) : Nat → List Raw → Except Raw (List (Char × Raw) × List Raw)
  | 0, args => .ok ([], args)
  | fuel + 1, args =>
    let withOption (o : Char) (value : Raw) (rest : List Raw) : Except Raw (List (Char × Raw) × List Raw) := do
      let (os, ns) ← t.read fuel rest
      return ((o, value) :: os, ns)
    match args with
    | [] => .ok ([], [])
    | ['-', '-'] :: rest => .ok ([], rest)
    | ('-' :: '-' :: text) :: rest =>
      let name := text.takeWhile (· ≠ '=')
      let exact := t.long.filter fun (l, _) => l.toList == name
      let near := t.long.filter fun (l, _) => name.isPrefixOf l.toList
      match (if exact.isEmpty then near else exact) with
      | [] => .error ("unrecognized option '--".toList ++ text ++ ['\''])
      | (long, o) :: others =>
        if others.any (·.2 ≠ o) then
          .error ("option '--".toList ++ text ++ "' is ambiguous; possibilities:".toList ++
            near.flatMap fun (l, _) => " '--".toList ++ l.toList ++ ['\''])
        else
          let value := text.drop (name.length + 1)
          let given := decide (name.length < text.length)
          if !t.valued.toList.contains o then
            if given ∧ t.plain.toList.contains o then
              .error ("option '--".toList ++ long.toList ++ "' doesn't allow an argument".toList)
            else withOption o value rest
          else if given then withOption o value rest
          else
            match rest with
            | v :: rest => withOption o v rest
            | [] => .error ("option '--".toList ++ long.toList ++ "' requires an argument".toList)
    | ('-' :: o :: cs) :: rest =>
      if t.valued.toList.contains o then
        match cs, rest with
        | [], v :: rest => withOption o v rest
        | [], [] => .error ("option requires an argument -- '".toList ++ [o, '\''])
        | v, rest => withOption o v rest
      else if t.plain.toList.contains o then
        withOption o [] (if cs = [] then rest else ('-' :: cs) :: rest)
      else .error ("invalid option -- '".toList ++ [o, '\''])
    | arg :: rest =>
      if t.leading then .ok ([], arg :: rest)
      else do
        let (os, ns) ← t.read fuel rest
        return (os, arg :: ns)

/-- The options that were given, the last one first. -/
abbrev Options := List (Char × Raw)

namespace Options

def has (os : Options) (o : Char) : Bool := os.any (·.1 == o)

/-- The value that was given last. -/
def value? (os : Options) (o : Char) : Option Raw := os.lookup o

/-- The values in the order in which they were given. -/
def values (os : Options) (o : Char) : List Raw := ((os.filter (·.1 == o)).map (·.2)).reverse

/-- The last option among some. -/
def last? (os : Options) (among : String) : Option Char := (os.find? fun (o, _) => among.toList.contains o).map (·.1)

end Options

namespace Call

/-- What a tool does with its options and the other arguments, or what it says about them when they are wrong. -/
def withOptions (c : Call) (t : OptionTable) (use : Options → List Raw → Deed) (status : Nat := 1) : Deed :=
  match t.read (c.args.length + (c.args.map List.length).foldl (· + ·) 1) c.args with
  | .error why => { err := c.misused why, status }
  | .ok (os, names) => use os.reverse names

end Call

end Retrace.Shell
