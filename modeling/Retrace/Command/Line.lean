import Retrace.Path.Basic
import Retrace.Text.Natural

/-!
# The command line

The words of a command line, and what they ask for. A word that stands in the wrong place, or that has no meaning, is a
usage error, whichever it is.
-/

namespace Retrace.Command

/-- What a command line asks for. -/
inductive Request where
  | trace (file : Path) (driver : Option Path) (driverArgs : List String)
  | watch (file : Path) (driver output : Option Path) (debounceMs : Option Nat) (driverArgs : List String)
  | status (file : Path)
  | listSettings
  | getSetting (key : String)
  | setSetting (key value : String)
  | showPath (create : Bool)
  | showExample
  | help
  | version
  deriving DecidableEq, Repr

/-- What the value of an option or a word has to be. -/
inductive ValueKind where
  | path
  | text
  | number
  deriving DecidableEq, Repr

/-- A value fits its kind: a path is not empty, a text is well formed, a number has 64 bits. -/
def ValueKind.admits (k : ValueKind) (v : Bytes) : Bool :=
  match k with
  | .path => v ≠ []
  | .text => (Utf8.decode? v).isSome
  | .number => match Utf8.decode? v with
    | some s => (Text.parseWord s).isOk
    | none => false

/-- An option: its long name, perhaps a letter, and the kind of its value if it takes one. -/
structure OptionShape where
  name : String
  letter : Option Char := none
  value : Option ValueKind := none
  deriving DecidableEq, Repr

/-- The words that a command takes. -/
structure Shape where
  options : List OptionShape := []
  words : List ValueKind := []
  /-- Words after `--` are for somebody else. -/
  passesOn : Bool := false
  deriving DecidableEq, Repr

/-- What has been read of a command line. -/
structure Words where
  options : List (String × Bytes) := []
  words : List Bytes := []
  passedOn : List Bytes := []
  deriving DecidableEq, Repr

/-- The end of reading. -/
inductive Reading where
  | usageError
  | help
  | complete (w : Words)
  deriving DecidableEq, Repr

def dash : UInt8 := 0x2D
def equals : UInt8 := 0x3D

/-- The word is taken for an option. -/
def looksLikeOption (w : Bytes) : Bool := w.head? == some dash && w ≠ [dash]

namespace Words

/-- Take the value of an option, which may come once. -/
def addOption (w : Words) (o : OptionShape) (v : Bytes) : Option Words :=
  if (w.options.lookup o.name).isSome then none
  else
    match o.value with
    | some k => if k.admits v then some { w with options := w.options ++ [(o.name, v)] } else none
    | none => some { w with options := w.options ++ [(o.name, v)] }

/-- Take a word, if there is still room for one. -/
def addWord (w : Words) (s : Shape) (v : Bytes) : Option Words :=
  match s.words[w.words.length]? with
  | some k => if k.admits v then some { w with words := w.words ++ [v] } else none
  | none => none

/-- Take words after `--`. -/
def addRest (w : Words) (s : Shape) (rest : List Bytes) : Option Words :=
  if s.passesOn then
    if rest.all ValueKind.text.admits then some { w with passedOn := rest } else none
  else rest.foldlM (fun w v => w.addWord s v) w

end Words

/-- The letter at the start of a cluster of letters, as a word. -/
def letterOf (b : UInt8) : Char := Char.ofNat b.toNat

/-- Read the words for a command. -/
def readWords (s : Shape) : List Bytes → Words → Reading
  | [], w => if w.words.length = s.words.length then .complete w else .usageError
  | a :: rest, w =>
    let continue' (w : Option Words) : Reading := match w with
      | some w => readWords s rest w
      | none => .usageError
    let withNext (o : OptionShape) : Reading := match rest with
      | v :: rest =>
        if looksLikeOption v then .usageError
        else
          match w.addOption o v with
          | some w => readWords s rest w
          | none => .usageError
      | [] => .usageError
    if a = [dash, dash] then
      match w.addRest s rest with
      | some w => if w.words.length = s.words.length then .complete w else .usageError
      | none => .usageError
    else if !looksLikeOption a then continue' (w.addWord s a)
    else
      match a with
      | _ :: b :: tail =>
        if b = dash then
          let name := tail.takeWhile (· ≠ equals)
          let value : Option Bytes := if tail.length = name.length then none else some (tail.drop (name.length + 1))
          if name = Bytes.ofString "help" then (if value.isNone then .help else .usageError)
          else
            match s.options.find? fun o => Bytes.ofString o.name == name with
            | none => .usageError
            | some o =>
              match o.value, value with
              | none, none => continue' (w.addOption o [])
              | none, some _ => .usageError
              | some _, some v => continue' (w.addOption o v)
              | some _, none => withNext o
        else if letterOf b = 'h' then .help
        else
          match s.options.find? fun o => o.letter == some (letterOf b) with
          | none => .usageError
          | some o =>
            if tail = [] then withNext o
            else continue' (w.addOption o (if tail.head? = some equals then tail.drop 1 else tail))
      | _ => .usageError

/-- The texts of words that are known to be well formed. -/
def textOf (v : Bytes) : String := Utf8.lossy v

/-- Read the words of a command and make a request of them. -/
def request (s : Shape) (args : List Bytes) (make : Words → Request) : Option Request :=
  match readWords s args {} with
  | .usageError => none
  | .help => some .help
  | .complete w => some (make w)

def driverOption : OptionShape := { name := "driver", value := some .path }

/-- The word at a place, which the shape of the command assures. -/
def Words.at (w : Words) (k : Nat) : Bytes := w.words.getD k []

def Words.path? (w : Words) (name : String) : Option Path := (w.options.lookup name).map Path.mk

/-- The commands. -/
def commands : List String := ["run", "watch", "status", "config", "help"]

/-- The commands for the settings. -/
def settingsCommands : List String := ["list", "get", "set", "path", "example", "help"]

/-- Help on one of some commands, or on all of them. -/
def helpOn (names : List String) : List Bytes → Option Request
  | [] => some .help
  | [n] => if names.contains (Utf8.lossy n) then some .help else none
  | _ => none

/-- What a command line for the settings asks for. -/
def settingsRequest (args : List Bytes) : Option Request :=
  match args with
  | [] => none
  | name :: rest =>
    match Utf8.lossy name with
    | "list" => request {} rest fun _ => .listSettings
    | "get" => request { words := [.text] } rest fun w => .getSetting (textOf (w.at 0))
    | "set" => request { words := [.text, .text] } rest fun w => .setSetting (textOf (w.at 0)) (textOf (w.at 1))
    | "path" => request { options := [{ name := "create" }] } rest fun w => .showPath (w.options.lookup "create").isSome
    | "example" => request {} rest fun _ => .showExample
    | "help" => helpOn settingsCommands rest
    | "--help" => some .help
    | s => if s.startsWith "-h" then some .help else none

/-- What a command line asks for; there is nothing to ask for after a usage error. -/
def Request.parse? (args : List Bytes) : Option Request :=
  match args with
  | [] => none
  | name :: rest =>
    match Utf8.lossy name with
    | "run" =>
      request { options := [driverOption], words := [.path], passesOn := true } rest fun w =>
        .trace ⟨w.at 0⟩ (w.path? "driver") (w.passedOn.map textOf)
    | "watch" =>
      let options : List OptionShape := [driverOption, { name := "output", letter := some 'o', value := some .path },
        { name := "debounce-ms", value := some .number }]
      request { options, words := [.path], passesOn := true } rest fun w =>
        let ms := (w.options.lookup "debounce-ms").bind fun v => (Text.parseWord (textOf v)).toOption
        .watch ⟨w.at 0⟩ (w.path? "driver") (w.path? "output") ms (w.passedOn.map textOf)
    | "status" => request { words := [.path] } rest fun w => .status ⟨w.at 0⟩
    | "config" => settingsRequest rest
    | "help" =>
      match rest with
      | first :: more =>
        if Utf8.lossy first = "config" then helpOn settingsCommands more else helpOn commands rest
      | [] => some .help
    | "--help" => some .help
    | "--version" => some .version
    | s => if s.startsWith "-h" then some .help else if s.startsWith "-V" then some .version else none

end Retrace.Command
