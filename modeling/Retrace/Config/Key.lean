import Retrace.Config.Basic
import Retrace.Text.Lowercase

/-!
# Settings by key

Every setting has a key, under which it is shown as one text and set from one.
-/

namespace Retrace

/-- A setting. -/
inductive Config.Key where
  | debounceMs
  | killGraceMs
  | interpreter
  | module
  | searchPath
  | level
  | logFile
  deriving DecidableEq, Repr

namespace Config

namespace Key

/-- All keys, in the order in which they are listed. -/
def all : List Key := [.debounceMs, .killGraceMs, .interpreter, .module, .searchPath, .level, .logFile]

/-- The section that a setting stands in. -/
def sectionName : Key → String
  | .debounceMs | .killGraceMs => "session"
  | .interpreter | .module | .searchPath => "tracer"
  | .level | .logFile => "log"

/-- The name of a setting in its section. -/
def fieldName : Key → String
  | .debounceMs => "debounce_ms"
  | .killGraceMs => "kill_grace_ms"
  | .interpreter => "interpreter"
  | .module => "module"
  | .searchPath => "search_path"
  | .level => "level"
  | .logFile => "file"

/-- The key as it is typed. -/
def text (k : Key) : String := k.sectionName ++ "." ++ k.fieldName

/-- The key typed as `s`. -/
def ofText? (s : String) : Option Key := all.find? (·.text == s)

/-- No setting is called `s`. -/
def unknown (s : String) : Failure :=
  .rule ("Unknown config key: " ++ s ++ ". Use 'lt config list' to see available keys.")

/-- The key typed as `s`, or the failure to find one. -/
def parse (s : String) : Except Failure Key :=
  match ofText? s with
  | some k => .ok k
  | none => .error (unknown s)

end Key

/-- A setting as text. A list of directories that cannot be joined is shown as if it were empty. -/
def get (c : Config) : Key → String
  | .debounceMs => toString c.session.debounceMs
  | .killGraceMs => toString c.session.killGraceMs
  | .interpreter => c.tracer.interpreter
  | .module => c.tracer.module
  | .searchPath => ((SearchPath.join? c.tracer.searchPath).map Utf8.lossy).getD ""
  | .level => c.log.level
  | .logFile => (c.log.file.map Path.display).getD ""

/-- The number of milliseconds in a text. -/
def parseMs (value : String) : Except Failure Nat :=
  match Text.parseWord value with
  | .ok n => .ok n
  | .error e => .error ⟨["Invalid value: must be a positive integer"], .natural e⟩

/-- The settings with one of them taken from a text. Nothing is checked beyond the form of numbers. -/
def set (c : Config) (k : Key) (value : String) : Except Failure Config :=
  match k with
  | .debounceMs => (parseMs value).map fun n => { c with session.debounceMs := n }
  | .killGraceMs => (parseMs value).map fun n => { c with session.killGraceMs := n }
  | .interpreter => .ok { c with tracer.interpreter := value }
  | .module => .ok { c with tracer.module := value }
  | .searchPath =>
    .ok { c with tracer.searchPath := if value = "" then [] else SearchPath.split (Bytes.ofString value) }
  | .level => .ok { c with log.level := Text.lowercase value }
  | .logFile => .ok { c with log.file := if value = "" then none else some (Path.ofString value) }

end Config

end Retrace
