import Retrace.Config.Basic
import Retrace.Toml.Document
import Retrace.Toml.Written

/-!
# Settings as text

Settings are read from a document by laying what it sets over the defaults; keys that mean nothing here are passed
over. A section may be a table or a list of its values in order.
-/

namespace Retrace.Config

open Toml (Entries)

/-- A natural number. -/
def natural? : Toml.Node → Option Nat
  | .integer i => if 0 ≤ i then some i.toNat else none
  | _ => none

def text? : Toml.Node → Option String
  | .text s => some s
  | _ => none

def path? (v : Toml.Node) : Option Path := (text? v).map Path.ofString

def paths? : Toml.Node → Option (List Path)
  | .array vs => vs.mapM path?
  | _ => none

/-- A section: what it sets by name, or the list of its values. A date is a section that sets nothing. -/
def section? : Toml.Node → Option (Entries ⊕ List Toml.Node)
  | .table _ es => some (.inl es)
  | .array vs => some (.inr vs)
  | .tables each => some (.inr (each.map (.table .header)))
  | .moment => some (.inl [])
  | _ => none

/-- The value set for the field with this name and place in its section, if there is one. -/
def field? (s : Entries ⊕ List Toml.Node) (name : String) (place : Nat) : Option Toml.Node :=
  match s with
  | .inl es => es.get? name
  | .inr vs => vs[place]?

/-- The value of a field, or `d` where it is not set; `none` for a value of the wrong kind. -/
def fieldOr {α : Type} (s : Entries ⊕ List Toml.Node) (name : String) (place : Nat)
    (read : Toml.Node → Option α) (d : α) :
    Option α :=
  match field? s name place with
  | none => some d
  | some v => read v

def session? (v : Toml.Node) : Option SessionSettings := do
  let s ← section? v
  let d : SessionSettings := {}
  let debounceMs ← fieldOr s "debounce_ms" 0 natural? d.debounceMs
  let killGraceMs ← fieldOr s "kill_grace_ms" 1 natural? d.killGraceMs
  return { debounceMs, killGraceMs }

def tracer? (v : Toml.Node) : Option TracerSettings := do
  let s ← section? v
  let d : TracerSettings := {}
  let interpreter ← fieldOr s "interpreter" 0 text? d.interpreter
  let module ← fieldOr s "module" 1 text? d.module
  let searchPath ← fieldOr s "search_path" 2 paths? d.searchPath
  return { interpreter, module, searchPath }

def log? (v : Toml.Node) : Option LogSettings := do
  let s ← section? v
  let d : LogSettings := {}
  let level ← fieldOr s "level" 0 text? d.level
  let file ← fieldOr s "file" 1 (fun v => (path? v).map some) d.file
  return { level, file }

/-- The settings of a document. -/
def ofEntries? (es : Entries) : Option Config := do
  let session ← fieldOr (.inl es) "session" 0 session? {}
  let tracer ← fieldOr (.inl es) "tracer" 1 tracer? {}
  let log ← fieldOr (.inl es) "log" 2 log? {}
  return { session, tracer, log }

/-- The settings that a text stands for, whether or not they keep the rules. -/
def read? (s : String) : Option Config := (Toml.read? s).bind ofEntries?

open Toml.Written in
/-- The text of settings whose paths are texts. -/
def write (c : Config) (searchPath : List String) (file : Option String) : List Char :=
  header "session" ++
    assignment "debounce_ms" (natural c.session.debounceMs) ++
    assignment "kill_grace_ms" (natural c.session.killGraceMs) ++ '\n' ::
  header "tracer" ++
    assignment "interpreter" (text c.tracer.interpreter.toList) ++
    assignment "module" (text c.tracer.module.toList) ++
    assignment "search_path" (texts (searchPath.map String.toList)) ++ '\n' ::
  header "log" ++
    assignment "level" (text c.log.level.toList) ++
    (match file with
      | some f => assignment "file" (text f.toList)
      | none => [])

/-- The text of an optional path; a missing one has none. -/
def fileText? : Option Path → Option (Option String)
  | none => some none
  | some p => (Utf8.decode? p.raw).map some

/-- The text that settings are saved as; there is none when a path is no text. -/
def toText? (c : Config) : Option String := do
  let searchPath ← c.tracer.searchPath.mapM fun p => Utf8.decode? p.raw
  let file ← fileText? c.log.file
  return String.ofList (c.write searchPath file)

/-- An annotated text that stands for the defaults. -/
def exampleText : String :=
"# livetrace configuration

[session]
# Quiet period after the last edit before the tracer runs (10-10000)
debounce_ms = 300
# Grace period for a cancelled tracer to exit before it is killed (10-30000)
kill_grace_ms = 500

[tracer]
interpreter = \"python3\"
module = \"code_tracer\"
# Directories prepended to PYTHONPATH
search_path = []

[log]
# trace, debug, info, warn or error
level = \"info\"
# file = \"/tmp/livetrace.log\"
"

end Retrace.Config
