import Retrace.Json.Quoted
import Retrace.Json.Scan
import Retrace.Path.Basic

/-!
# Contents of lock files

A lock file says who holds the lock. It is one JSON record; readers also take the three values as a list, and pass
over members they do not know.
-/

namespace Retrace.Lock

open Json (Rest skipBlanks)

/-- Who holds a lock: a process, since when in milliseconds, and for which source file. -/
structure Content where
  pid : Nat
  startedAt : Nat
  source : Path
  deriving DecidableEq, Repr

namespace Content

def pidBound : Nat := UInt32.size
def timeBound : Nat := UInt64.size

/-- The record of a holder whose source file has this name. -/
def render (c : Content) (name : String) : List Char :=
  "\x7b\"pid\":".toList ++ (toString c.pid).toList ++ ",\"started_at\":".toList ++ (toString c.startedAt).toList ++
    ",\"source\":".toList ++ Json.quote name.toList ++ ['\x7d']

/-- The record; there is none when the name of the source file is no text. -/
def toText? (c : Content) : Option String :=
  (Utf8.decode? c.source.raw).map fun name => String.ofList (c.render name)

/-- The members read so far. -/
structure Partial where
  pid : Option Nat := none
  startedAt : Option Nat := none
  source : Option (List Char) := none

/-- The record, when no member is missing. -/
def Partial.content? (p : Partial) : Option Content := do
  let pid ← p.pid
  let startedAt ← p.startedAt
  let source ← p.source
  return ⟨pid, startedAt, .ofString (String.ofList source)⟩

/-- Read the value of the member called `key`. A known member comes once, an unknown one is passed over. -/
def member? (key : List Char) (p : Partial) (cs : Rest) : Option (Partial × Rest) :=
  if key = "pid".toList then
    if p.pid.isSome then none
    else (Json.natural? pidBound (skipBlanks cs)).map fun (n, cs) => ({ p with pid := some n }, cs)
  else if key = "started_at".toList then
    if p.startedAt.isSome then none
    else (Json.natural? timeBound (skipBlanks cs)).map fun (n, cs) => ({ p with startedAt := some n }, cs)
  else if key = "source".toList then
    if p.source.isSome then none
    else (Json.string? (skipBlanks cs)).map fun (s, cs) => ({ p with source := some s }, cs)
  else (Json.skipValue? (2 * cs.length + 2) cs).map fun cs => (p, cs)

/-- The members up to the end of the record; `fuel` bounds their number. -/
def members? : Nat → Partial → Rest → Option (Content × Rest)
  | 0, _, _ => none
  | fuel + 1, p, cs => do
    let (key, cs) ← Json.string? (skipBlanks cs)
    match skipBlanks cs with
    | ':' :: cs =>
      let (p, cs) ← member? key p cs
      match skipBlanks cs with
      | ',' :: cs => members? fuel p cs
      | '\x7d' :: cs => (p.content?).map fun c => (c, cs)
      | _ => none
    | _ => none

/-- The text after `c` and the blanks before it. -/
def after? (c : Char) (cs : Rest) : Option Rest :=
  match skipBlanks cs with
  | d :: cs => if d = c then some cs else none
  | [] => none

/-- The three values up to the end of the list. -/
def items? (cs : Rest) : Option (Content × Rest) := do
  let (pid, cs) ← Json.natural? pidBound (skipBlanks cs)
  let cs ← after? ',' cs
  let (startedAt, cs) ← Json.natural? timeBound (skipBlanks cs)
  let cs ← after? ',' cs
  let (source, cs) ← Json.string? (skipBlanks cs)
  let cs ← after? ']' cs
  return (⟨pid, startedAt, .ofString (String.ofList source)⟩, cs)

/-- The holder that a text names. -/
def parse? (s : String) : Option Content := do
  let (c, cs) ← match skipBlanks s.toList with
    | '\x7b' :: cs => members? (cs.length + 1) {} cs
    | '[' :: cs => items? cs
    | _ => none
  if skipBlanks cs = [] then return c else none

/-- The holder that the bytes of a file name. -/
def ofBytes? (bs : Bytes) : Option Content := (Utf8.decode? bs).bind parse?

end Content

end Retrace.Lock
