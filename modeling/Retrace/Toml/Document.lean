import Retrace.Toml.Quoted

/-!
# Reading documents of settings

A document is a sequence of lines: assignments, headers, comments and blank lines. Values in brackets nest at most
79 deep, and a key or header has at most 79 segments.
-/

namespace Retrace.Toml

/-- How deep values nest, and how many segments a key has, at most. -/
def maxDepth : Nat := 79

/-- The text without blanks at its front. -/
def skipSpace (cs : List Char) : List Char := cs.dropWhile Quoted.isSpace

/-- The text without a comment at its front. -/
def skipComment : List Char → List Char
  | '#' :: rest => rest.dropWhile Quoted.isPlain
  | rest => rest

/-- The end of a line: blanks, perhaps a comment, and a line break or the end of the text. -/
def lineEnd (cs : List Char) : Option (List Char) :=
  match skipComment (skipSpace cs) with
  | [] => some []
  | '\n' :: rest => some rest
  | '\r' :: '\n' :: rest => some rest
  | _ => none

def isKeyChar (c : Char) : Bool := c.isAlphanum || c == '_' || c == '-'

/-- One segment of a key: bare, or quoted on one line. -/
def keySegment : Reader String := fun cs =>
  match cs with
  | '"' :: _ | '\'' :: _ => (Quoted.simple cs).map fun (k, rest) => (String.ofList k, rest)
  | _ =>
    let k := cs.takeWhile isKeyChar
    if k = [] then none else some (String.ofList k, cs.dropWhile isKeyChar)

/-- Segments with dots between and blanks around, at most `fuel` of them. -/
def keySegments : Nat → Reader (List String)
  | 0, _ => none
  | fuel + 1, cs =>
    match keySegment (skipSpace cs) with
    | none => none
    | some (k, rest) =>
      match skipSpace rest with
      | '.' :: rest => (keySegments fuel rest).map fun (ks, rest) => (k :: ks, rest)
      | rest => some ([k], rest)

/-- A key: the path to its table, and its last segment. -/
def key : Reader (List String × String) := fun cs =>
  match keySegments maxDepth cs with
  | some (ks, rest) => ks.getLast?.map fun k => ((ks.dropLast, k), rest)
  | none => none

/-- Blanks, line breaks and comments inside brackets. `fuel` bounds the number of comments. -/
def skipBlankLines : Nat → List Char → List Char
  | 0, cs => cs
  | fuel + 1, cs =>
    match skipSpace cs with
    | '#' :: rest => skipBlankLines fuel (rest.dropWhile Quoted.isPlain)
    | '\n' :: rest => skipBlankLines fuel rest
    | '\r' :: '\n' :: rest => skipBlankLines fuel rest
    | cs => cs

/-- The values of an array after its opening bracket, commas between and perhaps one at the end. -/
def arrayItems (value : Reader Node) : Nat → Reader (List Node)
  | 0, _ => none
  | fuel + 1, cs =>
    match skipBlankLines cs.length cs with
    | ']' :: rest => some ([], rest)
    | cs =>
      match value cs with
      | none => none
      | some (v, rest) =>
        match skipBlankLines rest.length rest with
        | ',' :: rest => (arrayItems value fuel rest).map fun (vs, rest) => (v :: vs, rest)
        | ']' :: rest => some ([v], rest)
        | _ => none

/-- A key, its equals sign and a value. -/
def assignment (value : Reader Node) : Reader (List String × String × Node) := fun cs =>
  match key cs with
  | some ((path, k), '=' :: rest) => (value (skipSpace rest)).map fun (v, rest) => ((path, k, v), rest)
  | _ => none

/-- The assignments of a table in braces after its first one, up to the closing brace. -/
def inlineRest (value : Reader Node) : Nat → Reader (List (List String × String × Node))
  | 0, _ => none
  | fuel + 1, cs =>
    match skipSpace cs with
    | '}' :: rest => some ([], rest)
    | ',' :: rest =>
      match assignment value rest with
      | none => none
      | some (a, rest) => (inlineRest value fuel rest).map fun (as, rest) => (a :: as, rest)
    | _ => none

/-- The assignments of a table in braces, after its opening brace. -/
def inlineItems (value : Reader Node) : Reader (List (List String × String × Node)) := fun cs =>
  match skipSpace cs with
  | '}' :: rest => some ([], rest)
  | _ =>
    match assignment value cs with
    | none => none
    | some (a, rest) => (inlineRest value (rest.length + 1) rest).map fun (as, rest) => (a :: as, rest)

/-- The entries of a table in braces. -/
def inlineTable? (as : List (List String × String × Node)) : Option Node :=
  (as.foldlM (fun es (path, k, v) => Entries.addDotted? k v path path.isEmpty false es) []).map (.table .inline)

/-- A value with at most `depth` brackets around its innermost parts. -/
def value : Nat → Reader Node
  | depth, cs =>
    match cs with
    | '"' :: _ | '\'' :: _ => (Quoted.text cs).map fun (s, rest) => (.text (String.ofList s), rest)
    | '[' :: rest =>
      match depth with
      | 0 => none
      | depth + 1 => (arrayItems (value depth) (rest.length + 1) rest).map fun (vs, rest) => (.array vs, rest)
    | '{' :: rest =>
      match depth with
      | 0 => none
      | depth + 1 =>
        match inlineItems (value depth) rest with
        | none => none
        | some (as, rest) => (inlineTable? as).map (·, rest)
    | c :: _ => if c = '+' ∨ c = '-' ∨ Scalar.isDigit c then Scalar.numeric cs else Scalar.word cs
    | [] => none

/-- The closing of a header and the end of its line. -/
def closeHeader : Nat → List Char → Option (List Char)
  | 0, cs => lineEnd cs
  | n + 1, ']' :: rest => closeHeader n rest
  | _, _ => none

/-- A line that starts with something else than a comment or a line break. -/
def line : Reader Line := fun cs =>
  match cs with
  | '[' :: '[' :: rest =>
    match key rest with
    | some ((path, k), rest) => (closeHeader 2 rest).map (.arrayHeader path k, ·)
    | none => none
  | '[' :: rest =>
    match key rest with
    | some ((path, k), rest) => (closeHeader 1 rest).map (.header path k, ·)
    | none => none
  | _ =>
    match assignment (value maxDepth) cs with
    | some ((path, k, v), rest) => (lineEnd rest).map (.assign path k v, ·)
    | none => none

/-- The lines of a text; `fuel` bounds their number. -/
def lines : Nat → List Char → Option (List Line)
  | 0, _ => none
  | fuel + 1, cs =>
    match skipSpace cs with
    | [] => some []
    | '#' :: rest => (lineEnd ('#' :: rest)).bind (lines fuel)
    | '\n' :: rest => lines fuel rest
    | '\r' :: '\n' :: rest => lines fuel rest
    | cs =>
      match line cs with
      | none => none
      | some (l, rest) => (lines fuel rest).map (l :: ·)

/-- A byte order mark at the front says nothing. -/
def dropMark : List Char → List Char
  | c :: rest => if c = Char.ofNat 0xFEFF then rest else c :: rest
  | [] => []

/-- The entries that a text stands for. -/
def read? (s : String) : Option Entries :=
  let cs := dropMark s.toList
  (lines (cs.length + 1) cs).bind ofLines?

end Retrace.Toml
