import Retrace.Toml.Quoted

/-!
# Writing values of settings

A text is written in the plainest form that can hold it; a list of two or more stands on lines of its own.
-/

namespace Retrace.Toml.Written

/-- A character that only an escape can express. -/
def needsEscape (c : Char) : Bool := (c < ' ' && c != '\n') || c == Char.ofNat 0x7F

/-- The longest run of `q` in the text; `run` is the length of the run that ends before it. -/
def longestRun (q : Char) (run : Nat) : List Char → Nat
  | [] => run
  | c :: cs => if c = q then longestRun q (run + 1) cs else max run (longestRun q 0 cs)

/-- The forms of a text. -/
inductive Form where
  | basic
  | literal
  | multiBasic
  | multiLiteral
  | escaped
  | multiEscaped
  deriving DecidableEq, Repr

/-- The first form that can hold the text as it is; else escapes are used. -/
def form (cs : List Char) : Form :=
  let codes := cs.any needsEscape
  let breaks := cs.contains '\n'
  let slashes := cs.contains '\\'
  if !codes && !slashes && !breaks && !cs.contains '"' then .basic
  else if !codes && !breaks && !cs.contains '\'' then .literal
  else if !codes && !slashes && longestRun '"' 0 cs ≤ 2 then .multiBasic
  else if !codes && longestRun '\'' 0 cs ≤ 2 then .multiLiteral
  else if breaks then .multiEscaped
  else .escaped

def hexDigit (n : Nat) : Char := Char.ofNat (if n < 10 then 48 + n else 55 + n)

/-- The escape of a character other than a quote or a newline, if it needs one. -/
def escape (c : Char) : List Char :=
  if c = Char.ofNat 8 then ['\\', 'b']
  else if c = '\t' then ['\\', 't']
  else if c = Char.ofNat 12 then ['\\', 'f']
  else if c = '\r' then ['\\', 'r']
  else if c = '\\' then ['\\', '\\']
  else if needsEscape c then ['\\', 'u', '0', '0', hexDigit (c.toNat / 16), hexDigit (c.toNat % 16)]
  else [c]

/-- The body of a text on one line. -/
def escapedBody : List Char → List Char
  | [] => []
  | c :: cs =>
    (if c = '"' then ['\\', '"'] else if c = '\n' then ['\\', 'n'] else escape c) ++ escapedBody cs

/-- The body of a text over several lines; `run` quotes stand right before it, and a third one is escaped. -/
def multiEscapedBody (run : Nat) : List Char → List Char
  | [] => []
  | c :: cs =>
    if c = '"' then
      if run = 2 then '\\' :: '"' :: multiEscapedBody 0 cs else '"' :: multiEscapedBody (run + 1) cs
    else if c = '\n' then '\n' :: multiEscapedBody 0 cs
    else escape c ++ multiEscapedBody 0 cs

/-- The newline after the opening quotes, which keeps a text with line breaks apart from them. -/
def opening (cs : List Char) : List Char := if cs.contains '\n' then ['\n'] else []

def threeQuotes : List Char := ['"', '"', '"']
def threeMarks : List Char := ['\'', '\'', '\'']

/-- A text in its form. -/
def text (cs : List Char) : List Char :=
  match form cs with
  | .basic => '"' :: cs ++ ['"']
  | .literal => '\'' :: cs ++ ['\'']
  | .multiBasic => threeQuotes ++ opening cs ++ cs ++ threeQuotes
  | .multiLiteral => threeMarks ++ opening cs ++ cs ++ threeMarks
  | .escaped => '"' :: escapedBody cs ++ ['"']
  | .multiEscaped => threeQuotes ++ opening cs ++ multiEscapedBody 0 cs ++ threeQuotes

/-- A list of texts. -/
def texts : List (List Char) → List Char
  | [] => ['[', ']']
  | [t] => '[' :: text t ++ [']']
  | ts => '[' :: '\n' :: ts.flatMap (fun t => [' ', ' ', ' ', ' '] ++ text t ++ [',', '\n']) ++ [']']

/-- A line that gives `key` the written value `v`. -/
def assignment (key : String) (v : List Char) : List Char := key.toList ++ [' ', '=', ' '] ++ v ++ ['\n']

/-- The header of a table. -/
def header (name : String) : List Char := '[' :: name.toList ++ [']', '\n']

/-- A natural number. -/
def natural (n : Nat) : List Char := (toString n).toList

end Retrace.Toml.Written
