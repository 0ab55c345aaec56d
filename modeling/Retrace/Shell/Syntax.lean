/-!
# Shell commands

The commands of a shell script, read from its text. A script is a list of bytes, each written as the character with
its number.
-/

namespace Retrace.Shell

/-- Bytes as characters, one for each. -/
abbrev Raw := List Char

/-- What `${name…}` asks for besides the value. -/
inductive ParamOp where
  | plain
  | length
  /-- Another value when there is none, or an empty one when `colon`. -/
  | orDefault (colon : Bool)
  | orAssign (colon : Bool)
  | orFail (colon : Bool)
  /-- Another value when there is one. -/
  | alternative (colon : Bool)
  | dropEnd (longest : Bool)
  | dropStart (longest : Bool)
  /-- Something that cannot be asked for. -/
  | malformed
  deriving DecidableEq, Repr

/-- Where a redirection leads. -/
inductive RedirectKind where
  | read
  | write
  /-- Also over a file that is there, whatever the shell is told about that. -/
  | overwrite
  | append
  | readWrite
  | duplicate
  /-- The text itself is read. -/
  | here
  deriving DecidableEq, Repr

mutual

/-- A part of a word. -/
inductive Part where
  | text (cs : Raw) (quoted : Bool)
  | param (name : Raw) (quoted : Bool) (op : ParamOp) (arg : List Part)
  | command (body : Command) (quoted : Bool)
  | arith (expr : List Part) (quoted : Bool)

/-- A redirection of a descriptor. -/
inductive Redirect where
  | mk (fd : Nat) (kind : RedirectKind) (target : List Part)

/-- A command. Some bear the number of the line that they stand on. -/
inductive Command where
  | nothing
  | simple (line : Nat) (assigns : List (Raw × List Part)) (words : List (List Part)) (redirects : List Redirect)
  | pipe (stages : List Command)
  | negate (c : Command)
  | andThen (c d : Command)
  | orElse (c d : Command)
  | seq (c d : Command)
  | background (c : Command)
  | subshell (line : Nat) (c : Command)
  | redirected (line : Nat) (c : Command) (redirects : List Redirect)
  | ifThen (cond yes no : Command)
  | loop (negated : Bool) (cond body : Command)
  | forIn (line : Nat) (name : Raw) (words : Option (List (List Part))) (body : Command)
  | caseOf (line : Nat) (word : List Part) (arms : List (List (List Part) × Command))
  | function (name : Raw) (body : Command)

end

instance : Inhabited Command := ⟨.nothing⟩

/-- A word. -/
abbrev Word := List Part

/-- The text of a word that is not expanded. -/
def Word.literal : Word → Raw
  | .text cs _ :: ps => cs ++ literal ps
  | _ :: ps => literal ps
  | [] => []

/-- The characters of a word of which nothing is quoted and nothing is expanded. -/
def Word.bare? : Word → Option Raw
  | [.text cs false] => some cs
  | _ => none

end Retrace.Shell
