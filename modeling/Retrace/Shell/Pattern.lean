import Retrace.Shell.Syntax

/-!
# Patterns

Shell patterns, in which quoted characters stand for themselves.
-/

namespace Retrace.Shell

/-- A character with a mark when it was quoted. -/
abbrev Marked := List (Char × Bool)

/-- A class between brackets. -/
structure CharClass where
  negated : Bool
  ranges : List (Char × Char)
  deriving DecidableEq, Repr

def CharClass.holds (k : CharClass) (c : Char) : Bool :=
  k.ranges.any (fun (lo, hi) => lo ≤ c && c ≤ hi) != k.negated

/-- The ranges of a class that has a name. -/
def namedRanges (name : Raw) : List (Char × Char) :=
  match String.ofList name with
  | "upper" => [('A', 'Z')]
  | "lower" => [('a', 'z')]
  | "digit" => [('0', '9')]
  | "alpha" => [('A', 'Z'), ('a', 'z')]
  | "alnum" => [('0', '9'), ('A', 'Z'), ('a', 'z')]
  | "space" => [('\t', '\r'), (' ', ' ')]
  | "blank" => [('\t', '\t'), (' ', ' ')]
  | "punct" => [('!', '/'), (':', '@'), ('[', '\x60'), ('\x7b', '~')]
  | "xdigit" => [('0', '9'), ('A', 'F'), ('a', 'f')]
  | "cntrl" => [('\x00', '\x1f'), ('\x7f', '\x7f')]
  | "print" => [(' ', '~')]
  | "graph" => [('!', '~')]
  | _ => []

/-- The name of a class up to `:]`. -/
def className : Raw → Raw → Option (Raw × Raw)
  | acc, ':' :: ']' :: cs => some (acc.reverse, cs)
  | acc, c :: cs => className (c :: acc) cs
  | _, [] => none

/-- The ranges up to the closing bracket. -/
def classRanges : Nat → List (Char × Char) → Raw → Option (List (Char × Char) × Raw)
  | 0, _, _ => none
  | fuel + 1, acc, cs =>
    match cs with
    | [] => none
    | '[' :: ':' :: cs =>
      match className [] cs with
      | some (name, cs) => classRanges fuel (namedRanges name ++ acc) cs
      | none => classRanges fuel ((':', ':') :: ('[', '[') :: acc) cs
    | c :: '-' :: d :: cs =>
      if c = ']' ∧ acc ≠ [] then some (acc, '-' :: d :: cs)
      else if d = ']' then some (('-', '-') :: (c, c) :: acc, cs)
      else classRanges fuel ((c, d) :: acc) cs
    | c :: cs => if c = ']' ∧ acc ≠ [] then some (acc, cs) else classRanges fuel ((c, c) :: acc) cs

/-- The class after an opening bracket. -/
def charClass (cs : Raw) : Option (CharClass × Raw) :=
  match cs with
  | '!' :: cs | '^' :: cs => (classRanges (cs.length + 1) [] cs).map fun (rs, cs) => (⟨true, rs⟩, cs)
  | cs => (classRanges (cs.length + 1) [] cs).map fun (rs, cs) => (⟨false, rs⟩, cs)

/-- An item of a shell pattern. -/
inductive Glob where
  | exact (c : Char)
  | any
  | many
  | oneOf (k : CharClass)
  deriving DecidableEq, Repr

/-- The items of a pattern. -/
def globItems : Nat → Marked → List Glob
  | 0, _ => []
  | fuel + 1, cs =>
    match cs with
    | [] => []
    | (c, true) :: cs => .exact c :: globItems fuel cs
    | ('*', _) :: cs => .many :: globItems fuel cs
    | ('?', _) :: cs => .any :: globItems fuel cs
    | ('[', _) :: cs =>
      match charClass (cs.map (·.1)) with
      | some (k, rest) => .oneOf k :: globItems fuel (cs.drop (cs.length - rest.length))
      | none => .exact '[' :: globItems fuel cs
    | ('\\', _) :: (c, _) :: cs => .exact c :: globItems fuel cs
    | (c, _) :: cs => .exact c :: globItems fuel cs

/-- All of a text fits the items. -/
def globFits : List Glob → Raw → Bool
  | [], cs => cs.isEmpty
  | .many :: gs, [] => globFits gs []
  | .many :: gs, c :: cs => globFits gs (c :: cs) || globFits (.many :: gs) cs
  | .exact d :: gs, c :: cs => c == d && globFits gs cs
  | .any :: gs, _ :: cs => globFits gs cs
  | .oneOf k :: gs, c :: cs => k.holds c && globFits gs cs
  | _ :: _, [] => false
termination_by gs cs => (cs.length, gs.length)

/-- All of a text fits a pattern. -/
def fits (pattern : Marked) (cs : Raw) : Bool := globFits (globItems (pattern.length + 1) pattern) cs

/-- The pattern holds a character that is special in it. -/
def hasWildcard (pattern : Marked) : Bool := pattern.any fun (c, q) => !q && (c == '*' || c == '?' || c == '[')

end Retrace.Shell
