import Retrace.Shell.Pattern

/-!
# Regular expressions

The regular expressions of the text tools, basic and extended ones. Of the matches in a text the first one counts, and of
those that begin there the longest one.
-/

namespace Retrace.Shell

/-- A regular expression. -/
inductive Regex where
  | nothing
  | exact (c : Char)
  | any
  | oneOf (k : CharClass)
  | lineStart
  | lineEnd
  /-- Between a character of a word and another one; `opens` and `closes` say whether a word may begin or end there. -/
  | edge (opens closes : Bool)
  | noEdge
  /-- No character of a word stands before, or after. -/
  | noWord (before : Bool)
  | both (a b : Regex)
  | either (a b : Regex)
  | repeated (r : Regex) (least : Nat) (most : Option Nat)
  | group (n : Nat) (r : Regex)
  /-- What the group has matched. -/
  | same (n : Nat)
  deriving Repr, Inhabited

/-- What is wrong with an expression. -/
inductive RegexFault where
  | unmatchedParen
  | unmatchedCloseParen
  | unmatchedBracket
  | unmatchedBrace
  | badBrace
  | badReference
  | trailingBackslash
  | badRange
  | badClassName
  | tooBig
  | badPreceding
  deriving DecidableEq, Repr

/-- The wording of a fault. -/
def RegexFault.message : RegexFault → String
  | .unmatchedParen => "Unmatched ( or \\("
  | .unmatchedCloseParen => "Unmatched ) or \\)"
  | .unmatchedBracket => "Unmatched [, [^, [:, [., or [="
  | .unmatchedBrace => "Unmatched \\\x7b"
  | .badBrace => "Invalid content of \\\x7b\\\x7d"
  | .badReference => "Invalid back reference"
  | .trailingBackslash => "Trailing backslash"
  | .badRange => "Invalid range end"
  | .badClassName => "Invalid character class name"
  | .tooBig => "Regular expression too big"
  | .badPreceding => "Invalid preceding regular expression"

namespace Regex

/-! ## Reading -/

/-- The ranges of a class up to its closing bracket. -/
def ranges : Nat → Bool → List (Char × Char) → Raw → Except RegexFault (List (Char × Char) × Raw)
  | 0, _, _, _ => .error .unmatchedBracket
  | fuel + 1, isFirst, acc, cs =>
    let single : Raw → Option (Char × Raw) := fun
      | '[' :: m :: c :: n :: ']' :: rest => if (m = '.' ∨ m = '=') ∧ n = m then some (c, rest) else some ('[', m :: c :: n :: ']' :: rest)
      | c :: rest => some (c, rest)
      | [] => none
    match cs with
    | [] => .error .unmatchedBracket
    | '[' :: ':' :: rest =>
      match className [] rest with
      | none => .error .unmatchedBracket
      | some (name, rest) =>
        let named := namedRanges name
        if named.isEmpty then .error .badClassName else ranges fuel false (named ++ acc) rest
    | c :: rest =>
      if c = ']' ∧ !isFirst then .ok (acc, rest)
      else
        match single (c :: rest) with
        | none => .error .unmatchedBracket
        | some (lo, '-' :: rest) =>
          if rest.head? = some ']' then ranges fuel false ((lo, lo) :: acc) ('-' :: rest)
          else
            match single rest with
            | none => .error .unmatchedBracket
            | some (hi, rest) => if hi < lo then .error .badRange else ranges fuel false ((lo, hi) :: acc) rest
        | some (d, rest) => ranges fuel false ((d, d) :: acc) rest

/-- The class after an opening bracket. -/
def bracket (cs : Raw) : Except RegexFault (CharClass × Raw) := do
  let negated := cs.head? = some '^'
  let (rs, rest) ← ranges (cs.length + 1) true [] (if negated then cs.drop 1 else cs)
  return (⟨negated, rs⟩, rest)

/-- The characters of words. -/
def wordClass (negated : Bool) : CharClass := ⟨negated, ('_', '_') :: namedRanges "alnum".toList⟩

/-- How often a part is repeated that is followed by a text: least, most, and the text after that. -/
def bounds (cs : Raw) : Option (Nat × Option Nat × Raw) :=
  let number (cs : Raw) : Option Nat × Raw :=
    let ds := cs.takeWhile Char.isDigit
    (if ds = [] then none else some (ds.foldl (fun n d => n * 10 + (d.toNat - '0'.toNat)) 0), cs.drop ds.length)
  let (least, rest) := number cs
  match rest with
  | ',' :: rest =>
    let (most, rest) := number rest
    some (least.getD 0, most, rest)
  | rest => least.map fun n => (n, some n, rest)

/-- How far the reading has come: the number of groups that have begun, those that have ended, and how many are open. -/
structure Reading where
  begun : Nat := 0
  ended : List Nat := []
  deriving Repr

mutual

/-- Alternatives up to the end or a closing parenthesis. -/
def readAny (extended : Bool) (depth : Nat) : Nat → Raw → Reading → Except RegexFault (Regex × Raw × Reading)
  | 0, _, _ => .error .tooBig
  | fuel + 1, cs, s => do
    let (a, rest, s) ← readAll extended depth true .nothing fuel cs s
    match extended, rest with
    | true, '|' :: rest =>
      let (b, rest, s) ← readAny extended depth fuel rest s
      return (.either a b, rest, s)
    | false, '\\' :: '|' :: rest =>
      let (b, rest, s) ← readAny extended depth fuel rest s
      return (.either a b, rest, s)
    | _, rest => return (a, rest, s)

/-- The parts of an alternative after `before`; `isFirst` says that none has been read but anchors. -/
def readAll (extended : Bool) (depth : Nat) (isFirst : Bool) (before : Regex) :
    Nat → Raw → Reading → Except RegexFault (Regex × Raw × Reading)
  | 0, _, _ => .error .tooBig
  | fuel + 1, cs, s =>
    let part (r : Regex) (rest : Raw) (s : Reading) : Except RegexFault (Regex × Raw × Reading) := do
      let (r, rest) ← readRepeats extended fuel r rest
      readAll extended depth false (.both before r) fuel rest s
    let anchor (r : Regex) (rest : Raw) : Except RegexFault (Regex × Raw × Reading) :=
      readAll extended depth isFirst (.both before r) fuel rest s
    let groupFrom (rest : Raw) : Except RegexFault (Regex × Raw × Reading) := do
      let n := s.begun + 1
      let (r, rest, s) ← readAny extended (depth + 1) fuel rest { s with begun := n }
      match extended, rest with
      | true, ')' :: rest => part (.group n r) rest { s with ended := n :: s.ended }
      | false, '\\' :: ')' :: rest => part (.group n r) rest { s with ended := n :: s.ended }
      | _, _ => .error .unmatchedParen
    match cs with
    | [] => .ok (before, [], s)
    | ['\\'] => .error .trailingBackslash
    | '\\' :: c :: rest =>
      if !extended ∧ c = '|' then .ok (before, cs, s)
      else if !extended ∧ c = ')' then if depth = 0 then .error .unmatchedCloseParen else .ok (before, cs, s)
      else if !extended ∧ c = '(' then groupFrom rest
      else if !extended ∧ c = '\x7b' then if isFirst then .error .badPreceding else part (.exact c) rest s
      else if '1' ≤ c ∧ c ≤ '9' then
        let n := c.toNat - '0'.toNat
        if s.ended.contains n then part (.same n) rest s else .error .badReference
      else
        match c with
        | 'w' => part (.oneOf (wordClass false)) rest s
        | 'W' => part (.oneOf (wordClass true)) rest s
        | 's' => part (.oneOf ⟨false, namedRanges "space".toList⟩) rest s
        | 'S' => part (.oneOf ⟨true, namedRanges "space".toList⟩) rest s
        | '<' => anchor (.edge true false) rest
        | '>' => anchor (.edge false true) rest
        | 'b' => anchor (.edge true true) rest
        | 'B' => anchor .noEdge rest
        | '\x60' => anchor .lineStart rest
        | '\'' => anchor .lineEnd rest
        | c => part (.exact c) rest s
    | '.' :: rest => part .any rest s
    | '[' :: rest => do
      let (k, rest) ← bracket rest
      part (.oneOf k) rest s
    | '*' :: rest => if !isFirst then part (.exact '*') rest s
      else if extended then readAll extended depth true before fuel rest s
      else part (.exact '*') rest s
    | '^' :: rest => if extended ∨ isFirst then anchor .lineStart rest else part (.exact '^') rest s
    | '$' :: rest =>
      let isLast : Bool := match rest with
        | [] | '\\' :: ')' :: _ | '\\' :: '|' :: _ => true
        | _ => false
      if extended ∨ isLast then anchor .lineEnd rest else part (.exact '$') rest s
    | c :: rest =>
      if !extended then part (.exact c) rest s
      else if c = '|' then .ok (before, cs, s)
      else if c = ')' then if depth = 0 then part (.exact ')') rest s else .ok (before, cs, s)
      else if c = '(' then groupFrom rest
      else if (c = '+' ∨ c = '?') ∧ isFirst then readAll extended depth true before fuel rest s
      else part (.exact c) rest s

/-- A part with the signs after it that repeat it. -/
def readRepeats (extended : Bool) : Nat → Regex → Raw → Except RegexFault (Regex × Raw)
  | 0, _, _ => .error .tooBig
  | fuel + 1, r, cs =>
    let often (least : Nat) (most : Option Nat) (rest : Raw) : Except RegexFault (Regex × Raw) :=
      readRepeats extended fuel (.repeated r least most) rest
    match extended, cs with
    | _, '*' :: rest => often 0 none rest
    | true, '+' :: rest => often 1 none rest
    | true, '?' :: rest => often 0 (some 1) rest
    | false, '\\' :: '+' :: rest => often 1 none rest
    | false, '\\' :: '?' :: rest => often 0 (some 1) rest
    | true, '\x7b' :: rest =>
      match bounds rest with
      | some (least, most, '\x7d' :: rest) =>
        if (most.map fun n => decide (n < least)).getD false then .error .badBrace
        else if 32767 < max least (most.getD 0) then .error .tooBig
        else often least most rest
      | _ => .ok (r, cs)
    | false, '\\' :: '\x7b' :: rest =>
      match bounds rest with
      | some (least, most, '\\' :: '\x7d' :: rest) =>
        if (most.map fun n => decide (n < least)).getD false then .error .badBrace
        else if 32767 < max least (most.getD 0) then .error .tooBig
        else often least most rest
      | some (_, _, []) => .error .unmatchedBrace
      | _ => if rest.contains '\x7d' then .error .badBrace else .error .unmatchedBrace
    | _, cs => .ok (r, cs)

end

/-- The expression that a text spells, and the number of its groups. -/
def read? (extended : Bool) (cs : Raw) : Except RegexFault (Regex × Nat) := do
  let (r, rest, s) ← readAny extended 0 (4 * cs.length + 8) cs {}
  if rest.isEmpty then return (r, s.begun) else .error .unmatchedCloseParen

/-! ## Matching -/

/-- A place in a text. -/
structure Place where
  index : Nat
  before : Option Char
  rest : Raw
  /-- What the groups have matched: where it begins, and the text. -/
  groups : List (Nat × Nat × Raw) := []

/-- The text that is searched. -/
structure Subject where
  length : Nat
  /-- Letters match whether they are capital or not. -/
  folds : Bool := false

/-- How far a search has come. -/
structure Search where
  steps : Nat
  best : Option Place := none

/-- How many steps a search at one place may take. -/
def mostSteps : Nat := 200000

def isWordChar (c : Char) : Bool := c.isAlphanum || c == '_'

/-- A class holds a character. -/
def Subject.holds (t : Subject) (k : CharClass) (c : Char) : Bool :=
  if t.folds then (k.ranges.any fun (lo, hi) =>
    [c, c.toLower, c.toUpper].any fun c => lo ≤ c && c ≤ hi) != k.negated
  else k.holds c

def Subject.same (t : Subject) (c d : Char) : Bool := c == d || (t.folds && c.toLower == d.toLower)

/-- Take the longer one of two matches; of equal ones the first. -/
def Search.offer (s : Search) (p : Place) : Search :=
  match s.best with
  | some q => if q.index < p.index then { s with best := some p } else s
  | none => { s with best := some p }

/-- Follow an expression from a place in all ways, and go on with `next` where it ends. -/
def follow (t : Subject) : Nat → Regex → Place → (Place → Search → Search) → Search → Search
  | 0, _, _, _, s => s
  | fuel + 1, r, p, next, s =>
    if s.steps = 0 ∨ (s.best.map (·.index)) = some t.length then s
    else
      let s := { s with steps := s.steps - 1 }
      let one (fits : Char → Bool) : Search :=
        match p.rest with
        | c :: rest => if fits c then next { p with index := p.index + 1, before := some c, rest } s else s
        | [] => s
      let inWordBefore := (p.before.map isWordChar).getD false
      let inWordAfter := (p.rest.head?.map isWordChar).getD false
      match r with
      | .nothing => next p s
      | .exact c => one (t.same c)
      | .any => one fun _ => true
      | .oneOf k => one (t.holds k)
      | .lineStart => if p.before.isNone then next p s else s
      | .lineEnd => if p.rest.isEmpty then next p s else s
      | .edge opens closes =>
        if (opens && !inWordBefore && inWordAfter) || (closes && inWordBefore && !inWordAfter) then next p s else s
      | .noEdge => if inWordBefore == inWordAfter then next p s else s
      | .noWord before => if (if before then inWordBefore else inWordAfter) then s else next p s
      | .both a b => follow t fuel a p (fun q s => follow t fuel b q next s) s
      | .either a b => follow t fuel b p next (follow t fuel a p next s)
      | .repeated r least most =>
        let again : Search :=
          if most = some 0 then s
          else
            follow t fuel r p (fun q s =>
              if q.index = p.index ∧ least = 0 then s
              else follow t fuel (.repeated r (least - 1) (most.map (· - 1))) q next s) s
        if least = 0 then next p again else again
      | .group n r =>
        follow t fuel r p (fun q s =>
          let text := p.rest.take (q.index - p.index)
          next { q with groups := (n, p.index, text) :: q.groups.filter (·.1 ≠ n) } s) s
      | .same n =>
        match p.groups.lookup n with
        | none => s
        | some (_, text) =>
          if text.length ≤ p.rest.length ∧ (text.zip p.rest).all fun (c, d) => t.same c d then
            next { p with
              index := p.index + text.length
              before := if text = [] then p.before else text.getLast?
              rest := p.rest.drop text.length } s
          else s
termination_by structural fuel => fuel

/-- The expression for a text as it stands. -/
def literal (cs : Raw) : Regex := cs.foldr (fun c r => .both (.exact c) r) .nothing

/-- A match in a text. -/
structure Found where
  start : Nat
  length : Nat
  groups : List (Nat × Raw)
  deriving Repr

/-- The size of an expression. -/
def size : Regex → Nat
  | .both a b | .either a b => a.size + b.size + 1
  | .repeated r least most => r.size + least + most.getD 0 + 2
  | .group _ r => r.size + 1
  | _ => 1

/-- The longest match that begins at a place. -/
def matchAt (r : Regex) (t : Subject) (p : Place) : Option Found :=
  let s := follow t ((t.length + 4) * (r.size + 2)) r p (fun q s => s.offer q) { steps := mostSteps }
  s.best.map fun q => ⟨p.index, q.index - p.index, q.groups.map fun (n, _, text) => (n, text)⟩

/-- The first match from a place on. -/
def findFrom (r : Regex) (t : Subject) (index : Nat) (before : Option Char) : Raw → Option Found
  | [] => r.matchAt t { index, before, rest := [] }
  | c :: rest =>
    match r.matchAt t { index, before, rest := c :: rest } with
    | some f => some f
    | none => findFrom r t (index + 1) (some c) rest

/-- The first match in a text, from some index on. -/
def find (r : Regex) (folds : Bool) (cs : Raw) (start : Nat := 0) : Option Found :=
  r.findFrom { length := cs.length, folds } start (if start = 0 then none else cs[start - 1]?) (cs.drop start)

end Regex

end Retrace.Shell
