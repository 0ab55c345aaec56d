import Retrace.Shell.Regex
import Retrace.Shell.Tool.Basic

/-!
# Expressions of words

The values of expressions whose operands and operators are words: numbers of any size, and texts.
-/

namespace Retrace.Shell.Tool

/-- Why words have no value. -/
inductive ExprFault where
  | noArgument
  | unexpected (word : Raw)
  | noClose (found : Option Raw)
  | noNumber
  | divisionByZero
  | badRegex (f : RegexFault)

/-- The complaint, where `last` is the last word. -/
def ExprFault.message (last : Raw) : ExprFault → Raw
  | .noArgument => "syntax error: missing argument after ".toList ++ quoted last
  | .unexpected w =>
    if w = [')'] then "syntax error: unexpected ')'".toList else "syntax error: unexpected argument ".toList ++ quoted w
  | .noClose none => "syntax error: expecting ')' after ".toList ++ quoted last
  | .noClose (some w) => "syntax error: expecting ')' instead of ".toList ++ quoted w
  | .noNumber => "non-integer argument".toList
  | .divisionByZero => "division by zero".toList
  | .badRegex f => f.message.toList

abbrev ExprResult := Except ExprFault (Raw × List Raw)

/-- The number that a word is. -/
def wordInt? (w : Raw) : Option Int := if w.head? = some '+' then none else Raw.int? w

/-- The word for a number. -/
def intWord (n : Int) : Raw := (toString n).toList

/-- A word that counts as false: nothing, or zero. -/
def isNull (w : Raw) : Bool :=
  let ds := if w.head? = some '-' then w.drop 1 else w
  ds.all (· == '0') && (w.isEmpty || !ds.isEmpty)

/-- The part of a text that the group of an expression matches at its start, or the length of the match. -/
def wordMatch (text pattern : Raw) : Except ExprFault Raw := do
  let (r, groups) ← (Regex.read? false pattern).mapError .badRegex
  let found := r.matchAt { length := text.length } { index := 0, before := none, rest := text }
  return match found, groups with
    | some f, 0 => intWord f.length
    | none, 0 => ['0']
    | some f, _ => (f.groups.lookup 1).getD []
    | none, _ => []

/-- The operators, those that bind less before those that bind more. -/
def exprOperators : List (List String) :=
  [["|"], ["&"], ["<", "<=", "=", "==", "!=", ">=", ">"], ["+", "-"], ["*", "/", "%"], [":"]]

/-- The value of an operation. -/
def applyOperator (op : String) (a b : Raw) : Except ExprFault Raw :=
  let numbers (f : Int → Int → Except ExprFault Int) : Except ExprFault Raw := do
    match wordInt? a, wordInt? b with
    | some x, some y => return intWord (← f x y)
    | _, _ => .error .noNumber
  let compare (f : Int → Int → Bool) : Except ExprFault Raw :=
    let r : Bool := match wordInt? a, wordInt? b with
      | some x, some y => f x y
      | _, _ => f (if a = b then 0 else if Raw.before a b then -1 else 1) 0
    .ok (if r then ['1'] else ['0'])
  match op with
  | "|" => .ok (if !isNull a then a else if !isNull b then b else ['0'])
  | "&" => .ok (if !isNull a ∧ !isNull b then a else ['0'])
  | "<" => compare (· < ·)
  | "<=" => compare (· ≤ ·)
  | "=" | "==" => compare (· == ·)
  | "!=" => compare (· != ·)
  | ">=" => compare (· ≥ ·)
  | ">" => compare (· > ·)
  | "+" => numbers fun x y => .ok (x + y)
  | "-" => numbers fun x y => .ok (x - y)
  | "*" => numbers fun x y => .ok (x * y)
  | "/" => numbers fun x y => if y = 0 then .error .divisionByZero else .ok (x.tdiv y)
  | "%" => numbers fun x y => if y = 0 then .error .divisionByZero else .ok (x.tmod y)
  | _ => wordMatch a b

mutual

/-- The value of the expression of some level at the start of the words. -/
def exprAt : Nat → Nat → List Raw → ExprResult
  | 0, _, _ => .error .noArgument
  | fuel + 1, level, words =>
    if exprOperators.length ≤ level then exprOperand fuel words
    else do
      let (a, words) ← exprAt fuel (level + 1) words
      exprMore fuel level a words
termination_by structural fuel => fuel

/-- The value after further operators of a level. -/
def exprMore : Nat → Nat → Raw → List Raw → ExprResult
  | 0, _, _, _ => .error .noArgument
  | fuel + 1, level, a, words =>
    match words with
    | op :: rest =>
      if ((exprOperators[level]?).getD []).contains (String.ofList op) then do
        let (b, rest) ← exprAt fuel (level + 1) rest
        let v ← applyOperator (String.ofList op) a b
        exprMore fuel level v rest
      else .ok (a, words)
    | [] => .ok (a, [])
termination_by structural fuel => fuel

/-- The value of an operand. -/
def exprOperand : Nat → List Raw → ExprResult
  | 0, _ => .error .noArgument
  | fuel + 1, words =>
    match words with
    | [] => .error .noArgument
    | w :: rest =>
      match String.ofList w with
      | "(" => do
        let (v, rest) ← exprAt fuel 0 rest
        match rest with
        | [')'] :: rest => return (v, rest)
        | rest => throw (.noClose rest.head?)
      | ")" => .error (.unexpected w)
      | "+" => match rest with
        | v :: rest => .ok (v, rest)
        | [] => .error .noArgument
      | "length" => do
        let (v, rest) ← exprOperand fuel rest
        return (intWord v.length, rest)
      | "match" => do
        let (a, rest) ← exprOperand fuel rest
        let (b, rest) ← exprOperand fuel rest
        return (← wordMatch a b, rest)
      | "index" => do
        let (a, rest) ← exprOperand fuel rest
        let (b, rest) ← exprOperand fuel rest
        let k := a.findIdx b.contains
        return (intWord (if k < a.length then k + 1 else 0), rest)
      | "substr" => do
        let (a, rest) ← exprOperand fuel rest
        let (b, rest) ← exprOperand fuel rest
        let (l, rest) ← exprOperand fuel rest
        let start := ((wordInt? b).getD 0).toNat
        return (if start = 0 then [] else (a.drop (start - 1)).take ((wordInt? l).getD 0).toNat, rest)
      | _ => .ok (w, rest)
termination_by structural fuel => fuel

end

def expr (c : Call) : Deed :=
  let words := if c.args.head? = some ['-', '-'] then c.args.drop 1 else c.args
  if words.isEmpty then { err := c.misused "missing operand".toList, status := 2 }
  else
    let r : ExprResult := do
      match ← exprAt (16 * words.length + 32) 0 words with
      | (v, []) => return (v, [])
      | (_, w :: _) => throw (.unexpected w)
    match r with
    | .ok (v, _) => { out := v ++ ['\n'], status := if isNull v then 1 else 0 }
    | .error e => { err := c.complain (e.message (words.getLastD [])), status := 2 }

end Retrace.Shell.Tool
