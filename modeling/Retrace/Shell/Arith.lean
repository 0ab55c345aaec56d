import Retrace.Shell.Tool.Basic

/-!
# Arithmetic

The values of arithmetic expressions, in numbers of 64 bits. An expression may assign to variables; what stands where
no value is needed is read, but neither looks variables up nor assigns to them.
-/

namespace Retrace.Shell

/-- Why an expression has no value. -/
inductive ArithFault where
  | noOperand
  | noClose
  | noColon
  | noEnd
  | divisionByZero
  | badNumber (value : Raw)
  deriving DecidableEq, Repr

/-- The complaint about an expression. -/
def ArithFault.message (expr : Raw) : ArithFault → Raw
  | .noOperand => about "expecting primary"
  | .noClose => about "expecting ')'"
  | .noColon => about "expecting ':'"
  | .noEnd => about "expecting EOF"
  | .divisionByZero => about "division by zero"
  | .badNumber value => "Illegal number: ".toList ++ value
where
  about (what : String) : Raw :=
    ("arithmetic expression: " ++ what ++ ": \"").toList ++ expr ++ ['"']

def ofBool (b : Bool) : Int64 := if b then 1 else 0

def skipSpace (cs : Raw) : Raw := cs.dropWhile fun c => c == ' ' || ('\t' ≤ c && c ≤ '\r')

/-! ## Numbers -/

/-- The value of a digit in a base. -/
def digitIn (base : Nat) (c : Char) : Option Nat :=
  let d := if c.isDigit then c.toNat - '0'.toNat else c.toLower.toNat - 'a'.toNat + 10
  if c.isAlphanum && d < base then some d else none

/-- The value of the digits of a base. -/
def inBase (base : Nat) (ds : Raw) : Option Nat :=
  ds.foldl (fun n c => do return (← n) * base + (← digitIn base c)) (if ds.isEmpty then none else some 0)

/-- The number at the start of a text: in base sixteen after `0x`, in base eight after `0`, else in base ten; and the
text after it. -/
def leadingNat (cs : Raw) : Option (Nat × Raw) :=
  let read (base : Nat) (cs : Raw) : Option (Nat × Raw) :=
    let ds := cs.takeWhile fun c => (digitIn base c).isSome
    (inBase base ds).map fun n => (n, cs.drop ds.length)
  match cs with
  | '0' :: x :: d :: rest =>
    if (x = 'x' ∨ x = 'X') ∧ (digitIn 16 d).isSome then read 16 (d :: rest) else read 8 cs
  | '0' :: _ => read 8 cs
  | cs => read 10 cs

/-- The number at the start of a text after blanks and perhaps a sign, and the text after it. -/
def leadingInt (cs : Raw) : Option (Int × Raw) :=
  match skipSpace cs with
  | '-' :: cs => (leadingNat cs).map fun (n, rest) => (-(n : Int), rest)
  | '+' :: cs => (leadingNat cs).map fun (n, rest) => ((n : Int), rest)
  | cs => (leadingNat cs).map fun (n, rest) => ((n : Int), rest)

/-- The value of a variable in an expression. One without a value counts as zero. -/
def variableValue (value : Option Raw) : Except ArithFault Int64 :=
  let cs := value.getD []
  let (n, rest) := (leadingInt cs).getD (0, cs)
  if skipSpace rest = [] ∧ Int64.minValue.toInt ≤ n ∧ n ≤ Int64.maxValue.toInt then .ok (Int64.ofInt n)
  else .error (.badNumber cs)

/-! ## Tokens -/

/-- What an expression is made of. -/
inductive ArithToken where
  | number (n : Int64)
  | variable (name : Raw)
  | op (text : String)
  | bad
  deriving DecidableEq, Repr

/-- The operators, longer ones before those that they begin with. -/
def arithOperators : List String :=
  ["<<=", ">>=", "<=", ">=", "<<", ">>", "==", "!=", "||", "&&", "|=", "&=", "*=", "/=", "%=", "+=", "-=", "^=", "=",
    "<", ">", "|", "&", "*", "/", "%", "+", "-", "^", "!", "~", "(", ")", "?", ":"]

/-- The tokens of an expression. What is no token ends it. -/
def arithTokens : Nat → Raw → List ArithToken
  | 0, _ => []
  | fuel + 1, cs =>
    match cs.dropWhile fun c => c == ' ' || c == '\t' || c == '\n' with
    | [] => []
    | c :: cs =>
      if c.isDigit then
        let (n, rest) := (leadingNat (c :: cs)).getD (0, cs)
        .number (Int64.ofInt (min (n : Int) Int64.maxValue.toInt)) :: arithTokens fuel rest
      else if c.isAlpha ∨ c = '_' then
        let name := (c :: cs).takeWhile fun c => c.isAlphanum || c == '_'
        .variable name :: arithTokens fuel ((c :: cs).drop name.length)
      else
        match arithOperators.find? fun op => op.toList.isPrefixOf (c :: cs) with
        | some op => .op op :: arithTokens fuel ((c :: cs).drop op.length)
        | none => [.bad]

/-! ## Values -/

/-- How closely a binary operator binds; smaller is closer. -/
def precedence? (op : String) : Option Nat :=
  [("*", 0), ("/", 0), ("%", 0), ("+", 1), ("-", 1), ("<<", 2), (">>", 2), ("<", 3), ("<=", 3), (">", 3), (">=", 3),
    ("==", 4), ("!=", 4), ("&", 5), ("^", 6), ("|", 7)].lookup op

/-- Looser than any binary operator. -/
def loosest : Nat := 8

/-- The value of an operation. -/
def operate (op : String) (a b : Int64) : Except ArithFault Int64 :=
  match op with
  | "|" => .ok (a ||| b)
  | "^" => .ok (a ^^^ b)
  | "&" => .ok (a &&& b)
  | "==" => .ok (ofBool (a == b))
  | "!=" => .ok (ofBool (a != b))
  | "<=" => .ok (ofBool (a ≤ b))
  | ">=" => .ok (ofBool (b ≤ a))
  | "<" => .ok (ofBool (a < b))
  | ">" => .ok (ofBool (b < a))
  | "<<" => .ok (a <<< b)
  | ">>" => .ok (a >>> b)
  | "+" => .ok (a + b)
  | "-" => .ok (a - b)
  | "*" => .ok (a * b)
  | "/" => if b = 0 then .error .divisionByZero else .ok (a / b)
  | "%" => if b = 0 then .error .divisionByZero else .ok (a % b)
  | _ => .error .noOperand

/-- Where the work on an expression stands: the tokens that are left, the values of variables, and the assignments so
far, the last one first. -/
structure ArithWork where
  left : List ArithToken
  value : Raw → Option Raw
  assigned : List (Raw × Int64) := []

/-- A step of that work. -/
abbrev ArithStep := StateT ArithWork (Except ArithFault) Int64

namespace ArithWork

/-- The value of a variable. -/
def valueOf (w : ArithWork) (name : Raw) : Except ArithFault Int64 :=
  match w.assigned.lookup name with
  | some n => .ok n
  | none => variableValue (w.value name)

/-- The next token is this operator. -/
def begins (w : ArithWork) (op : String) : Bool := w.left.head? == some (.op op)

/-- The next token, which is a binary operator. -/
def binary? (w : ArithWork) : Option (String × Nat) :=
  match w.left with
  | .op op :: _ => (precedence? op).map fun p => (op, p)
  | _ => none

def drop (w : ArithWork) : ArithWork := { w with left := w.left.drop 1 }

end ArithWork

mutual

/-- An assignment, or an expression without one. With `idle` no value is needed. -/
def arithAssign (idle : Bool) : Nat → ArithStep
  | 0 => throw .noOperand
  | fuel + 1 => do
    let w ← get
    match w.left with
    | .variable name :: .op op :: rest =>
      let plain := (op.toList.dropLast)
      if op = "=" ∨ (op.endsWith "=" ∧ (precedence? op).isNone ∧ (precedence? (String.ofList plain)).isSome) then
        set { w with left := rest }
        let b ← arithAssign idle fuel
        if idle then return b
        else
          let r ← if op = "=" then pure b
            else do liftM (operate (String.ofList plain) (← liftM ((← get).valueOf name)) b)
          modify fun w => { w with assigned := (name, r) :: w.assigned }
          return r
      else arithChoice idle fuel
    | _ => arithChoice idle fuel
termination_by structural fuel => fuel

/-- An expression that may be a choice between two. -/
def arithChoice (idle : Bool) : Nat → ArithStep
  | 0 => throw .noOperand
  | fuel + 1 => do
    let a ← arithOr idle fuel
    if !(← get).begins "?" then return a
    else
      modify ArithWork.drop
      let b ← arithAssign (idle || a == 0) fuel
      if !(← get).begins ":" then throw .noColon
      modify ArithWork.drop
      let c ← arithChoice (idle || a != 0) fuel
      return if a ≠ 0 then b else c
termination_by structural fuel => fuel

/-- Expressions joined by `||`. -/
def arithOr (idle : Bool) : Nat → ArithStep
  | 0 => throw .noOperand
  | fuel + 1 => do
    let a ← arithAnd idle fuel
    if !(← get).begins "||" then return a
    else
      modify ArithWork.drop
      let b ← arithOr (idle || a != 0) fuel
      return ofBool (a != 0 || b != 0)
termination_by structural fuel => fuel

/-- Expressions joined by `&&`. -/
def arithAnd (idle : Bool) : Nat → ArithStep
  | 0 => throw .noOperand
  | fuel + 1 => do
    let a ← arithUnary idle fuel
    let a ← if (← get).binary?.isSome then arithBinary idle a loosest fuel else pure a
    if !(← get).begins "&&" then return a
    else
      modify ArithWork.drop
      let b ← arithAnd (idle || a == 0) fuel
      return ofBool (a != 0 && b != 0)
termination_by structural fuel => fuel

/-- Apply the binary operators that follow to `a`, as long as they bind closer than `limit`. -/
def arithBinary (idle : Bool) (a : Int64) (limit : Nat) : Nat → ArithStep
  | 0 => throw .noOperand
  | fuel + 1 => do
    match (← get).binary? with
    | some (op, p) =>
      if limit ≤ p then return a
      else
        modify ArithWork.drop
        let b ← arithUnary idle fuel
        let b ← match (← get).binary? with
          | some (_, q) => if q < p then arithBinary idle b p fuel else pure b
          | none => pure b
        let r ← if idle then pure b else liftM (operate op a b)
        arithBinary idle r limit fuel
    | none => return a
termination_by structural fuel => fuel

/-- A number, a variable, an expression in parentheses or one with a sign. -/
def arithUnary (idle : Bool) : Nat → ArithStep
  | 0 => throw .noOperand
  | fuel + 1 => do
    let w ← get
    set w.drop
    match w.left.head? with
    | some (.number n) => return n
    | some (.variable name) => if idle then return 0 else liftM (w.valueOf name)
    | some (.op "+") => arithUnary idle fuel
    | some (.op "-") => return -(← arithUnary idle fuel)
    | some (.op "!") => return ofBool ((← arithUnary idle fuel) == 0)
    | some (.op "~") => return -(← arithUnary idle fuel) - 1
    | some (.op "(") =>
      let a ← arithAssign idle fuel
      if !(← get).begins ")" then throw .noClose
      modify ArithWork.drop
      return a
    | _ => throw .noOperand
termination_by structural fuel => fuel

end

/-- The value of an expression, and its assignments in order. -/
def arithmetic (value : Raw → Option Raw) (cs : Raw) : Except ArithFault (Int64 × List (Raw × Int64)) := do
  let (a, w) ← (arithAssign false (16 * cs.length + 32)).run { left := arithTokens (cs.length + 1) cs, value }
  if w.left.isEmpty then return (a, w.assigned.reverse) else throw .noEnd

end Retrace.Shell
