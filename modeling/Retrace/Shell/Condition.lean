import Retrace.Shell.Arith

/-!
# Conditions

What the arguments of `test` state about texts, numbers and files.
-/

namespace Retrace.Shell

/-- Why arguments state no condition. -/
inductive TestFault where
  | badNumber (word : Raw)
  | noArgument (operator : Raw)
  | unexpected (word : Raw)
  | noClose
  deriving DecidableEq, Repr

def TestFault.message : TestFault → Raw
  | .badNumber w => "Illegal number: ".toList ++ w
  | .noArgument op => op ++ ": argument expected".toList
  | .unexpected w => (if w = [] then [] else w ++ [':', ' ']) ++ "unexpected operator".toList
  | .noClose => "closing paren expected".toList

/-- What an argument can be besides an operand. -/
inductive TestOp where
  | unary
  | binary
  | not
  | and
  | or
  | open
  | close
  deriving DecidableEq, Repr

/-- The operator that an argument spells. -/
def testOp? (cs : Raw) : Option TestOp :=
  let w := String.ofList cs
  if ["-r", "-w", "-x", "-e", "-f", "-d", "-c", "-b", "-p", "-u", "-g", "-k", "-s", "-t", "-z", "-n", "-h", "-O", "-G",
      "-L", "-S"].contains w then some .unary
  else if ["=", "!=", "<", ">", "-eq", "-ne", "-ge", "-gt", "-le", "-lt", "-nt", "-ot", "-ef"].contains w then
    some .binary
  else
    match w with
    | "!" => some .not
    | "-a" => some .and
    | "-o" => some .or
    | "(" => some .open
    | ")" => some .close
    | _ => none

/-- A number in a condition. -/
def testNumber (cs : Raw) : Except TestFault Int :=
  let (sign, rest) : Int × Raw := match skipSpace cs with
    | '-' :: rest => (-1, rest)
    | '+' :: rest => (1, rest)
    | rest => (1, rest)
  let digits := rest.takeWhile Char.isDigit
  match Raw.nat? digits with
  | some n =>
    let n := sign * (n : Int)
    if skipSpace (rest.drop digits.length) = [] ∧ Int64.minValue.toInt ≤ n ∧ n ≤ Int64.maxValue.toInt then .ok n
    else .error (.badNumber cs)
  | none => .error (.badNumber cs)

/-- A condition on one argument. -/
def unaryTest (m : Machine) (path : Raw → Path) (op : String) (arg : Raw) : Except TestFault Bool :=
  let p := path arg
  let node := m.node? p
  match op with
  | "-n" => .ok (arg ≠ [])
  | "-z" => .ok (arg = [])
  | "-t" => do
    let _ ← testNumber arg
    return false
  | "-f" => .ok (m.isFile p)
  | "-d" => .ok (m.isDir p)
  | "-c" => .ok (match node with
      | some (.device _) => true
      | _ => false)
  | "-x" => .ok (match node with
      | some (.file _ mode) => mode &&& 0o111 ≠ 0
      | some (.dir _) => true
      | _ => false)
  | "-s" => .ok (match node with
      | some (.file content _) => content ≠ []
      | some (.dir _) => true
      | _ => false)
  | "-L" | "-h" => .ok (match m.findHere p with
      | .ok place => (match m.tree.node place.ino with
        | .link _ => true
        | _ => false)
      | .error _ => false)
  | "-r" | "-w" | "-e" | "-O" | "-G" => .ok node.isSome
  | _ => .ok false

/-- A condition on two arguments. -/
def binaryTest (m : Machine) (path : Raw → Path) (a : Raw) (op : String) (b : Raw) : Except TestFault Bool :=
  let ints (f : Int → Int → Bool) : Except TestFault Bool := do return f (← testNumber a) (← testNumber b)
  let node (cs : Raw) : Option Ino := (m.find (path cs)).toOption.map Place.ino
  match op with
  | "=" => .ok (a = b)
  | "!=" => .ok (a ≠ b)
  | "<" => .ok (a ≠ b && Raw.before a b)
  | ">" => .ok (a ≠ b && Raw.before b a)
  | "-eq" => ints (· == ·)
  | "-ne" => ints (· != ·)
  | "-lt" => ints (· < ·)
  | "-le" => ints (· ≤ ·)
  | "-gt" => ints (· > ·)
  | "-ge" => ints (· ≥ ·)
  | "-ef" => .ok ((node a).isSome && node a == node b)
  | _ => .ok false

/-- The operator at the beginning of some arguments, unless what follows makes it an operand. -/
def leadingOp? (args : List Raw) : Option TestOp := do
  let op ← testOp? (← args.head?)
  match op, args.drop 1 with
  | .unary, [] => none
  | .unary, b :: _ :: _ => if testOp? b = some .binary then none else some .unary
  | .open, [] => none
  | op, _ => some op

/-- A condition and the arguments after it. -/
abbrev TestResult := Except TestFault (Bool × List Raw)

mutual

/-- Conditions of which one must hold. -/
def testAny (m : Machine) (path : Raw → Path) : Nat → List Raw → TestResult
  | 0, args => .error (.unexpected (args.headD []))
  | fuel + 1, args => do
    let (a, args) ← testAll m path fuel args
    if leadingOp? args = some .or then
      let (b, args) ← testAny m path fuel (args.drop 1)
      return (a || b, args)
    else return (a, args)
termination_by structural fuel => fuel

/-- Conditions all of which must hold. -/
def testAll (m : Machine) (path : Raw → Path) : Nat → List Raw → TestResult
  | 0, args => .error (.unexpected (args.headD []))
  | fuel + 1, args => do
    let (a, args) ← testNot m path fuel args
    if leadingOp? args = some .and then
      let (b, args) ← testAll m path fuel (args.drop 1)
      return (a && b, args)
    else return (a, args)
termination_by structural fuel => fuel

/-- A condition, perhaps negated. -/
def testNot (m : Machine) (path : Raw → Path) : Nat → List Raw → TestResult
  | 0, args => .error (.unexpected (args.headD []))
  | fuel + 1, args => do
    if leadingOp? args = some .not then
      let (a, args) ← testNot m path fuel (args.drop 1)
      return (!a, args)
    else testOne m path fuel args
termination_by structural fuel => fuel

/-- A single condition. -/
def testOne (m : Machine) (path : Raw → Path) : Nat → List Raw → TestResult
  | 0, args => .error (.unexpected (args.headD []))
  | fuel + 1, args =>
    match args with
    | [] => .ok (false, [])
    | a :: rest =>
      match leadingOp? args with
      | some .open =>
        if leadingOp? rest = some .close then .ok (false, rest.drop 1)
        else do
          let (r, args) ← testAny m path fuel rest
          if leadingOp? args = some .close then return (r, args.drop 1) else throw .noClose
      | some .unary =>
        match rest with
        | [] => .error (.noArgument a)
        | b :: rest => (unaryTest m path (String.ofList a) b).map fun r => (r, rest)
      | _ =>
        match rest with
        | op :: more =>
          if leadingOp? rest = some .binary then
            match more with
            | [] => .error (.noArgument op)
            | b :: rest => (binaryTest m path a (String.ofList op) b).map fun r => (r, rest)
          else .ok (a ≠ [], rest)
        | [] => .ok (a ≠ [], [])
termination_by structural fuel => fuel

end

/-- The condition that all of the arguments state together. What has been read last is at fault when some are left. -/
def wholeTest (m : Machine) (path : Raw → Path) (args : List Raw) : Except TestFault Bool := do
  let (r, rest) ← testAny m path (4 * args.length + 8) args
  if rest.isEmpty then return r else throw (.unexpected ((args.drop (args.length - rest.length - 1)).headD []))

/-- The condition that three arguments state. -/
def threeTest (m : Machine) (path : Raw → Path) (a op b : Raw) : Except TestFault Bool :=
  if testOp? op = some .binary then binaryTest m path a (String.ofList op) b
  else if a = ['('] ∧ b = [')'] then wholeTest m path [op]
  else if a = ['!'] then (wholeTest m path [op, b]).map (!·)
  else wholeTest m path [a, op, b]

/-- The condition that the arguments state. -/
def condition (m : Machine) (path : Raw → Path) (args : List Raw) : Except TestFault Bool :=
  match args with
  | [] => .ok false
  | [a, op, b] => threeTest m path a op b
  | [a, b, c, d] =>
    if a = ['('] ∧ d = [')'] then wholeTest m path [b, c]
    else if a = ['!'] then (threeTest m path b c d).map (!·)
    else wholeTest m path args
  | args => wholeTest m path args

end Retrace.Shell
