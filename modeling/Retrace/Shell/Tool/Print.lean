import Retrace.Shell.Condition
import Retrace.Shell.Format

/-!
# Tools that print and test

The programs `echo`, `printf` and `test`, which differ from the commands of a shell of the same names in their options
and complaints.
-/

namespace Retrace.Shell.Tool

/-- A text with escapes replaced; it ends at `\c`, which the second result tells. -/
def unescaped : Nat → Raw → Raw × Bool
  | 0, cs => (cs, false)
  | fuel + 1, cs =>
    let after (text rest : Raw) : Raw × Bool := let (t, stop) := unescaped fuel rest; (text ++ t, stop)
    match cs with
    | [] => ([], false)
    | '\\' :: 'c' :: _ => ([], true)
    | '\\' :: 'x' :: rest =>
      let ds := (rest.take 2).takeWhile fun d => (digitIn 16 d).isSome
      match inBase 16 ds with
      | some n => after [Char.ofNat n] (rest.drop ds.length)
      | none => after ['\\', 'x'] rest
    | '\\' :: k :: rest =>
      match (if k = '0' then octal rest else octal (k :: rest)), escape? k with
      | some (n, rest), _ => after [Char.ofNat n] rest
      | none, some d => after [d] rest
      | none, none => if k = '0' then after ['\x00'] rest else after ['\\', k] rest
    | k :: rest => after [k] rest

/-- What `echo` writes: without a line end after `-n`, with escapes after `-e`. -/
def echo (c : Call) : Deed :=
  let isOption (a : Raw) : Bool := match a with
    | '-' :: k :: ks => (k :: ks).all "neE".toList.contains
    | _ => false
  let os := c.args.takeWhile isOption
  let letters := os.flatMap (·.drop 1)
  let text := ((c.args.drop os.length).intersperse [' ']).flatten
  let escapes := (letters.filter (· ≠ 'n')).getLast? = some 'e'
  let (t, stop) := if escapes then unescaped (text.length + 1) text else (text, false)
  { out := if stop ∨ letters.contains 'n' then t else t ++ ['\n'] }

def printfTool (c : Call) : Deed :=
  match (if c.args.head? = some ['-', '-'] then c.args.drop 1 else c.args) with
  | [] => { err := c.misused "missing operand".toList, status := 1 }
  | format :: args =>
    let r := printf format args
    let complaint (f : FieldFault) : Raw := c.complain (match f with
      | .noNumber arg => quoted arg ++ ": expected a numeric value".toList
      | .left arg => quoted arg ++ ": value not completely converted".toList
      | .outside arg => quoted arg ++ ": Numerical result out of range".toList)
    let fault := r.fault.map fun (spec, _) => c.complain (spec ++ ": invalid conversion specification".toList)
    let extra := if r.ended then none else r.left.head?.map fun arg =>
      c.complain ("warning: ignoring excess arguments, starting with ".toList ++ quoted arg)
    { out := r.out
      err := r.complaints.flatMap complaint ++ fault.getD [] ++ extra.getD []
      status := if r.complaints.isEmpty ∧ fault.isNone then 0 else 1 }

/-- What `test` finds out about its arguments. -/
def tested (c : Call) (args : List Raw) : Deed :=
  let args := if args.length < 3 then args else args.map fun a => if a = ['=', '='] then ['='] else a
  let dashed (a : Raw) : Bool := a.length = 2 && a.head? == some '-'
  match condition c.machine c.path args with
  | .ok r => { status := if r then 0 else 1 }
  | .error e =>
    let why : Raw := match e, args with
      | .badNumber w, _ => "invalid integer ".toList ++ quoted w
      | .noArgument w, _ => "missing argument after ".toList ++ quoted w
      | .noClose, _ => "')' expected".toList
      | .unexpected _, [a, b] =>
        if dashed a then quoted a ++ ": unary operator expected".toList else "missing argument after ".toList ++ quoted b
      | .unexpected _, [_, b, _] => quoted b ++ ": binary operator expected".toList
      | .unexpected w, args =>
        "extra argument ".toList ++ quoted (((args.dropWhile (· ≠ w)).drop 1).headD [])
    { err := c.complain why, status := 2 }

def testTool (c : Call) : Deed := tested c c.args

/-- The program `[`, whose last argument closes it. -/
def bracketTool (c : Call) : Deed :=
  if c.args.getLast? = some [']'] then tested c c.args.dropLast
  else { err := c.complain "missing ']'".toList, status := 2 }

end Retrace.Shell.Tool
