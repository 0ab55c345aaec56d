import Retrace.Path.Basic
import Retrace.Shell.Arith

/-!
# Modes

Who may do what with a file, as a number and as letters spell it.
-/

namespace Retrace.Shell

/-- The letters of the permissions in three bits. -/
def permissionLetters (bits : Nat) : Raw :=
  (if bits &&& 4 ≠ 0 then ['r'] else []) ++ (if bits &&& 2 ≠ 0 then ['w'] else []) ++ if bits &&& 1 ≠ 0 then ['x'] else []

/-- A change of permissions as letters spell it: for whom, how, and which. -/
def symbolicMode (directory : Bool) (mask : Nat) : List Raw → Nat → Option Nat
  | [], old => some old
  | clause :: rest, old =>
    let who := clause.takeWhile ("ugoa".toList.contains ·)
    let scope (c : Char) : Nat := match c with
      | 'u' => 0o4700
      | 'g' => 0o2070
      | 'o' => 0o1007
      | _ => 0o7777
    let affected := if who = [] then 0o7777 - mask else who.foldl (fun m c => m ||| scope c) 0
    let apply (op : Char) (letters : Raw) (old : Nat) : Option Nat :=
      letters.foldl (fun bits c => do
        let b : Nat ← match c with
          | 'r' => some 0o444
          | 'w' => some 0o222
          | 'x' => some 0o111
          | 'X' => some (if directory || old &&& 0o111 ≠ 0 then 0o111 else 0)
          | 's' => some 0o6000
          | 't' => some 0o1000
          | 'u' => some ((old >>> 6 &&& 7) * 0o111)
          | 'g' => some ((old >>> 3 &&& 7) * 0o111)
          | 'o' => some ((old &&& 7) * 0o111)
          | _ => none
        return (← bits) ||| b) (some 0) |>.map fun bits =>
          let bits := bits &&& affected
          if op = '+' then old ||| bits
          else if op = '-' then old &&& (0o7777 - bits)
          else (old &&& (0o7777 - (affected &&& (if who = [] then 0o777 else affected)))) ||| bits
    let rec actions : Nat → Raw → Nat → Option Nat
      | 0, _, old => some old
      | fuel + 1, cs, old =>
        match cs with
        | [] => some old
        | op :: cs =>
          if ['+', '-', '='].contains op then
            let letters := cs.takeWhile fun c => !(['+', '-', '='].contains c)
            (apply op letters old).bind (actions fuel (cs.drop letters.length))
          else none
    let body := clause.drop who.length
    if body = [] then none else (actions (body.length + 1) body old).bind (symbolicMode directory mask rest)

/-- The mode that a text gives in place of an old one. -/
def changedMode (directory : Bool) (mask old : Nat) (spec : Raw) : Option Nat :=
  if spec ≠ [] ∧ spec.all fun c => '0' ≤ c && c ≤ '7' then (inBase 8 spec).filter (· ≤ 0o7777)
  else symbolicMode directory mask ((Bytes.split 0x2C (Raw.bytes spec)).map Raw.ofBytes) old

/-- The permissions as a listing shows them. -/
def modeText (mode : Nat) : Raw :=
  let three (shift : Nat) (special : Bool) (mark : Char) : Raw :=
    let bits := mode >>> shift &&& 7
    let last := if special then (if bits &&& 1 ≠ 0 then mark else mark.toUpper) else if bits &&& 1 ≠ 0 then 'x' else '-'
    [if bits &&& 4 ≠ 0 then 'r' else '-', if bits &&& 2 ≠ 0 then 'w' else '-', last]
  three 6 (mode &&& 0o4000 ≠ 0) 's' ++ three 3 (mode &&& 0o2000 ≠ 0) 's' ++ three 0 (mode &&& 0o1000 ≠ 0) 't'

end Retrace.Shell
