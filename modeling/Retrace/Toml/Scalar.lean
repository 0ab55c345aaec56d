import Retrace.Number.Binary64
import Retrace.Toml.Node

/-!
# Numbers, dates and words

What may stand for a value without brackets or quotes. Each reader takes the longest such form from the front and
leaves the rest.
-/

namespace Retrace.Toml

/-- A reader takes something from the front of the text and leaves the rest. -/
abbrev Reader (α : Type) := List Char → Option (α × List Char)

namespace Scalar

def isDigit (c : Char) : Bool := '0' ≤ c && c ≤ '9'

/-- The value of a hexadecimal digit of either case. -/
def hexValue (c : Char) : Nat :=
  if isDigit c then c.toNat - 48 else if 'a' ≤ c ∧ c ≤ 'f' then c.toNat - 87 else c.toNat - 55

def isHex (c : Char) : Bool := isDigit c || ('a' ≤ c && c ≤ 'f') || ('A' ≤ c && c ≤ 'F')

/-- The number that digits spell in a base. -/
def number (base : Nat) (ds : List Char) : Nat := ds.foldl (fun n d => n * base + hexValue d) 0

/-- Further digits, single underscores between them left out. -/
def moreDigits (p : Char → Bool) : List Char → List Char × List Char
  | [] => ([], [])
  | '_' :: c :: rest =>
    if p c then let (ds, rest) := moreDigits p rest; (c :: ds, rest) else ([], '_' :: c :: rest)
  | c :: rest => if p c then let (ds, rest) := moreDigits p rest; (c :: ds, rest) else ([], c :: rest)

/-- At least one digit. -/
def digits (p : Char → Bool) : Reader (List Char)
  | [] => none
  | c :: rest => if p c then let (ds, rest) := moreDigits p rest; some (c :: ds, rest) else none

/-- An optional sign; `true` for minus. -/
def sign : List Char → Bool × List Char
  | '+' :: rest => (false, rest)
  | '-' :: rest => (true, rest)
  | rest => (false, rest)

/-- Decimal digits without a leading zero, except for zero itself. -/
def wholeDigits : Reader (List Char)
  | '0' :: rest => some (['0'], rest)
  | cs => digits isDigit cs

/-- Within the signed numbers of 64 bits. -/
def inRange (i : Int) : Bool := Int64.minValue.toInt ≤ i && i ≤ Int64.maxValue.toInt

/-- A whole number after its base is known. -/
def based (base : Nat) (p : Char → Bool) (cs : List Char) : Option (Int × List Char) := do
  let (ds, rest) ← digits p cs
  let i : Int := number base ds
  if inRange i then some (i, rest) else none

/-- A whole number: hexadecimal, octal or binary without sign, or decimal. -/
def integer : Reader Int
  | '0' :: 'x' :: rest => based 16 isHex rest
  | '0' :: 'o' :: rest => based 8 (fun c => '0' ≤ c && c ≤ '7') rest
  | '0' :: 'b' :: rest => based 2 (fun c => c == '0' || c == '1') rest
  | cs => do
    let (minus, cs) := sign cs
    let (ds, rest) ← wholeDigits cs
    let i : Int := if minus then -(number 10 ds : Int) else number 10 ds
    if inRange i then some (i, rest) else none

/-- The digits after the point; without a point there are none. -/
def fraction : Reader (List Char)
  | '.' :: rest => digits isDigit rest
  | rest => some ([], rest)

/-- The power of ten after `e`; without it the power is zero. -/
def power : Reader Int
  | e :: rest =>
    if e = 'e' ∨ e = 'E' then do
      let (minus, rest) := sign rest
      let (ds, rest) ← digits isDigit rest
      some (if minus then -(number 10 ds : Int) else number 10 ds, rest)
    else some (0, e :: rest)
  | [] => some (0, [])

/-- A decimal number with a point or a power, or a special word. One that rounds to positive infinity is refused. -/
def float (cs : List Char) : Option (List Char) :=
  let (minus, body) := sign cs
  match body with
  | 'i' :: 'n' :: 'f' :: rest => some rest
  | 'n' :: 'a' :: 'n' :: rest => some rest
  | _ => do
    let (whole, rest) ← wholeDigits body
    let (part, rest') ← fraction rest
    let (exponent, rest'') ← power rest'
    if rest''.length = rest.length then none
    else if !minus && Number.overflowsDouble (number 10 (whole ++ part)) (exponent - part.length) then none
    else some rest''

/-- Exactly `n` decimal digits as a number. -/
def fixed (n : Nat) : Reader Nat := fun cs =>
  let ds := cs.take n
  if ds.length = n ∧ ds.all isDigit then some (number 10 ds, cs.drop n) else none

/-- The character `c`. -/
def char (c : Char) : List Char → Option (List Char)
  | d :: rest => if c = d then some rest else none
  | [] => none

/-- The length of a month. -/
def daysIn (year month : Nat) : Nat :=
  if month = 2 then if year % 4 = 0 ∧ (year % 100 ≠ 0 ∨ year % 400 = 0) then 29 else 28
  else if month = 4 ∨ month = 6 ∨ month = 9 ∨ month = 11 then 30
  else 31

/-- Year, month and day of the calendar. -/
def date (cs : List Char) : Option (List Char) := do
  let (year, cs) ← fixed 4 cs
  let (month, cs) ← fixed 2 (← char '-' cs)
  let (day, cs) ← fixed 2 (← char '-' cs)
  if 1 ≤ month ∧ month ≤ 12 ∧ 1 ≤ day ∧ day ≤ daysIn year month then some cs else none

/-- Hours and minutes. -/
def hourMinute (cs : List Char) : Option (List Char) := do
  let (hour, cs) ← fixed 2 cs
  let (minute, cs) ← fixed 2 (← char ':' cs)
  if hour ≤ 23 ∧ minute ≤ 59 then some cs else none

/-- A time of day, with or without parts of a second. -/
def time (cs : List Char) : Option (List Char) := do
  let cs ← hourMinute cs
  let (second, cs) ← fixed 2 (← char ':' cs)
  if 60 < second then none
  else
    match cs with
    | '.' :: d :: rest => if isDigit d then some (rest.dropWhile isDigit) else some cs
    | _ => some cs

/-- The distance from universal time; it may be missing. -/
def offset (cs : List Char) : List Char :=
  match cs with
  | 'Z' :: rest | 'z' :: rest => rest
  | '+' :: rest | '-' :: rest => (hourMinute rest).getD cs
  | _ => cs

/-- What follows a date: a time with or without an offset, or nothing. -/
def timeAfterDate (cs : List Char) : List Char :=
  match cs with
  | 'T' :: rest | 't' :: rest | ' ' :: rest =>
    match time rest with
    | some rest => offset rest
    | none => cs
  | _ => cs

/-- A date, a time or both. -/
def moment (cs : List Char) : Option (List Char) :=
  match date cs with
  | some rest => some (timeAfterDate rest)
  | none => time cs

/-- A value that starts with a sign or a digit. -/
def numeric (cs : List Char) : Option (Node × List Char) :=
  match moment cs with
  | some rest => some (.moment, rest)
  | none =>
    match float cs with
    | some rest => some (.float, rest)
    | none => (integer cs).map fun (i, rest) => (.integer i, rest)

/-- A value that is a word. -/
def word : Reader Node
  | 't' :: 'r' :: 'u' :: 'e' :: rest => some (.boolean, rest)
  | 'f' :: 'a' :: 'l' :: 's' :: 'e' :: rest => some (.boolean, rest)
  | 'i' :: 'n' :: 'f' :: rest => some (.float, rest)
  | 'n' :: 'a' :: 'n' :: rest => some (.float, rest)
  | _ => none

end Scalar

end Retrace.Toml
