import Retrace.Number.Binary64
import Retrace.Shell.Arith
import Retrace.Shell.Tool.Text

/-!
# Formats

The texts that `printf` and `echo` make of their arguments.
-/

namespace Retrace.Shell

open Tool (octal controlChar?)

/-- The character that a letter stands for after a backslash in a text that is written. -/
def escape? (c : Char) : Option Char := if c = 'e' then some '\x1b' else controlChar? c

/-- A text with the escapes of `echo` replaced; it ends at `\c`, which the second result tells. -/
def echoText : Nat → Raw → Raw × Bool
  | 0, cs => (cs, false)
  | fuel + 1, cs =>
    match cs with
    | '\\' :: 'c' :: _ => ([], true)
    | '\\' :: '0' :: rest =>
      match octal rest with
      | some (n, rest) => let (t, stop) := echoText fuel rest; (Char.ofNat n :: t, stop)
      | none => let (t, stop) := echoText fuel rest; ('\x00' :: t, stop)
    | '\\' :: c :: rest =>
      match octal (c :: rest), escape? c with
      | some (n, rest), _ => let (t, stop) := echoText fuel rest; (Char.ofNat n :: t, stop)
      | none, some d => let (t, stop) := echoText fuel rest; (d :: t, stop)
      | none, none => let (t, stop) := echoText fuel (c :: rest); ('\\' :: t, stop)
    | c :: rest => let (t, stop) := echoText fuel rest; (c :: t, stop)
    | [] => ([], false)

/-- What `echo` writes. -/
def echo (args : List Raw) : Raw :=
  let (bare, words) := match args with
    | ['-', 'n'] :: ws => (true, ws)
    | ws => (false, ws)
  let text := (words.intersperse [' ']).flatten
  let (t, stop) := echoText (text.length + 1) text
  if stop ∨ bare then t else t ++ ['\n']

/-! ## Fractions -/

/-- The number `mant * 2 ^ exp`, perhaps negative. -/
structure Fraction where
  negative : Bool
  mant : Nat
  exp : Int

/-- `num / den` with 53 significant bits. -/
def Fraction.near (negative : Bool) (num den : Nat) : Fraction :=
  if num = 0 then ⟨negative, 0, 0⟩
  else
    let excess : Int := (Nat.log2 num : Int) - (Nat.log2 den : Int) - 53
    let scaled (e : Int) : Nat × Nat := if 0 ≤ e then (num, den <<< e.toNat) else (num <<< (-e).toNat, den)
    let (n, d) := scaled excess
    let e := if n / d < 1 <<< 53 then excess else excess + 1
    let (n, d) := scaled e
    ⟨negative, Number.divRoundEven n d, e⟩

/-- The number times a power of ten to the nearest integer, a half to the even neighbour. -/
def Fraction.scaled (f : Fraction) (ten : Int) : Nat :=
  let num := f.mant * (if 0 ≤ ten then Nat.pow 10 ten.toNat else 1) * (if 0 ≤ f.exp then 1 <<< f.exp.toNat else 1)
  let den := (if 0 ≤ ten then 1 else Nat.pow 10 (-ten).toNat) * (if 0 ≤ f.exp then 1 else 1 <<< (-f.exp).toNat)
  Number.divRoundEven num den

/-- The digits of a number, at least so many. -/
def digitsOf (least n : Nat) : Raw :=
  let ds := (toString n).toList
  List.replicate (least - ds.length) '0' ++ ds

/-- The number with so many digits after the point. -/
def Fraction.fixed (f : Fraction) (places : Nat) (point : Bool) : Raw :=
  let ds := digitsOf (places + 1) (f.scaled places)
  let whole := ds.take (ds.length - places)
  whole ++ (if places = 0 ∧ !point then [] else '.' :: ds.drop whole.length)

/-- The power of ten of the first of so many digits, and those digits. -/
def Fraction.digits (f : Fraction) (count : Nat) : Int × Raw :=
  if f.mant = 0 then (0, List.replicate count '0')
  else
    let guess : Int := ((Nat.log2 f.mant : Int) + f.exp) * 1233 / 4096
    let tried := [guess - 1, guess, guess + 1, guess + 2].map fun e => (e, toString (f.scaled (count - 1 - e)))
    match tried.find? fun t => t.2.length = count with
    | some (e, ds) => (e, ds.toList)
    | none => (guess, [])

/-- The number with one digit before the point, so many after it, and a power of ten. -/
def Fraction.scientific (f : Fraction) (places : Nat) (point : Bool) : Raw :=
  let (e, ds) := f.digits (places + 1)
  ds.take 1 ++ (if places = 0 ∧ !point then [] else '.' :: ds.drop 1) ++
    ['e', if e < 0 then '-' else '+'] ++ digitsOf 2 e.natAbs

/-- A text without the zeros after its point. -/
def withoutZeros (cs : Raw) : Raw :=
  if cs.contains '.' then ((cs.reverse.dropWhile (· == '0')).dropWhile (· == '.')).reverse else cs

/-- The number in the shorter of both ways, with so many digits. -/
def Fraction.general (f : Fraction) (digits : Nat) (keep : Bool) : Raw :=
  let p := max 1 digits
  let (e, _) := f.digits p
  if -4 ≤ e ∧ e < p then
    let t := f.fixed (p - 1 - e).toNat keep
    if keep then t else withoutZeros t
  else
    let t := f.scientific (p - 1) keep
    let head := t.takeWhile (· ≠ 'e')
    (if keep then head else withoutZeros head) ++ t.drop head.length

/-- What the beginning of a text says as a number with a fraction, and the text after it. -/
def leadingFraction (cs : Raw) : Option (Except Raw Fraction × Raw) :=
  let cs := skipSpace cs
  let negative := cs.head? = some '-'
  let cs := if cs.head? = some '-' ∨ cs.head? = some '+' then cs.drop 1 else cs
  let word (w : String) : Bool := (cs.take w.length).map Char.toLower == w.toList
  let whole := cs.takeWhile Char.isDigit
  let rest := cs.drop whole.length
  let (part, rest) := match rest with
    | '.' :: more => (more.takeWhile Char.isDigit, more.dropWhile Char.isDigit)
    | rest => ([], rest)
  if word "infinity" then some (.error (if negative then "-inf" else "inf").toList, cs.drop 8)
  else if word "inf" then some (.error (if negative then "-inf" else "inf").toList, cs.drop 3)
  else if word "nan" then some (.error (if negative then "-nan" else "nan").toList, cs.drop 3)
  else if whole ++ part = [] then none
  else
    let (exp, rest) : Int × Raw := match rest with
      | e :: more =>
        if e = 'e' ∨ e = 'E' then
          let sign := more.takeWhile fun c => c == '-' || c == '+'
          let ds := (more.drop sign.length).takeWhile Char.isDigit
          if sign.length ≤ 1 ∧ ds ≠ [] then
            let n : Int := min 400 ((Raw.nat? ds).getD 0)
            (if sign = ['-'] then -n else n, more.drop (sign.length + ds.length))
          else (0, rest)
        else (0, rest)
      | [] => (0, [])
    let exp := exp - part.length
    let num := (Raw.nat? (whole ++ part)).getD 0
    let f := if 0 ≤ exp then Fraction.near negative (num * Nat.pow 10 exp.toNat) 1
      else Fraction.near negative num (Nat.pow 10 (-exp).toNat)
    some (.ok f, rest)

/-! ## Fields -/

/-- A number in a field of a format: none, or one that is written there, or that an argument gives. -/
inductive FieldSize where
  | none
  | fixed (n : Nat)
  | given
  deriving DecidableEq, Repr

/-- A piece of a format. -/
inductive FormatPiece where
  | text (cs : Raw)
  | field (flags : Raw) (width precision : FieldSize) (kind : Char)
  /-- A field of no known kind, or of none at all, which breaks the format off. -/
  | faulty (spec : Raw) (isKind : Bool)
  deriving DecidableEq, Repr

/-- A size at the start of a text. -/
def fieldSize (cs : Raw) : FieldSize × Raw :=
  match cs with
  | '*' :: rest => (.given, rest)
  | cs =>
    let ds := cs.takeWhile Char.isDigit
    (match Raw.nat? ds with
      | some n => .fixed n
      | none => .none, cs.drop ds.length)

/-- The pieces of a format. -/
def formatPieces : Nat → Raw → List FormatPiece
  | 0, _ => []
  | fuel + 1, cs =>
    match cs with
    | [] => []
    | '%' :: '%' :: rest => .text ['%'] :: formatPieces fuel rest
    | '%' :: rest =>
      let flags := rest.takeWhile fun c => c == '-' || c == '0' || c == '+' || c == ' ' || c == '#'
      let (width, after) := fieldSize (rest.drop flags.length)
      let (precision, after) := match after with
        | '.' :: after =>
          match fieldSize after with
          | (.none, after) => (.fixed 0, after)
          | r => r
        | after => (.none, after)
      match after with
      | kind :: after =>
        if "diuoxXsbceEfFgG".toList.contains kind then
          .field flags width precision kind :: formatPieces fuel after
        else [.faulty ('%' :: rest.take (rest.length - after.length)) true]
      | [] => [.faulty ('%' :: rest) false]
    | '\\' :: c :: rest =>
      match octal (c :: rest), escape? c with
      | some (n, rest), _ => .text [Char.ofNat n] :: formatPieces fuel rest
      | none, some d => .text [d] :: formatPieces fuel rest
      | none, none => .text (if c = '"' ∨ c = '\'' then [c] else ['\\', c]) :: formatPieces fuel rest
    | c :: rest => .text [c] :: formatPieces fuel rest

/-- What is wrong with an argument that should be a number. -/
inductive FieldFault where
  | noNumber (arg : Raw)
  | left (arg : Raw)
  | outside (arg : Raw)
  deriving DecidableEq, Repr

/-- The complaint of a shell. -/
def FieldFault.message : FieldFault → Raw
  | .noNumber arg => arg ++ ": expected numeric value".toList
  | .left arg => arg ++ ": not completely converted".toList
  | .outside arg => arg ++ ": Numerical result out of range".toList

/-- The value of an argument that should be a number, and what is wrong with it. -/
def formatNumber (low high : Int) (arg : Raw) : Int × Option FieldFault :=
  match arg with
  | [] => (0, none)
  | '\'' :: c :: _ | '"' :: c :: _ => (c.toNat, none)
  | arg =>
    match leadingInt arg with
    | none => (0, some (.noNumber arg))
    | some (n, rest) =>
      let inside := max low (min high n)
      (inside, if rest ≠ [] then some (.left arg) else if n ≠ inside then some (.outside arg) else none)

/-- How a field is filled up. -/
structure FieldShape where
  flags : Raw
  width : Nat
  precision : Option Nat

namespace FieldShape

def has (s : FieldShape) (c : Char) : Bool := s.flags.contains c

/-- A text in the width of the field, its sign or mark apart, so that zeros can come between. -/
def pad (s : FieldShape) (zeros : Bool) (sign cs : Raw) : Raw :=
  let n := s.width - (sign.length + cs.length)
  if s.has '-' then sign ++ cs ++ List.replicate n ' '
  else if zeros && s.has '0' then sign ++ List.replicate n '0' ++ cs
  else List.replicate n ' ' ++ sign ++ cs

/-- A text of which only so much is shown. -/
def text (s : FieldShape) (cs : Raw) : Raw := s.pad false [] (match s.precision with
  | some p => cs.take p
  | none => cs)

/-- The sign of a number. -/
def sign (s : FieldShape) (negative : Bool) : Raw :=
  if negative then ['-'] else if s.has '+' then ['+'] else if s.has ' ' then [' '] else []

/-- The digits of a number, as many as are asked for. -/
def digits (s : FieldShape) (base n : Nat) : Raw :=
  if n = 0 ∧ s.precision = some 0 then [] else Tool.padded base (s.precision.getD 1) n

end FieldShape

/-- An argument as a field of a format shows it, and what is wrong with it. -/
def formatField (s : FieldShape) (kind : Char) (arg : Raw) : Raw × Option FieldFault :=
  let zeros := s.precision.isNone
  let unsigned : Nat × Option FieldFault :=
    let (n, why) := formatNumber (-(UInt64.size : Int)) ((UInt64.size : Int) - 1) arg
    ((n % (UInt64.size : Int)).toNat, why)
  let upper (up : Bool) (cs : Raw) : Raw := if up then cs.map Char.toUpper else cs
  let fraction (show' : Fraction → Nat → Raw) : Raw × Option FieldFault :=
    let (f, why) : Except Raw Fraction × Option FieldFault := match arg with
      | [] => (.ok ⟨false, 0, 0⟩, none)
      | '\'' :: c :: _ | '"' :: c :: _ => (.ok (Fraction.near false c.toNat 1), none)
      | arg =>
        match leadingFraction arg with
        | none => (.ok ⟨false, 0, 0⟩, some (.noNumber arg))
        | some (f, rest) => (f, if rest = [] then none else some (.left arg))
    (match f with
      | .ok f => s.pad true (s.sign f.negative) (upper kind.isUpper (show' f (s.precision.getD 6)))
      | .error w => s.pad false (s.sign (w.head? = some '-')) (upper kind.isUpper (w.dropWhile (· == '-'))), why)
  match kind with
  | 's' => (s.text arg, none)
  | 'b' => (s.text (echoText (arg.length + 1) arg).1, none)
  | 'c' => (s.pad false [] (if arg = [] then ['\x00'] else arg.take 1), none)
  | 'd' | 'i' =>
    let (n, why) := formatNumber Int64.minValue.toInt Int64.maxValue.toInt arg
    (s.pad zeros (s.sign (n < 0)) (s.digits 10 n.natAbs), why)
  | 'u' => (s.pad zeros [] (s.digits 10 unsigned.1), unsigned.2)
  | 'o' =>
    let ds := s.digits 8 unsigned.1
    (s.pad zeros [] (if s.has '#' ∧ ds.head? ≠ some '0' then '0' :: ds else ds), unsigned.2)
  | 'x' | 'X' =>
    let mark : Raw := if s.has '#' ∧ unsigned.1 ≠ 0 then ['0', kind] else []
    (s.pad zeros mark (upper (kind = 'X') (s.digits 16 unsigned.1)), unsigned.2)
  | 'e' | 'E' => fraction fun f p => f.scientific p (s.has '#')
  | 'f' | 'F' => fraction fun f p => f.fixed p (s.has '#')
  | _ => fraction fun f p => f.general p (s.has '#')

/-- What a format makes: a text, what is wrong with the arguments, and those that are left. `ended` when an argument has
ended it all, and `fault` says why it was broken off. -/
structure Formatted where
  out : Raw := []
  complaints : List FieldFault := []
  left : List Raw
  ended : Bool := false
  fault : Option (Raw × Bool) := none

/-- The size that a field has, and the arguments after the one that may give it. -/
def FieldSize.resolve (z : FieldSize) (args : List Raw) : Option Int × List Raw :=
  match z with
  | .none => (Option.none, args)
  | .fixed n => (some (n : Int), args)
  | .given => (some (formatNumber Int32.minValue.toInt Int32.maxValue.toInt (args.headD [])).1, args.drop 1)

/-- One passage through a format. -/
def formatOnce : List FormatPiece → Formatted → Formatted
  | [], r => r
  | .text cs :: ps, r => formatOnce ps { r with out := r.out ++ cs }
  | .faulty spec isKind :: _, r => { r with ended := true, fault := some (spec, isKind) }
  | .field flags width precision kind :: ps, r =>
    let (w, args) := width.resolve r.left
    let (p, args) := precision.resolve args
    let shape : FieldShape :=
      { flags := if w.getD 0 < 0 then '-' :: flags else flags, width := (w.getD 0).natAbs
        precision := (p.filter (0 ≤ ·)).map Int.toNat }
    let arg := args.headD []
    let (t, why) := formatField shape kind arg
    let r := { r with out := r.out ++ t, complaints := r.complaints ++ why.toList, left := args.drop 1 }
    if kind = 'b' ∧ (echoText (arg.length + 1) arg).2 then { r with ended := true } else formatOnce ps r

/-- Go through a format again as long as it takes arguments and some are left. -/
def formatAll : Nat → List FormatPiece → Formatted → Formatted
  | 0, _, r => r
  | fuel + 1, ps, r =>
    let next := formatOnce ps r
    if next.ended ∨ next.left = [] ∨ next.left.length = r.left.length then next else formatAll fuel ps next

/-- What `printf` writes, and its complaints. -/
def printf (format : Raw) (args : List Raw) : Formatted :=
  formatAll (args.length + 1) (formatPieces (format.length + 1) format) { left := args }

end Retrace.Shell
