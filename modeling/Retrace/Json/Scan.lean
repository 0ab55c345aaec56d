/-!
# Reading JSON

What a reader of one JSON record needs: blanks, strings, natural numbers, and the passing over of values that the
record does not ask for. A reader gives what it has read and the text that is left.
-/

namespace Retrace.Json

/-- A text after what was read of it. -/
abbrev Rest := List Char

def isBlank (c : Char) : Bool := c == ' ' || c == '\n' || c == '\t' || c == '\r'

/-- The text from its first character that is not blank. -/
def skipBlanks (cs : Rest) : Rest := cs.dropWhile isBlank

/-- The text after a word that it starts with. -/
def dropWord? : List Char → Rest → Option Rest
  | [], cs => some cs
  | w :: ws, c :: cs => if w = c then dropWord? ws cs else none
  | _ :: _, [] => none

def isDigit (c : Char) : Bool := '0' ≤ c && c ≤ '9'

/-- The value of a digit in base sixteen. -/
def hexValue? (c : Char) : Option Nat :=
  if '0' ≤ c ∧ c ≤ '9' then some (c.toNat - '0'.toNat)
  else if 'a' ≤ c ∧ c ≤ 'f' then some (c.toNat - 'a'.toNat + 10)
  else if 'A' ≤ c ∧ c ≤ 'F' then some (c.toNat - 'A'.toNat + 10)
  else none

/-- Four digits in base sixteen. -/
def hexUnit? : Rest → Option (Nat × Rest)
  | a :: b :: c :: d :: cs => do
    let a ← hexValue? a
    let b ← hexValue? b
    let c ← hexValue? c
    let d ← hexValue? d
    return (((a * 16 + b) * 16 + c) * 16 + d, cs)
  | _ => none

/-- The character that a letter after a backslash stands for. -/
def simpleEscape? : Char → Option Char
  | '"' => some '"'
  | '\\' => some '\\'
  | '/' => some '/'
  | 'b' => some '\x08'
  | 'f' => some '\x0C'
  | 'n' => some '\n'
  | 'r' => some '\r'
  | 't' => some '\t'
  | _ => none

/-- The character of a `\u` escape, which is two escapes for a pair of surrogates; a surrogate alone is none. -/
def unitEscape? (cs : Rest) : Option (Char × Rest) := do
  let (u, cs) ← hexUnit? cs
  if 0xDC00 ≤ u ∧ u ≤ 0xDFFF then none
  else if 0xD800 ≤ u ∧ u ≤ 0xDBFF then
    match cs with
    | '\\' :: 'u' :: cs =>
      let (v, cs) ← hexUnit? cs
      if 0xDC00 ≤ v ∧ v ≤ 0xDFFF then
        return (Char.ofNat (0x10000 + (u - 0xD800) * 0x400 + (v - 0xDC00)), cs)
      else none
    | _ => none
  else return (Char.ofNat u, cs)

/-- The characters up to the closing quote; `fuel` bounds their number. -/
def stringBody? : Nat → Rest → Option (List Char × Rest)
  | 0, _ => none
  | fuel + 1, cs =>
    match cs with
    | [] => none
    | '"' :: cs => some ([], cs)
    | '\\' :: 'u' :: cs => do
      let (c, cs) ← unitEscape? cs
      let (s, cs) ← stringBody? fuel cs
      return (c :: s, cs)
    | '\\' :: e :: cs => do
      let c ← simpleEscape? e
      let (s, cs) ← stringBody? fuel cs
      return (c :: s, cs)
    | '\\' :: [] => none
    | c :: cs =>
      if c.toNat < 0x20 then none
      else do
        let (s, cs) ← stringBody? fuel cs
        return (c :: s, cs)

/-- A string. -/
def string? : Rest → Option (List Char × Rest)
  | '"' :: cs => stringBody? (cs.length + 1) cs
  | _ => none

/-- A natural number below `bound`, written without leading zeros, fraction or exponent. -/
def natural? (bound : Nat) (cs : Rest) : Option (Nat × Rest) :=
  let digits := cs.takeWhile isDigit
  let rest := cs.dropWhile isDigit
  let n := digits.foldl (fun n c => n * 10 + (c.toNat - '0'.toNat)) 0
  if digits = [] ∨ (digits.head? = some '0' ∧ digits.length ≠ 1) then none
  else if rest.head? = some '.' ∨ rest.head? = some 'e' ∨ rest.head? = some 'E' then none
  else if n < bound then some (n, rest)
  else none

/-! ## Passing over values -/

/-- Pass over a string up to its closing quote. Escapes are checked for their form alone. -/
def skipStringBody? : Rest → Option Rest
  | [] => none
  | '"' :: cs => some cs
  | '\\' :: 'u' :: a :: b :: c :: d :: cs =>
    if (hexUnit? [a, b, c, d]).isSome then skipStringBody? cs else none
  | '\\' :: e :: cs => if (simpleEscape? e).isSome then skipStringBody? cs else none
  | '\\' :: [] => none
  | c :: cs => if c.toNat < 0x20 then none else skipStringBody? cs

/-- Pass over at least one digit. -/
def skipDigits? : Rest → Option Rest
  | c :: cs => if isDigit c then some (cs.dropWhile isDigit) else none
  | [] => none

/-- Pass over an exponent, if there is one. -/
def skipExponent? : Rest → Option Rest
  | 'e' :: cs | 'E' :: cs =>
    match cs with
    | '+' :: cs | '-' :: cs => skipDigits? cs
    | cs => skipDigits? cs
  | cs => some cs

/-- Pass over a fraction and an exponent, if there are any. -/
def skipFraction? : Rest → Option Rest
  | '.' :: cs => (skipDigits? cs).bind skipExponent?
  | cs => skipExponent? cs

/-- Pass over a number without its sign. -/
def skipNumber? : Rest → Option Rest
  | '0' :: cs => if (cs.head?.map isDigit).getD false then none else skipFraction? cs
  | cs => (skipDigits? cs).bind skipFraction?

mutual

/-- Pass over a value; `fuel` bounds the number of values and separators in it. -/
def skipValue? : Nat → Rest → Option Rest
  | 0, _ => none
  | fuel + 1, cs =>
    match skipBlanks cs with
    | '[' :: cs =>
      match skipBlanks cs with
      | ']' :: cs => some cs
      | cs => skipItems? fuel cs
    | '\x7b' :: cs =>
      match skipBlanks cs with
      | '\x7d' :: cs => some cs
      | cs => skipMembers? fuel cs
    | '"' :: cs => skipStringBody? cs
    | '-' :: cs => skipNumber? cs
    | 'n' :: cs => dropWord? ['u', 'l', 'l'] cs
    | 't' :: cs => dropWord? ['r', 'u', 'e'] cs
    | 'f' :: cs => dropWord? ['a', 'l', 's', 'e'] cs
    | cs => skipNumber? cs

/-- Pass over the values of a list up to its end. -/
def skipItems? : Nat → Rest → Option Rest
  | 0, _ => none
  | fuel + 1, cs => do
    let cs ← skipValue? fuel cs
    match skipBlanks cs with
    | ',' :: cs => skipItems? fuel cs
    | ']' :: cs => some cs
    | _ => none

/-- Pass over the members of a record up to its end. -/
def skipMembers? : Nat → Rest → Option Rest
  | 0, _ => none
  | fuel + 1, cs =>
    match skipBlanks cs with
    | '"' :: cs => do
      let cs ← skipStringBody? cs
      match skipBlanks cs with
      | ':' :: cs =>
        let cs ← skipValue? fuel cs
        match skipBlanks cs with
        | ',' :: cs => skipMembers? fuel cs
        | '\x7d' :: cs => some cs
        | _ => none
      | _ => none
    | _ => none

end

end Retrace.Json
