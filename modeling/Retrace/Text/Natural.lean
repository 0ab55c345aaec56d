/-!
# Natural numbers in decimal

Reading a bounded natural number from a text, with the reason where it cannot be read.
-/

namespace Retrace.Text

/-- Why a text is no natural number below the bound. -/
inductive NaturalError where
  | empty
  | invalidDigit
  | tooLarge
  deriving DecidableEq, Repr

/-- The wording of the error. -/
def NaturalError.message : NaturalError → String
  | .empty => "cannot parse integer from empty string"
  | .invalidDigit => "invalid digit found in string"
  | .tooLarge => "number too large to fit in target type"

/-- The value of an ASCII digit. -/
def digitValue? (c : Char) : Option Nat :=
  if '0' ≤ c ∧ c ≤ '9' then some (c.toNat - '0'.toNat) else none

/-- Append the digit `c` to `n`, staying below `bound`. -/
def appendDigit (bound n : Nat) (c : Char) : Except NaturalError Nat :=
  match digitValue? c with
  | none => .error .invalidDigit
  | some d => if n * 10 + d < bound then .ok (n * 10 + d) else .error .tooLarge

/-- Decimal digits, perhaps after one `+`; the first character that does not fit decides the error. -/
def parseNatural (bound : Nat) (s : String) : Except NaturalError Nat :=
  match s.toList with
  | [] => .error .empty
  | '+' :: c :: cs => (c :: cs).foldlM (appendDigit bound) 0
  | cs => cs.foldlM (appendDigit bound) 0

/-- A natural number of 64 bits. -/
def parseWord (s : String) : Except NaturalError Nat := parseNatural UInt64.size s

end Retrace.Text
