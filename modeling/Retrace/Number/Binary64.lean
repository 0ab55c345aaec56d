/-!
# Numbers with 53 significant bits

Nonnegative fractions, rounded to the nearest number of 53 significant bits as the arithmetic unit does, all in
exact natural arithmetic. The fractions here are far from the limits of the exponent.
-/

namespace Retrace.Number

/-- `num / den` to the nearest integer, a half to the even neighbour. -/
def divRoundEven (num den : Nat) : Nat :=
  let q := num / den
  let r := 2 * (num % den)
  if den < r ∨ (r = den ∧ q % 2 = 1) then q + 1 else q

/-- The nonnegative number `num / 2 ^ scale`. -/
structure Dyadic where
  num : Nat
  scale : Nat
  deriving DecidableEq, Repr

namespace Dyadic

/-- The number of bits by which `n` exceeds 53 bits. -/
def excessBits (n : Nat) : Nat := Nat.log2 n - 52

/-- `num / den` rounded to 53 bits: the quotient is taken with `scale` binary places, enough for 53 bits, and the
bits beyond 53 are rounded away, the rest of the division included. -/
def ofFraction (num den scale : Nat) : Dyadic :=
  let n := num <<< scale
  let k := excessBits (n / den)
  ⟨divRoundEven n (den <<< k) <<< k, scale⟩

/-- The sum of two numbers, rounded to 53 bits. -/
def add (a b : Dyadic) : Dyadic :=
  ofFraction ((a.num <<< b.scale) + (b.num <<< a.scale)) (1 <<< (a.scale + b.scale)) (max a.scale b.scale)

/-- The number times 100 to the nearest integer, a half to the even neighbour. -/
def hundredths (a : Dyadic) : Nat := divRoundEven (a.num * 100) (1 <<< a.scale)

end Dyadic

/-- The decimal `digits * 10 ^ exponent` is too large for a double: it rounds to 2^1024 or more. Long numbers are
decided by their length alone. -/
def overflowsDouble (digits : Nat) (exponent : Int) : Bool :=
  if digits = 0 then false
  else
    let places : Int := (Nat.log2 digits / 4 : Nat) + exponent
    if places > 400 then true
    else if places < -400 then false
    else
      let limit : Nat := (1 <<< 1024) - (1 <<< 970)
      if 0 ≤ exponent then limit ≤ digits * Nat.pow 10 exponent.toNat
      else limit * Nat.pow 10 (-exponent).toNat ≤ digits

end Retrace.Number
