import Showcase.Text.Numeral

/-!
# Binary floating point numbers

The numbers of 64-bit binary floating point, held as an exact product: a finite number is
`mantissa * 2 ^ exponent` with a sign, where the mantissa is below `2 ^ 53` and the exponent at
least `-1074`. Everything is computed on natural numbers.

`Binary64.ofDecimal` rounds a decimal to the nearest of these numbers, a tie to the even mantissa.
-/

namespace Showcase

inductive Binary64 where
  | finite (negative : Bool) (mantissa : Nat) (exponent : Int)
  | infinity (negative : Bool)
  | nan
  deriving DecidableEq, Repr

namespace Binary64

/-- The quotient rounded to the nearest whole number, a half to the even neighbour. -/
def roundedQuotient (numerator denominator : Nat) : Nat :=
  let quotient := numerator / denominator
  let rest := numerator % denominator
  if 2 * rest < denominator then quotient
  else if denominator < 2 * rest then quotient + 1
  else quotient + quotient % 2

/-- The fraction divided by `base ^ exponent`. -/
def scaled (base : Nat) (numerator denominator : Nat) (exponent : Int) : Nat × Nat :=
  if exponent < 0 then (numerator * Nat.pow base exponent.natAbs, denominator)
  else (numerator, denominator * Nat.pow base exponent.natAbs)

/-- The exponent at which a positive fraction has a mantissa of 53 digits, or the least one. -/
def exponentOf (numerator denominator : Nat) : Int :=
  let guess : Int := max ((numerator.log2 : Int) - (denominator.log2 : Int) - 53) (-1074)
  let (n, d) := scaled 2 numerator denominator guess
  if Nat.pow 2 53 ≤ n / d then guess + 1 else guess

/-- The number nearest to a positive fraction. -/
def ofFraction (negative : Bool) (numerator denominator : Nat) : Binary64 :=
  let exponent := exponentOf numerator denominator
  let (n, d) := scaled 2 numerator denominator exponent
  let rounded := roundedQuotient n d
  let (mantissa, exponent) :=
    if rounded = Nat.pow 2 53 then (Nat.pow 2 52, exponent + 1) else (rounded, exponent)
  if 971 < exponent then .infinity negative else .finite negative mantissa exponent

/-- The number nearest to `digits * 10 ^ scale`. Decimals of more than 310 places before the point
are infinite and those below `10 ^ -330` are zero, which is known without the power of ten. -/
def ofDecimal (negative : Bool) (digits : Nat) (scale : Int) : Binary64 :=
  let places : Int := (decimal digits).length + scale
  if digits = 0 ∨ places < -330 then .finite negative 0 (-1074)
  else if 310 < places then .infinity negative
  else
    let (n, d) := scaled 10 digits 1 (-scale)
    ofFraction negative n d

end Binary64

end Showcase
