import Showcase.Text.Basic

/-!
# Numerals

Digits in base sixteen and the decimal text of whole numbers.
-/

namespace Showcase

/-- The value of a digit in base sixteen, of either case. -/
def hexDigit? (c : Char) : Option Nat :=
  if '0' ≤ c ∧ c ≤ '9' then some (c.toNat - '0'.toNat)
  else if 'a' ≤ c ∧ c ≤ 'f' then some (c.toNat - 'a'.toNat + 10)
  else if 'A' ≤ c ∧ c ≤ 'F' then some (c.toNat - 'A'.toNat + 10)
  else none

/-- The upper-case digit of a value below sixteen. -/
def upperHexDigit (n : Nat) : Char :=
  if n < 10 then Char.ofNat ('0'.toNat + n) else Char.ofNat ('A'.toNat + (n - 10))

/-- Two upper-case digits in base sixteen. -/
def hexByte (b : UInt8) : Text := [upperHexDigit (b.toNat / 16), upperHexDigit (b.toNat % 16)]

/-- The decimal digits of a natural number. -/
def decimal (n : Nat) : Text := Nat.toDigits 10 n

/-- The decimal digits of an integer, after a minus sign if it is negative. -/
def signedDecimal (i : Int) : Text :=
  if i < 0 then '-' :: decimal i.natAbs else decimal i.natAbs

/-- Decimal digits with zeros in front, up to the given width. -/
def paddedDecimal (width n : Nat) : Text :=
  List.replicate (width - (decimal n).length) '0' ++ decimal n

/-- The value of decimal digits read from left to right. -/
def ofDigits (base : Nat) (digits : List Nat) : Nat := digits.foldl (base * · + ·) 0

end Showcase
