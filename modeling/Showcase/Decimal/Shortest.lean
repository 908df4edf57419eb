import Showcase.Decimal.Binary64

/-!
# Shortest decimal text

The text of a floating point number has the fewest digits that read back as the same number. The
decimals that read back fill an interval around it, whose ends belong to it when the mantissa is
even. On each grid of multiples of a power of ten, from the coarsest on, the two multiples next to
the number are tried; the first grid with a hit gives the digits, the nearer hit if there are two,
and the upper one on a tie.

The digits are written positionally, however many zeros that takes, and always with a fraction.
-/

namespace Showcase.Binary64

/-- The interval of decimals that read back as one number: its ends and the number itself, all
over one denominator. -/
structure Interval where
  low : Nat
  value : Nat
  high : Nat
  denominator : Nat
  closed : Bool

/-- The interval around `mantissa * 2 ^ exponent`: half a step to each side, but half of the
smaller step below a power of two. -/
def Interval.around (mantissa : Nat) (exponent : Int) : Interval :=
  let below := if mantissa = Nat.pow 2 52 ∧ -1074 < exponent then 1 else 2
  let (unit, denominator) := scaled 2 1 1 (2 - exponent)
  { low := (4 * mantissa - below) * unit
    value := 4 * mantissa * unit
    high := (4 * mantissa + 2) * unit
    denominator
    closed := mantissa % 2 = 0 }

/-- The multiple `count * 10 ^ power` reads back as the number. -/
def Interval.holds (i : Interval) (count : Nat) (power : Int) : Bool :=
  let (c, d) := scaled 10 (count * i.denominator) 1 (-power)
  if i.closed then i.low * d ≤ c ∧ c ≤ i.high * d else i.low * d < c ∧ c < i.high * d

/-- The multiple of `10 ^ power` that reads back and is nearest to the number, if there is one. -/
def Interval.onGrid? (i : Interval) (power : Int) : Option Nat :=
  let (n, d) := scaled 10 i.value i.denominator power
  let down := n / d
  let preferUp := d ≤ 2 * (n % d)
  match i.holds down power, i.holds (down + 1) power with
  | true, true => some (if preferUp then down + 1 else down)
  | true, false => some down
  | false, true => some (down + 1)
  | false, false => none

/-- The powers of ten whose multiples are tried, from the greatest of any number on down. -/
def gridPowers : List Int := (List.range 640).map fun (n : Nat) => 309 - (n : Int)

/-- The fewest digits that read back, with the power of ten of the last one. -/
def shortest (mantissa : Nat) (exponent : Int) : Nat × Int :=
  let interval := Interval.around mantissa exponent
  (gridPowers.findSome? fun power => (interval.onGrid? power).map fun count => (count, power)).getD
    (0, 0)

/-- The digits with the point at its place, and at least one digit on either side of it. -/
def positional (digits : Nat) (power : Int) : Text :=
  let written := decimal digits
  if 0 ≤ power then written ++ List.replicate power.natAbs '0' ++ ".0".toList
  else
    let padded := List.replicate (power.natAbs + 1 - written.length) '0' ++ written
    let whole := padded.length - power.natAbs
    padded.take whole ++ '.' :: padded.drop whole

/-- The shortest text that reads back, with a fraction. -/
def text : Binary64 → Text
  | .nan => "NaN"
  | .infinity negative => if negative then "-inf" else "inf"
  | .finite negative mantissa exponent =>
    let (digits, power) := if mantissa = 0 then (0, 0) else shortest mantissa exponent
    if negative then '-' :: positional digits power else positional digits power

end Showcase.Binary64
