import Showcase.Text.Numeral

/-!
# Colors

An RGBA color and its written form: `#RRGGBB`, or `#RRGGBBAA` when the color is not opaque.

`Color.text` always writes upper-case digits. `Color.parse?` reads either length in either case;
a channel may also be a plus sign and one digit.
-/

namespace Showcase

/-- A color with an alpha channel; it is opaque unless said otherwise. -/
structure Color where
  red : UInt8
  green : UInt8
  blue : UInt8
  alpha : UInt8 := 255
  deriving DecidableEq, Repr

namespace Color

def white : Color := ⟨255, 255, 255, 255⟩

def terminalGreen : Color := ⟨0, 255, 0, 255⟩

def pathBlue : Color := ⟨0x3B, 0x82, 0xF6, 255⟩

/-- The same color at another opacity. -/
def withAlpha (c : Color) (alpha : UInt8) : Color := { c with alpha }

/-- The written form; the alpha channel is left out of an opaque color. -/
def text (c : Color) : Text :=
  '#' :: hexByte c.red ++ hexByte c.green ++ hexByte c.blue ++
    if c.alpha = 255 then [] else hexByte c.alpha

/-- One channel from its two characters: two digits, or a plus sign and one digit. -/
def channel? (high low : Char) : Option UInt8 :=
  if high = '+' then (hexDigit? low).map UInt8.ofNat
  else (hexDigit? high).bind fun h => (hexDigit? low).map fun l => UInt8.ofNat (16 * h + l)

/-- Reads `#` and six or eight channel characters. -/
def parse? : Text → Option Color
  | ['#', r₁, r₂, g₁, g₂, b₁, b₂] => do
    pure { red := ← channel? r₁ r₂, green := ← channel? g₁ g₂, blue := ← channel? b₁ b₂ }
  | ['#', r₁, r₂, g₁, g₂, b₁, b₂, a₁, a₂] => do
    pure {
      red := ← channel? r₁ r₂, green := ← channel? g₁ g₂, blue := ← channel? b₁ b₂,
      alpha := ← channel? a₁ a₂ }
  | _ => none

end Color

end Showcase
