import Showcase.Style.Color

/-!
# Terminal controls

What a terminal can be told, and the characters that tell it so. Positions count from zero here
and from one on the wire.
-/

namespace Showcase.Screen

inductive Control where
  | clear
  | moveTo (column row : UInt16)
  | foreground (red green blue : UInt8)
  | bold
  | print (text : Text)
  | resetAttribute
  | resetColor
  | showCursor
  deriving DecidableEq, Repr

/-- The color without its opacity, which terminals do not know. -/
def foregroundOf (c : Color) : Control := .foreground c.red c.green c.blue

/-- A control sequence. -/
def escapeSequence (s : Text) : Text := '\x1b' :: '[' :: s

/-- The characters of a control. -/
def Control.encode : Control → Text
  | .clear => escapeSequence "2J"
  | .moveTo column row =>
    escapeSequence (decimal (row.toNat + 1) ++ ';' :: decimal (column.toNat + 1) ++ ['H'])
  | .foreground red green blue =>
    escapeSequence ("38;2;".toList ++ decimal red.toNat ++ ';' :: decimal green.toNat ++
      ';' :: decimal blue.toNat ++ ['m'])
  | .bold => escapeSequence "1m"
  | .print text => text
  | .resetAttribute => escapeSequence "0m"
  | .resetColor => escapeSequence "0m"
  | .showCursor => escapeSequence "?25h"

/-- The characters of controls in order. -/
def encode (controls : List Control) : Text := controls.flatMap Control.encode

end Showcase.Screen
