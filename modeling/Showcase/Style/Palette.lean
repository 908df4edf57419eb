import Showcase.Style.Color

/-!
# Palettes and themes

A palette holds colors as they were written; a theme holds them as colors. A palette entry that
is not a color falls back to the default of its role, so every palette gives a theme.
-/

namespace Showcase

/-- The colors in use, by role. -/
structure Theme where
  prompt : Color
  path : Color
  output : Color
  error : Color
  directory : Color
  deriving DecidableEq, Repr

/-- The written colors, by role. -/
structure Palette where
  prompt : Text := "#00FF00"
  path : Text := "#3B82F6"
  output : Text := "#FFFFFF"
  error : Text := "#00FF00"
  directory : Text := "#3B82F6"
  deriving DecidableEq, Repr

/-- The colors of a palette, each with the fallback of its role. -/
def Palette.theme (p : Palette) : Theme where
  prompt := (Color.parse? p.prompt).getD .terminalGreen
  path := (Color.parse? p.path).getD .pathBlue
  output := (Color.parse? p.output).getD .white
  error := (Color.parse? p.error).getD .terminalGreen
  directory := (Color.parse? p.directory).getD .pathBlue

end Showcase
