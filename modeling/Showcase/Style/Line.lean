import Showcase.Style.Color

/-!
# Lines of styled text

A line is a sequence of spans, each with one color and weight. A span may hold newlines; a line
is cut into screen rows only when it is drawn.
-/

namespace Showcase

/-- A run of text in one style. -/
structure Span where
  text : Text
  color : Color
  bold : Bool := false
  deriving DecidableEq, Repr

/-- A line of output or the prompt. -/
structure Line where
  spans : List Span := []
  deriving DecidableEq, Repr

namespace Line

/-- One span that is not bold. -/
def plain (text : Text) (color : Color) : Line := ⟨[{ text, color }]⟩

/-- The line with one more span, not bold, at its end. -/
def add (line : Line) (text : Text) (color : Color) : Line :=
  ⟨line.spans ++ [{ text, color : Span }]⟩

/-- The characters of all spans. -/
def text (line : Line) : Text := line.spans.flatMap Span.text

theorem text_add (line : Line) (t : Text) (color : Color) :
    (line.add t color).text = line.text ++ t := by
  simp [add, text]

/-- The line shows no character. -/
def isEmpty (line : Line) : Bool := line.spans.all fun s => s.text.isEmpty

end Line

end Showcase
