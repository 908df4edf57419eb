import Showcase.Style.Line

/-!
# Screen rows

A line becomes one screen row, and one more for every newline in it. A span that is cut by a
newline keeps its style on both sides; a part without characters leaves no span behind.

`rowsOf` works span by span with the row still open, so that a row can take the end of one span
and the start of the next.
-/

namespace Showcase.Screen

/-- The row with a part of a span added in the span's style, unless the part is empty. -/
def addPart (row : Line) (style : Span) (part : Text) : Line :=
  if part.isEmpty then row else ⟨row.spans ++ [{ style with text := part }]⟩

/-- The rows that the parts of a span complete, and the row they leave open. -/
def breakSpan (row : Line) (style : Span) : List Text → List Line × Line
  | [] => ([], row)
  | [part] => ([], addPart row style part)
  | part :: parts =>
    let (rows, last) := breakSpan {} style parts
    (addPart row style part :: rows, last)

/-- The rows of the spans that follow the open row. -/
def rowsOf (row : Line) : List Span → List Line
  | [] => [row]
  | span :: spans =>
    let (rows, last) := breakSpan row span (span.text.splitOn '\n')
    rows ++ rowsOf last spans

/-- The screen rows of a list of lines. -/
def rows (lines : List Line) : List Line := lines.flatMap fun line => rowsOf {} line.spans

theorem rows_append (a b : List Line) : rows (a ++ b) = rows a ++ rows b := List.flatMap_append

end Showcase.Screen
