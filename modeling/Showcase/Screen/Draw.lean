import Showcase.Screen.Rows
import Showcase.Screen.Terminal
import Showcase.Shell.Basic

/-!
# Drawing the shell

The screen shows the last rows of the scrollback from the top on, as many as leave room for one
more, and below them the prompt with the input and the cursor behind it. Rows are cut at the
right edge.
-/

namespace Showcase.Screen

/-- The controls for spans in a row of so many columns, from a column on, and the column after the
last character. -/
def printSpans (width : Nat) : Nat → List Span → List Control × Nat
  | used, [] => ([], used)
  | used, span :: spans =>
    if width ≤ used then ([], used)
    else
      let shown := span.text.take (width - used)
      let style := foregroundOf span.color :: if span.bold then [.bold] else []
      let (rest, last) := printSpans width (used + shown.length) spans
      (style ++ .print shown :: .resetAttribute :: .resetColor :: rest, last)

/-- The controls for rows from the given one on downwards. -/
def drawRows (width : Nat) : Nat → List Line → List Control
  | _, [] => []
  | y, row :: rows =>
    .moveTo 0 (UInt16.ofNat y) :: (printSpans width 0 row.spans).1 ++ drawRows width (y + 1) rows

/-- The rows of the scrollback for which there is room. -/
def visibleRows (height : UInt16) (scrollback : List Line) : List Line :=
  let all := rows scrollback
  all.drop (all.length - (height.toNat - 1))

/-- The prompt with the input behind it. -/
def promptSpans (s : Shell) : List Span :=
  s.prompt.spans ++ [{ text := s.session.input, color := s.theme.output }]

/-- The controls that draw the shell. -/
def draw (width height : UInt16) (s : Shell) : List Control :=
  let visible := visibleRows height s.session.scrollback
  let promptRow := UInt16.ofNat visible.length
  let (prompt, used) := printSpans width.toNat 0 (promptSpans s)
  .clear :: drawRows width.toNat 0 visible ++ .moveTo 0 promptRow :: prompt ++
    [.moveTo (UInt16.ofNat (min used (width.toNat - 1))) promptRow, .showCursor]

end Showcase.Screen
