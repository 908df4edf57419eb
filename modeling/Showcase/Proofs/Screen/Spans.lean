import Showcase.Proofs.Screen.Printed

/-!
# Spans in a row

Spans are printed from the left edge on, with a count of the columns in use.

**Layout** (`printSpans_eq_layout`). What is printed is what each span asks for by itself at the column
where its text starts in the line (`spanControls`): its style, as much of its text as there is room
for, and an end to the style. A span that starts at the right edge or behind it asks for nothing.

**Ink** (`inked_layout`). Controls write with a pen that they may change (`Pen.after`). What spans
write are the characters of the line up to the right edge, each in the style of its own span. The pen
is the same again behind every span (`pen_layout`), so no style reaches the next one.

**The count** (`printSpans_append`). Printing can be interrupted behind any span and taken up again
from the count of columns, which is never larger than the width.

Main result: `printSpans_lays_out`.
-/

namespace Showcase.Screen

/-! ## Ink -/

/-- The pen after a control. -/
def Pen.after (pen : Pen) : Control → Pen
  | .foreground red green blue => { pen with color := some (red, green, blue) }
  | .bold => { pen with bold := true }
  | .resetAttribute => {}
  | .resetColor => {}
  | _ => pen

/-- The characters that controls print, each in the style that the pen has by then. -/
def inked (pen : Pen) : List Control → List Cell
  | [] => []
  | c :: controls => c.printed.map (fun char => { char, pen }) ++ inked (pen.after c) controls

theorem inked_append (pen : Pen) (a b : List Control) :
    inked pen (a ++ b) = inked pen a ++ inked (a.foldl Pen.after pen) b := by
  induction a generalizing pen with
  | nil => rfl
  | cons c a ih => simp [inked, ih]

/-! ## Layout -/

/-- The controls of a span that starts in a column of a row of so many: its style, the part of its
text that fits, and an end to the style; nothing if no column is left. -/
def spanControls (width start : Nat) (span : Span) : List Control :=
  if start < width then
    Display.style span ++ [.print (span.text.take (width - start)), .resetAttribute, .resetColor]
  else []

/-- The controls of spans, each at the column where its text starts in the line. -/
def layout (width : Nat) : Nat → List Span → List Control
  | _, [] => []
  | start, span :: spans =>
    spanControls width start span ++ layout width (start + span.text.length) spans

theorem layout_of_le {width start : Nat} (h : width ≤ start) (spans : List Span) :
    layout width start spans = [] := by
  induction spans generalizing start with
  | nil => rfl
  | cons span spans ih =>
    have hnext : width ≤ start + span.text.length := by omega
    rw [layout, spanControls, if_neg (Nat.not_lt.2 h), ih hnext, List.nil_append]

/-- **Spans are printed where they are laid out**, and the count does not go past the edge. -/
theorem printSpans_eq_layout (width start : Nat) (spans : List Span) :
    (printSpans width (min start width) spans).1 = layout width start spans := by
  induction spans generalizing start with
  | nil => rfl
  | cons span spans ih =>
    rcases Nat.lt_or_ge start width with hlt | hge
    · have hnext : start + (span.text.take (width - start)).length =
          min (start + span.text.length) width := by
        rw [List.length_take]
        omega
      rw [Nat.min_eq_left (Nat.le_of_lt hlt), Display.printSpans_cons hlt, layout, spanControls,
        if_pos hlt, ← ih, ← hnext]
    · rw [Nat.min_eq_right hge, Display.printSpans_of_le (Nat.le_refl width), layout_of_le hge]

theorem pen_spanControls (width start : Nat) (span : Span) :
    (spanControls width start span).foldl Pen.after {} = {} := by
  rw [spanControls]
  by_cases h : start < width
  · rw [if_pos h, Display.style]
    cases span.bold <;> rfl
  · rw [if_neg h]
    rfl

theorem pen_layout (width start : Nat) (spans : List Span) :
    (layout width start spans).foldl Pen.after {} = {} := by
  induction spans generalizing start with
  | nil => rfl
  | cons span spans ih => rw [layout, List.foldl_append, pen_spanControls, ih]

theorem inked_spanControls (width start : Nat) (span : Span) :
    inked {} (spanControls width start span) =
      (Span.glyphs { span with text := span.text.take (width - start) }).map Glyph.cell := by
  rw [spanControls, Span.map_cell_glyphs, Span.pen]
  by_cases h : start < width
  · rw [if_pos h, Display.style]
    cases span.bold with
    | false => exact List.append_nil _
    | true => exact List.append_nil _
  · rw [if_neg h, Nat.sub_eq_zero_of_le (Nat.not_lt.1 h)]
    rfl

/-- **What spans write** are the characters of the line for which there is room, each in the style of
its span. -/
theorem inked_layout (width start : Nat) (spans : List Span) :
    inked {} (layout width start spans) = Line.cells ⟨spans⟩ (width - start) := by
  induction spans generalizing start with
  | nil => simp [layout, inked, Line.cells, Line.glyphs]
  | cons span spans ih =>
    rw [layout, inked_append, pen_spanControls, inked_spanControls, ih, Line.cells_cons,
      Nat.sub_sub]

/-! ## The count -/

theorem printSpans_append (width used : Nat) (a b : List Span) :
    let column := (printSpans width used a).2
    printSpans width used (a ++ b) =
      ((printSpans width used a).1 ++ (printSpans width column b).1,
        (printSpans width column b).2) := by
  induction a generalizing used with
  | nil => rfl
  | cons span a ih =>
    rcases Nat.lt_or_ge used width with hlt | hge
    · simp [Display.printSpans_cons hlt, ih]
    · simp [Display.printSpans_of_le hge]

/-- **Printing spans lays them out in a row.** The columns in use are as many as there are characters,
or all. The text that is printed is the text of the spans up to there, and the controls around it are
those of each span at its own column: nothing where no column is left. So every character has the
style of its span, and behind each span the pen is as it was before the first. Between spans the
count is never larger than the width, and printing goes on from it. -/
theorem printSpans_lays_out (width : Nat) (spans : List Span) :
    let controls := (printSpans width 0 spans).1
    let used := (printSpans width 0 spans).2
    used = min width (Line.text ⟨spans⟩).length ∧
      printed controls = (Line.text ⟨spans⟩).take used ∧
      controls = layout width 0 spans ∧
      inked {} controls = Line.cells ⟨spans⟩ width ∧
      ∀ before after, spans = before ++ after →
        let column := (printSpans width 0 before).2
        column ≤ width ∧
          (printSpans width 0 before).1.foldl Pen.after {} = {} ∧
          controls = (printSpans width 0 before).1 ++ (printSpans width column after).1 := by
  intro controls used
  have hused : used = min width (Line.text ⟨spans⟩).length := by
    show (printSpans width 0 spans).2 = _
    rw [Display.printSpans_used (Nat.zero_le width), Nat.zero_add, Nat.min_comm]
  have hlayout (spans : List Span) : (printSpans width 0 spans).1 = layout width 0 spans := by
    rw [← printSpans_eq_layout, Nat.zero_min]
  refine ⟨hused, ?_, hlayout spans, ?_, ?_⟩
  · rw [hused, List.take_eq_take_min, Nat.min_assoc, Nat.min_self, ← List.take_eq_take_min]
    exact printed_printSpans width 0 spans
  · show inked {} (printSpans width 0 spans).1 = _
    rw [hlayout, inked_layout, Nat.sub_zero]
  · rintro before after rfl
    refine ⟨?_, ?_, ?_⟩
    · rw [Display.printSpans_used (Nat.zero_le width)]
      exact Nat.min_le_right _ _
    · rw [hlayout, pen_layout]
    · exact congrArg Prod.fst (printSpans_append width 0 before after)

/-- A span that is cut at the edge, after one without text and before one that is left out. -/
example :
    let spans : List Span :=
      [{ text := [], color := .pathBlue }, { text := "ab", color := .white, bold := true },
        { text := "c", color := .white }]
    printSpans 1 0 spans =
      ([foregroundOf .pathBlue, .print [], .resetAttribute, .resetColor,
        foregroundOf .white, .bold, .print ['a'], .resetAttribute, .resetColor], 1) := by
  decide

end Showcase.Screen
