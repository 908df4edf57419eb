import Mathlib.Algebra.Ring.Nat
import Showcase.Proofs.Text.Cutting
import Showcase.Screen.Rows

/-!
# The characters of screen rows

A line is more than its text: every character has the style of the span that it is in. `Line.glyphs`
is the line character by character, with the styles and without the cuts between spans.

**Cutting into rows loses the newlines and nothing else** (`glyphs_rows`): the rows show the
characters of the lines in order, each in its own style, and no row shows a newline.

**Where the newlines were** (`map_text_rows_singleton`): the rows of a line are the parts of its text
between them, so their number is known and the text can be put together again.

**Spans** (`Line.IsSolid`): no row has an empty one, so cutting rows again leaves them as they are.

Main result: `rows_lossless`.
-/

namespace Showcase

/-- A character in a style. -/
structure Glyph where
  char : Char
  color : Color
  bold : Bool
  deriving DecidableEq, Repr

/-- The characters of a span in its style. -/
def Span.glyphs (s : Span) : List Glyph :=
  s.text.map fun c => { char := c, color := s.color, bold := s.bold }

namespace Line

/-- The characters of all spans, each in the style of its span. -/
def glyphs (line : Line) : List Glyph := line.spans.flatMap Span.glyphs

theorem glyphs_append (a b : List Span) :
    glyphs ⟨a ++ b⟩ = glyphs ⟨a⟩ ++ glyphs ⟨b⟩ := List.flatMap_append

theorem glyphs_cons (s : Span) (spans : List Span) :
    glyphs ⟨s :: spans⟩ = s.glyphs ++ glyphs ⟨spans⟩ := List.flatMap_cons

theorem text_cons (s : Span) (spans : List Span) :
    text ⟨s :: spans⟩ = s.text ++ text ⟨spans⟩ := List.flatMap_cons

theorem map_char_glyphs (line : Line) : line.glyphs.map Glyph.char = line.text := by
  rw [glyphs, text, List.map_flatMap]
  congr 1
  funext s
  simp [Span.glyphs, Function.comp_def]

/-- No span of the line is empty. -/
def IsSolid (line : Line) : Prop := ∀ span ∈ line.spans, span.text ≠ []

end Line

namespace Screen

variable {row : Line} {lines : List Line}

/-! ## Glyphs -/

/-- The glyphs that are shown at all. -/
def shown (glyphs : List Glyph) : List Glyph := glyphs.filter fun g => g.char ≠ '\n'

theorem shown_append (a b : List Glyph) : shown (a ++ b) = shown a ++ shown b :=
  List.filter_append a b

theorem glyphs_parts (span : Span) :
    Span.glyphs { span with text := (span.text.splitOn '\n').flatten } = shown span.glyphs := by
  rw [List.splitOn_eq_splitOnP, Text.flatten_splitOnP]
  simp only [Span.glyphs, shown, List.filter_map]
  congr 2
  funext c
  by_cases hc : c = '\n' <;> simp [hc]

theorem glyphs_addPart (row : Line) (style : Span) (part : Text) :
    (addPart row style part).glyphs = row.glyphs ++ Span.glyphs { style with text := part } := by
  rw [addPart]
  split
  · next h => simp [Span.glyphs, List.isEmpty_iff.1 h]
  · exact List.flatMap_append.trans (by simp [Line.glyphs])

theorem glyphs_breakSpan (row : Line) (style : Span) (parts : List Text) :
    (breakSpan row style parts).1.flatMap Line.glyphs ++ (breakSpan row style parts).2.glyphs =
      row.glyphs ++ Span.glyphs { style with text := parts.flatten } := by
  fun_induction breakSpan row style parts with
  | case1 row => simp [Span.glyphs]
  | case2 row part => simp [glyphs_addPart]
  | case3 row part parts hne rows last heq ih =>
    rw [heq] at ih
    rw [List.flatMap_cons, List.append_assoc, ih, glyphs_addPart]
    simp [Line.glyphs, Span.glyphs]

theorem glyphs_rowsOf (row : Line) (spans : List Span) :
    (rowsOf row spans).flatMap Line.glyphs = row.glyphs ++ shown (Line.glyphs ⟨spans⟩) := by
  induction spans generalizing row with
  | nil => simp [rowsOf, Line.glyphs, shown]
  | cons span spans ih =>
    have hbreak := glyphs_breakSpan row span (span.text.splitOn '\n')
    rw [rowsOf, List.flatMap_append, ih, ← List.append_assoc, hbreak, glyphs_parts,
      Line.glyphs_cons, shown_append, List.append_assoc]

/-- **Cutting into rows loses the newlines and nothing else.** -/
theorem glyphs_rows (lines : List Line) :
    (rows lines).flatMap Line.glyphs = shown (lines.flatMap Line.glyphs) := by
  rw [rows, List.flatMap_assoc, shown, List.filter_flatMap]
  congr 1
  funext line
  rw [glyphs_rowsOf]
  rfl

theorem mem_text_of_mem_rows {c : Char} (hrow : row ∈ rows lines) (hc : c ∈ row.text) :
    c ≠ '\n' ∧ ∃ line ∈ lines, c ∈ line.text := by
  rw [← Line.map_char_glyphs] at hc
  obtain ⟨g, hg, rfl⟩ := List.mem_map.1 hc
  have hall : g ∈ shown (lines.flatMap Line.glyphs) := by
    rw [← glyphs_rows]
    exact List.mem_flatMap.2 ⟨row, hrow, hg⟩
  obtain ⟨hmem, hne⟩ := List.mem_filter.1 hall
  obtain ⟨line, hline, hgline⟩ := List.mem_flatMap.1 hmem
  refine ⟨by simpa using hne, line, hline, ?_⟩
  rw [← Line.map_char_glyphs]
  exact List.mem_map.2 ⟨g, hgline, rfl⟩

/-! ## Texts -/

theorem text_addPart (row : Line) (style : Span) (part : Text) :
    (addPart row style part).text = row.text ++ part := by
  rw [addPart]
  split
  · next h => rw [List.isEmpty_iff.1 h, List.append_nil]
  · simp [Line.text]

/-- The rows of a span, each with a newline behind it, and the row it leaves open show what the open
row showed and the parts with newlines between them. -/
theorem text_breakSpan (row : Line) (style : Span) (parts : List Text) :
    (breakSpan row style parts).1.flatMap (fun r => r.text ++ ['\n']) ++
        (breakSpan row style parts).2.text =
      row.text ++ Text.join ['\n'] parts := by
  fun_induction breakSpan row style parts with
  | case1 row => simp [Text.join]
  | case2 row part => simp [Text.join, text_addPart]
  | case3 row part parts hne rows last heq ih =>
    have hparts : parts ≠ [] := by simpa using hne
    rw [heq] at ih
    rw [List.flatMap_cons, List.append_assoc, ih, text_addPart, Text.join, Text.join,
      List.intercalate_cons_of_ne_nil hparts]
    simp [Line.text]

theorem rowsOf_ne_nil (row : Line) (spans : List Span) : rowsOf row spans ≠ [] := by
  induction spans generalizing row with
  | nil => simp [rowsOf]
  | cons span spans ih => simp [rowsOf, ih]

/-- The rows joined by newlines show the open row and the spans. -/
theorem join_rowsOf (row : Line) (spans : List Span) :
    Text.join ['\n'] ((rowsOf row spans).map Line.text) = row.text ++ Line.text ⟨spans⟩ := by
  induction spans generalizing row with
  | nil => simp [rowsOf, Text.join, Line.text]
  | cons span spans ih =>
    have hbreak := text_breakSpan row span (span.text.splitOn '\n')
    rw [Text.join, List.intercalate_splitOn] at hbreak
    have hlast (row : Line) : (rowsOf row spans).map Line.text ≠ [] := by
      simp [rowsOf_ne_nil]
    rw [rowsOf, List.map_append, Text.join_append (hlast _), ih, List.flatMap_map,
      ← List.append_assoc, hbreak]
    simp [Line.text]

theorem rows_singleton (line : Line) : rows [line] = rowsOf {} line.spans := by
  simp [rows]

/-- The rows of a line show its parts between the newlines. -/
theorem map_text_rows_singleton (line : Line) :
    (rows [line]).map Line.text = line.text.splitOn '\n' := by
  have hparts : ∀ part ∈ (rows [line]).map Line.text, '\n' ∉ part := by
    intro part hpart hmem
    obtain ⟨row, hrow, rfl⟩ := List.mem_map.1 hpart
    exact (mem_text_of_mem_rows hrow hmem).1 rfl
  have hjoin : Text.join ['\n'] ((rows [line]).map Line.text) = line.text := by
    rw [rows_singleton, join_rowsOf]
    simp [Line.text]
  have hne : (rows [line]).map Line.text ≠ [] := by
    rw [rows_singleton]
    simp [rowsOf_ne_nil]
  rw [← hjoin, Text.join, List.splitOn_intercalate _ hparts hne]

theorem length_rows (lines : List Line) :
    (rows lines).length = (lines.map fun line => line.text.count '\n' + 1).sum := by
  induction lines with
  | nil => rfl
  | cons line lines ih =>
    have hline : (rows [line]).length = line.text.count '\n' + 1 := by
      rw [← Text.length_splitOn, ← map_text_rows_singleton, List.length_map]
    rw [List.map_cons, List.sum_cons, ← hline, ← ih, ← List.length_append, ← rows_append,
      List.singleton_append]

/-! ## Spans -/

theorem isSolid_addPart (hrow : row.IsSolid) (style : Span) (part : Text) :
    (addPart row style part).IsSolid := by
  rw [addPart]
  split
  · exact hrow
  · next hpart =>
    refine List.forall_mem_append.2 ⟨hrow, List.forall_mem_singleton.2 ?_⟩
    simpa using hpart

theorem isSolid_breakSpan (hrow : row.IsSolid) (style : Span) (parts : List Text) :
    (∀ r ∈ (breakSpan row style parts).1, r.IsSolid) ∧ (breakSpan row style parts).2.IsSolid := by
  fun_induction breakSpan row style parts with
  | case1 row => exact ⟨List.forall_mem_nil _, hrow⟩
  | case2 row part => exact ⟨List.forall_mem_nil _, isSolid_addPart hrow style part⟩
  | case3 row part parts hne rows last heq ih =>
    rw [heq] at ih
    obtain ⟨hrows, hlast⟩ := ih (List.forall_mem_nil _)
    exact ⟨List.forall_mem_cons.2 ⟨isSolid_addPart hrow style part, hrows⟩, hlast⟩

theorem isSolid_rowsOf (hrow : row.IsSolid) (spans : List Span) :
    ∀ r ∈ rowsOf row spans, r.IsSolid := by
  induction spans generalizing row with
  | nil => exact List.forall_mem_singleton.2 hrow
  | cons span spans ih =>
    obtain ⟨hrows, hlast⟩ := isSolid_breakSpan hrow span (span.text.splitOn '\n')
    rw [rowsOf]
    exact List.forall_mem_append.2 ⟨hrows, ih hlast⟩

theorem isSolid_of_mem_rows (hrow : row ∈ rows lines) : row.IsSolid := by
  obtain ⟨line, -, hmem⟩ := List.mem_flatMap.1 hrow
  exact isSolid_rowsOf (List.forall_mem_nil _) line.spans row hmem

theorem rowsOf_eq_singleton {spans : List Span} (row : Line)
    (h : ∀ span ∈ spans, span.text ≠ [] ∧ '\n' ∉ span.text) :
    rowsOf row spans = [⟨row.spans ++ spans⟩] := by
  induction spans generalizing row with
  | nil => rw [rowsOf, List.append_nil]
  | cons span spans ih =>
    obtain ⟨⟨hne, hnewline⟩, hspans⟩ := List.forall_mem_cons.1 h
    have hadd : addPart row span span.text = ⟨row.spans ++ [span]⟩ := by
      simp [addPart, hne]
    rw [rowsOf, List.splitOn_eq_singleton hnewline, breakSpan, hadd]
    simp [ih _ hspans]

theorem rows_rows (lines : List Line) : rows (rows lines) = rows lines := by
  have hrow : ∀ row ∈ rows lines, rowsOf {} row.spans = [row] := by
    intro row hrow
    refine rowsOf_eq_singleton {} fun span hspan => ⟨isSolid_of_mem_rows hrow span hspan, ?_⟩
    intro hnewline
    have hmem : '\n' ∈ row.text := List.mem_flatMap.2 ⟨span, hspan, hnewline⟩
    exact (mem_text_of_mem_rows hrow hmem).1 rfl
  conv_lhs => rw [rows]
  rw [List.flatMap_congr hrow]
  simp

/-- **Cutting lines into rows loses and invents nothing.** There is a row for every line and one more
for every newline in it; the rows of a line joined by newlines have its text; all characters but the
newlines are shown in order, each in its own style. No row has a newline or an empty span, so to cut
rows again changes nothing. -/
theorem rows_lossless (lines : List Line) :
    (rows lines).length = (lines.map fun line => line.text.count '\n' + 1).sum ∧
      (∀ line, Text.join ['\n'] ((rows [line]).map Line.text) = line.text) ∧
      (rows lines).flatMap Line.glyphs =
        (lines.flatMap Line.glyphs).filter (fun g => g.char ≠ '\n') ∧
      (∀ row ∈ rows lines, '\n' ∉ row.text ∧ row.IsSolid) ∧
      (∀ more, rows (lines ++ more) = rows lines ++ rows more) ∧
      rows (rows lines) = rows lines := by
  refine ⟨length_rows lines, ?_, glyphs_rows lines, ?_, rows_append lines, rows_rows lines⟩
  · intro line
    rw [map_text_rows_singleton, Text.join, List.intercalate_splitOn]
  · intro row hrow
    refine ⟨?_, isSolid_of_mem_rows hrow⟩
    intro hmem
    exact (mem_text_of_mem_rows hrow hmem).1 rfl

end Screen

end Showcase
