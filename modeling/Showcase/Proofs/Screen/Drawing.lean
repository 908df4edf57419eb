import Mathlib.Tactic.SplitIfs
import Showcase.Proofs.Screen.Display
import Showcase.Screen.Draw
import Showcase.Shell.Operation

/-!
# What a drawn shell looks like

**Spans.** The controls for spans type the characters of the spans one after the other, each in its
own style, up to the right edge, and leave the pen as it was (`perform_printSpans`).

**Rows.** So drawing rows one below the other paints them on the display (`perform_drawRows`), and
what is in a cell afterwards is read off the rows (`cells_paint`).

**The shell** is drawn as the last rows of its scrollback and the prompt with the input
(`draw_eq`). The screen of a display on which it was drawn shows these rows and nothing else
(`draw_shows`).
-/

namespace Showcase

/-- What a screen shows of a character: the opacity of its color does not matter. -/
def Glyph.cell (g : Glyph) : Screen.Cell where
  char := g.char
  pen := { color := some (g.color.red, g.color.green, g.color.blue), bold := g.bold }

/-- The pen that writes a span. -/
def Span.pen (span : Span) : Screen.Pen where
  color := some (span.color.red, span.color.green, span.color.blue)
  bold := span.bold

theorem Span.map_cell_glyphs (span : Span) :
    span.glyphs.map Glyph.cell = span.text.map fun c => { char := c, pen := span.pen } := by
  simp [glyphs, Glyph.cell, pen, Function.comp_def]

/-- What a row of so many columns shows of a line. -/
def Line.cells (line : Line) (width : Nat) : List Screen.Cell :=
  (line.glyphs.take width).map Glyph.cell

theorem Line.cells_cons (span : Span) (spans : List Span) (width : Nat) :
    cells ⟨span :: spans⟩ width =
      (Span.glyphs { span with text := span.text.take width }).map Glyph.cell ++
        cells ⟨spans⟩ (width - span.text.length) := by
  simp [cells, glyphs_cons, Span.glyphs, List.take_append]

namespace Screen

theorem toNat_ofNat {n : Nat} (bound : UInt16) (h : n < bound.toNat) :
    (UInt16.ofNat n).toNat = n :=
  UInt16.toNat_ofNat_of_lt (Nat.lt_trans h bound.toNat_lt)

namespace Display

variable {d : Display}

/-! ## Typing -/

theorem lay_lay (cells : Nat → Nat → Option Cell) (row column : Nat) (a b : List Cell) :
    lay (lay cells row column a) row (column + a.length) b = lay cells row column (a ++ b) := by
  funext r k
  simp only [lay, List.getElem?_append]
  by_cases hb : r = row ∧ column + a.length ≤ k
  · have ha : r = row ∧ column ≤ k := ⟨hb.1, by omega⟩
    have hlen : a.length ≤ k - column := by omega
    rw [if_pos hb, if_pos ha, if_pos ha, List.getElem?_eq_none hlen, Option.none_or,
      if_neg (Nat.not_lt.2 hlen), Nat.sub_add_eq]
  · rw [if_neg hb]
    by_cases ha : r = row ∧ column ≤ k
    · rw [if_pos ha, if_pos ha, if_pos (by omega)]
    · rw [if_neg ha, if_neg ha]

theorem type_nil (d : Display) : d.type [] = d := by
  have h : lay d.cells d.row d.column [] = d.cells := by
    funext r k
    simp [lay]
  rw [type, h]
  rfl

theorem type_type (d : Display) (a b : List Cell) : (d.type a).type b = d.type (a ++ b) := by
  simp only [type, lay_lay, List.length_append, Nat.add_assoc]

theorem foldlM_write? {text : Text} (ht : ∀ c ∈ text, isControl c = false)
    (hrow : d.row < d.height) (hroom : d.column + text.length ≤ d.width) :
    text.foldlM write? d =
      some (d.type (text.map fun c => { char := c, pen := d.pen : Cell })) := by
  induction text generalizing d with
  | nil => exact congrArg some (type_nil d).symm
  | cons c text ih =>
    rw [List.length_cons] at hroom
    have hwrite : d.write? c = some (d.type [{ char := c, pen := d.pen }]) :=
      if_pos ⟨ht c List.mem_cons_self, hrow, by omega⟩
    have hrest : d.column + 1 + text.length ≤ d.width := by omega
    have htext := ih (d := d.type [{ char := c, pen := d.pen }])
      (fun c hc => ht c (List.mem_cons_of_mem _ hc)) hrow hrest
    rw [List.foldlM_cons, hwrite]
    refine htext.trans ?_
    rw [type_type]
    rfl

/-! ## Spans -/

/-- The controls that set the pen of a span. -/
def style (span : Span) : List Control :=
  foregroundOf span.color :: if span.bold then [.bold] else []

theorem perform_style (hpen : d.pen = {}) (span : Span) :
    (style span).foldlM perform d = some { d with pen := span.pen } := by
  rw [style, Span.pen]
  cases span.bold with
  | false => simp [foregroundOf, perform, hpen]
  | true => simp [foregroundOf, perform, hpen]

theorem perform_span (span : Span) (hpen : d.pen = {})
    (ht : ∀ c ∈ span.text, isControl c = false) (hrow : d.row < d.height)
    (hroom : d.column + span.text.length ≤ d.width) :
    (style span ++ [Control.print span.text, .resetAttribute, .resetColor]).foldlM perform d =
      some (d.type (span.glyphs.map Glyph.cell)) := by
  have hprint : { d with pen := span.pen }.perform (.print span.text) =
      some ({ d with pen := span.pen }.type (span.glyphs.map Glyph.cell)) := by
    rw [Span.map_cell_glyphs]
    exact foldlM_write? (d := { d with pen := span.pen }) ht hrow hroom
  rw [List.foldlM_append, perform_style hpen]
  show [Control.print span.text, .resetAttribute, .resetColor].foldlM perform
    { d with pen := span.pen } = _
  rw [List.foldlM_cons, hprint]
  simp [perform, type, hpen]

theorem printSpans_of_le {width used : Nat} (h : width ≤ used) (spans : List Span) :
    printSpans width used spans = ([], used) := by
  cases spans with
  | nil => rfl
  | cons span spans => rw [printSpans, if_pos h]

/-- While there is room a span is printed as far as it fits, and the others behind it. -/
theorem printSpans_cons {width used : Nat} (h : used < width) (span : Span) (spans : List Span) :
    let shown := { span with text := span.text.take (width - used) }
    printSpans width used (span :: spans) =
      (style span ++ [Control.print shown.text, .resetAttribute, .resetColor] ++
          (printSpans width (used + shown.text.length) spans).1,
        (printSpans width (used + shown.text.length) spans).2) := by
  rw [printSpans, if_neg (Nat.not_le.2 h), style]
  simp

theorem printSpans_used {width used : Nat} (h : used ≤ width) (spans : List Span) :
    (printSpans width used spans).2 = min (used + (Line.text ⟨spans⟩).length) width := by
  induction spans generalizing used with
  | nil => simp [printSpans, Line.text, h]
  | cons span spans ih =>
    rcases Nat.lt_or_ge used width with hlt | hge
    · rw [printSpans_cons hlt, Line.text_cons, List.length_append]
      show (printSpans width (used + (span.text.take (width - used)).length) spans).2 = _
      rw [ih (by rw [List.length_take]; omega), List.length_take]
      omega
    · rw [printSpans_of_le hge]
      omega

/-- Printing spans types their characters, each in its own style, up to the right edge. -/
theorem perform_printSpans (hpen : d.pen = {}) {spans : List Span}
    (ht : ∀ c ∈ Line.text ⟨spans⟩, isControl c = false) (hrow : d.row < d.height) :
    (printSpans d.width d.column spans).1.foldlM perform d =
      some (d.type (Line.cells ⟨spans⟩ (d.width - d.column))) := by
  induction spans generalizing d with
  | nil => exact congrArg some (by simp [Line.cells, Line.glyphs, type_nil])
  | cons span spans ih =>
    rw [Line.text_cons] at ht
    obtain ⟨hspan, hspans⟩ := List.forall_mem_append.1 ht
    rcases Nat.lt_or_ge d.column d.width with hlt | hge
    · -- The part that is shown is typed first, and the rest of the spans from its end on.
      let part : Span := { span with text := span.text.take (d.width - d.column) }
      have hlength : part.text.length = min (d.width - d.column) span.text.length :=
        List.length_take
      have hpart := perform_span part hpen (fun c hc => hspan c (List.mem_of_mem_take hc))
        hrow (by omega)
      have hrest := ih (d := d.type (part.glyphs.map Glyph.cell)) hpen hspans hrow
      have hcolumn : (d.type (part.glyphs.map Glyph.cell)).column =
          d.column + part.text.length := by
        simp [type, Span.glyphs]
      have hwidth : (d.type (part.glyphs.map Glyph.cell)).width = d.width := rfl
      have hleft : d.width - (d.column + part.text.length) =
          d.width - d.column - span.text.length := by omega
      rw [hcolumn, hwidth, type_type, hleft] at hrest
      rw [printSpans_cons hlt, List.foldlM_append, Line.cells_cons, ← hrest]
      exact congrArg (Option.bind · fun d' => List.foldlM perform d' _) hpart
    · rw [printSpans_of_le hge, Nat.sub_eq_zero_of_le hge]
      exact congrArg some (by simp [Line.cells, type_nil])

theorem isPlain_printSpans {spans : List Span} (ht : ∀ c ∈ Line.text ⟨spans⟩, isControl c = false)
    (width used : Nat) : ∀ c ∈ (printSpans width used spans).1, c.IsPlain := by
  induction spans generalizing used with
  | nil => simp [printSpans]
  | cons span spans ih =>
    rw [Line.text_cons] at ht
    obtain ⟨hspan, hspans⟩ := List.forall_mem_append.1 ht
    rcases Nat.lt_or_ge used width with hlt | hge
    · rw [printSpans_cons hlt]
      simp only [List.forall_mem_append]
      refine ⟨⟨?_, ?_⟩, ih hspans _⟩
      · rw [style]
        cases span.bold <;> simp [foregroundOf, Control.IsPlain]
      · simpa [Control.IsPlain] using fun c hc => hspan c (List.mem_of_mem_take hc)
    · rw [printSpans_of_le hge]
      simp

/-! ## Rows -/

/-- Types lines from a row on downwards, each from the left edge on. -/
def paint (d : Display) (y : Nat) : List Line → Display
  | [] => d
  | line :: lines =>
    paint ({ d with row := y, column := 0 }.type (line.cells d.width)) (y + 1) lines

/-- What is in a cell is read off the line that was painted there, if there was one. -/
theorem cells_paint (d : Display) (y : Nat) (lines : List Line) (row column : Nat) :
    (d.paint y lines).cells row column =
      if y ≤ row then
        ((lines[row - y]?).bind fun line => (line.cells d.width)[column]?).or (d.cells row column)
      else d.cells row column := by
  induction lines generalizing d y with
  | nil => simp [paint]
  | cons line lines ih =>
    have hother (h : row ≠ y) : lay d.cells y 0 (line.cells d.width) row column =
        d.cells row column := if_neg fun h' => h h'.1
    rw [paint, ih]
    rcases Nat.lt_trichotomy row y with hlt | rfl | hgt
    · rw [if_neg (by omega), if_neg (by omega)]
      exact hother (by omega)
    · rw [if_neg (by omega), if_pos (Nat.le_refl row), Nat.sub_self]
      exact if_pos ⟨rfl, Nat.zero_le column⟩
    · rw [if_pos (by omega), if_pos (by omega), show row - y = row - (y + 1) + 1 by omega,
        List.getElem?_cons_succ]
      exact congrArg _ (hother (by omega))

theorem paint_frame (d : Display) (y : Nat) (lines : List Line) :
    ∃ cells row column, d.paint y lines = { d with cells, row, column } := by
  induction lines generalizing d y with
  | nil => exact ⟨_, _, _, rfl⟩
  | cons line lines ih =>
    obtain ⟨cells, row, column, h⟩ :=
      ih ({ d with row := y, column := 0 }.type (line.cells d.width)) (y + 1)
    exact ⟨cells, row, column, h⟩

/-- Drawing rows paints them, if there is room for them. -/
theorem perform_drawRows {height : UInt16} (hheight : d.height = height.toNat) (hpen : d.pen = {})
    (hwidth : 0 < d.width) {lines : List Line}
    (ht : ∀ line ∈ lines, ∀ c ∈ line.text, isControl c = false) {y : Nat}
    (hroom : y + lines.length ≤ d.height) :
    (drawRows d.width y lines).foldlM perform d = some (d.paint y lines) := by
  induction lines generalizing d y with
  | nil => rfl
  | cons line lines ih =>
    rw [List.length_cons] at hroom
    have hy : (UInt16.ofNat y).toNat = y := toNat_ofNat height (by omega)
    have hmove : d.perform (.moveTo 0 (.ofNat y)) = some { d with row := y, column := 0 } := by
      rw [perform, hy]
      exact if_pos ⟨by omega, hwidth⟩
    have hline := perform_printSpans (d := { d with row := y, column := 0 }) hpen
      (ht line List.mem_cons_self) (show y < d.height by omega)
    have hlines := ih (d := { d with row := y, column := 0 }.type (line.cells d.width)) (y := y + 1)
      hheight hpen hwidth (fun line' h => ht line' (List.mem_cons_of_mem _ h))
      (show y + 1 + lines.length ≤ d.height by omega)
    rw [drawRows, List.cons_append, List.foldlM_cons, hmove]
    show ((printSpans d.width 0 line.spans).1 ++ _).foldlM perform _ = _
    rw [List.foldlM_append]
    exact (congrArg (Option.bind · fun d' => List.foldlM perform d' _) hline).trans hlines

end Display

/-! ## The shell -/

/-- The prompt with the input behind it, as it is typed. -/
def entryLine (s : Shell) : Line := s.prompt.add s.session.input s.theme.output

theorem length_entryLine (s : Shell) :
    (entryLine s).text.length = s.prompt.text.length + s.session.input.length := by
  rw [entryLine, Line.text_add, List.length_append]

theorem drawRows_append (width y : Nat) (a b : List Line) :
    drawRows width y (a ++ b) = drawRows width y a ++ drawRows width (y + a.length) b := by
  induction a generalizing y with
  | nil => rfl
  | cons line a ih =>
    simp only [List.cons_append, drawRows, ih, List.append_assoc, List.length_cons]
    rw [Nat.add_assoc, Nat.add_comm 1]

theorem length_visibleRows (height : UInt16) (scrollback : List Line) :
    (visibleRows height scrollback).length = min (rows scrollback).length (height.toNat - 1) := by
  rw [visibleRows, List.length_drop]
  omega

theorem getElem?_visibleRows (height : UInt16) (scrollback : List Line) (i : Nat) :
    (visibleRows height scrollback)[i]? =
      (rows scrollback)[(rows scrollback).length -
        min (rows scrollback).length (height.toNat - 1) + i]? := by
  rw [visibleRows, List.getElem?_drop]
  congr 1
  omega

/-- The shell is drawn as rows: the visible ones and below them the prompt with the input. -/
theorem draw_eq (width height : UInt16) (s : Shell) :
    let visible := visibleRows height s.session.scrollback
    draw width height s =
      .clear :: (drawRows width.toNat 0 (visible ++ [entryLine s]) ++
        [.moveTo (.ofNat (min (printSpans width.toNat 0 (entryLine s).spans).2 (width.toNat - 1)))
          (.ofNat visible.length), .showCursor]) := by
  simp only [draw, drawRows_append, drawRows, Nat.zero_add, List.append_assoc, List.cons_append,
    List.append_nil]
  rfl

theorem isPlain_drawRows {lines : List Line}
    (ht : ∀ line ∈ lines, ∀ c ∈ line.text, isControl c = false) (width y : Nat) :
    ∀ c ∈ drawRows width y lines, c.IsPlain := by
  induction lines generalizing y with
  | nil => simp [drawRows]
  | cons line lines ih =>
    simp only [drawRows, List.forall_mem_append, List.forall_mem_cons]
    exact ⟨⟨trivial, Display.isPlain_printSpans (ht line List.mem_cons_self) width 0⟩,
      ih (fun line' h => ht line' (List.mem_cons_of_mem _ h)) (y + 1)⟩

/-- The texts of a shell that are drawn hold no control characters but newlines in the
scrollback. -/
structure IsPlain (s : Shell) : Prop where
  scrollback : ∀ line ∈ s.session.scrollback, ∀ c ∈ line.text, isControl c = true → c = '\n'
  prompt : ∀ c ∈ s.prompt.text, isControl c = false
  input : ∀ c ∈ s.session.input, isControl c = false

/-- The characters that are there are looked at one by one. -/
instance decidableIsPlain (s : Shell) : Decidable (IsPlain s) :=
  decidable_of_iff
    ((s.session.scrollback.all fun line => line.text.all fun c => isControl c = true → c = '\n') ∧
      (s.prompt.text.all fun c => isControl c = false) ∧
      s.session.input.all fun c => isControl c = false) <| by
    simp only [List.all_eq_true, decide_eq_true_eq]
    exact ⟨fun ⟨hs, hp, hi⟩ => ⟨hs, hp, hi⟩, fun ⟨hs, hp, hi⟩ => ⟨hs, hp, hi⟩⟩

theorem IsPlain.lines {s : Shell} (h : IsPlain s) (height : UInt16) :
    ∀ line ∈ visibleRows height s.session.scrollback ++ [entryLine s],
      ∀ c ∈ line.text, isControl c = false := by
  intro line hline c hc
  rcases List.mem_append.1 hline with hline | hline
  · obtain ⟨hne, source, hsource, hcs⟩ := mem_text_of_mem_rows (List.mem_of_mem_drop hline) hc
    exact Bool.eq_false_iff.2 fun hcontrol => hne (h.scrollback source hsource c hcs hcontrol)
  · rw [List.mem_singleton.1 hline, entryLine, Line.text_add] at hc
    rcases List.mem_append.1 hc with hc | hc
    · exact h.prompt c hc
    · exact h.input c hc

namespace Display

variable {d : Display} {s : Shell} {width height : UInt16}

/-- **Drawing a shell** on a display that is ready for it, whatever it shows, erases it, paints the
rows and puts the cursor behind the input. The display is then ready again. -/
theorem run_draw (h : IsPlain s) (hread : d.reading = .characters) (hpen : d.pen = {})
    (hwidth : d.width = width.toNat) (hheight : d.height = height.toNat) (hw : 0 < d.width)
    (hh : 0 < d.height) :
    let visible := visibleRows height s.session.scrollback
    d.run (encode (draw width height s)) =
      some { d.erase.paint 0 (visible ++ [entryLine s]) with
        row := visible.length
        column := min (entryLine s).text.length (d.width - 1)
        cursorShown := true } := by
  intro visible
  have hlength : visible.length < height.toNat := by
    rw [length_visibleRows]
    omega
  have hused : min (printSpans width.toNat 0 (entryLine s).spans).2 (width.toNat - 1) =
      min (entryLine s).text.length (d.width - 1) := by
    rw [printSpans_used (Nat.zero_le _), hwidth]
    show min (min (0 + (entryLine s).text.length) width.toNat) (width.toNat - 1) = _
    omega
  have hrows := perform_drawRows (d := d.erase) (y := 0) hheight hpen hw (h.lines height)
    (show 0 + (visible ++ [entryLine s]).length ≤ d.height by simp; omega)
  obtain ⟨cells, row, column, hpaint⟩ := paint_frame d.erase 0 (visible ++ [entryLine s])
  have hplain : ∀ c ∈ draw width height s, c.IsPlain := by
    rw [draw_eq]
    simp only [List.forall_mem_cons, List.forall_mem_append]
    exact ⟨trivial, isPlain_drawRows (h.lines height) _ _, trivial, trivial, nofun⟩
  have hmove : (d.erase.paint 0 (visible ++ [entryLine s])).perform
      (.moveTo (.ofNat (min (entryLine s).text.length (d.width - 1))) (.ofNat visible.length)) =
        some { d.erase.paint 0 (visible ++ [entryLine s]) with
          row := visible.length, column := min (entryLine s).text.length (d.width - 1) } := by
    have hcolumn : min (entryLine s).text.length (d.width - 1) < d.width := by omega
    rw [perform, toNat_ofNat height hlength, toNat_ofNat width (hwidth ▸ hcolumn), hpaint]
    exact if_pos ⟨hheight ▸ hlength, hcolumn⟩
  rw [run_encode hread hplain, draw_eq, hused, List.foldlM_cons]
  show (drawRows width.toNat 0 _ ++ _).foldlM perform d.erase = _
  rw [List.foldlM_append, ← hwidth]
  refine (congrArg (Option.bind · fun d' => List.foldlM perform d' _) hrows).trans ?_
  rw [Option.bind_some, List.foldlM_cons, hmove]
  rfl

theorem cells_paint_erase (d : Display) (lines : List Line) (row column : Nat) :
    (d.erase.paint 0 lines).cells row column =
      if column < d.width then
        (lines[row]?).bind fun line => (line.glyphs[column]?).map Glyph.cell
      else none := by
  rw [cells_paint, if_pos (Nat.zero_le row), Nat.sub_zero]
  show Option.or _ none = _
  rw [Option.or_none]
  show ((lines[row]?).bind fun line => (line.cells d.width)[column]?) = _
  split_ifs with hcolumn
  · simp only [Line.cells, List.getElem?_map, List.getElem?_take_of_lt hcolumn]
  · cases lines[row]? with
    | none => rfl
    | some line =>
      rw [Option.bind_some, Line.cells, List.getElem?_map,
        List.getElem?_eq_none (by rw [List.length_take]; omega)]
      rfl

end Display

/-- **The screen on which a shell was drawn** shows the last rows of the scrollback, as many as
leave a row for the prompt, then the prompt with the input, and nothing else. Each row is cut at
the right edge, each character has the style of its span, and the cursor is behind the input. Since
a display reads nothing that leaves the screen, neither text nor cursor ever did, and no row or
column is too large for the word that it is sent in. -/
theorem draw_shows {s : Shell} (h : IsPlain s) (width height : UInt16) (hw : 1 ≤ width)
    (hh : 1 ≤ height) :
    let all := rows s.session.scrollback
    let k := min all.length (height.toNat - 1)
    ∃ d, (Display.blank width.toNat height.toNat).run (encode (draw width height s)) = some d ∧
      (∀ row column, d.cells row column =
        if column < width.toNat then
          if row < k then
            (all[all.length - k + row]?).bind fun line => (line.glyphs[column]?).map Glyph.cell
          else if row = k then
            ((s.prompt.glyphs ++ Span.glyphs { text := s.session.input, color := s.theme.output }
              )[column]?).map Glyph.cell
          else none
        else none) ∧
      d.row = k ∧
      d.column = min (s.prompt.text.length + s.session.input.length) (width.toNat - 1) ∧
      ∀ n, n ≤ k ∨ n ≤ width.toNat - 1 → (UInt16.ofNat n).toNat = n := by
  intro all k
  have hwidth : 0 < width.toNat := hw
  have hheight : 0 < height.toNat := hh
  have hk : (visibleRows height s.session.scrollback).length = k := length_visibleRows ..
  refine ⟨_, Display.run_draw (d := .blank width.toNat height.toNat) h rfl rfl rfl rfl hwidth
    hheight, fun row column => ?_, hk, ?_, ?_⟩
  · refine (Display.cells_paint_erase _ _ row column).trans ?_
    show (if column < width.toNat then _ else _) = _
    split_ifs with hcolumn hrow hlast
    · rw [List.getElem?_append_left (hk ▸ hrow), getElem?_visibleRows]
    · rw [hlast, List.getElem?_append_right (Nat.le_of_eq hk), hk, Nat.sub_self]
      show ((entryLine s).glyphs[column]?).map Glyph.cell = _
      rw [entryLine, Line.add, Line.glyphs_append]
      simp [Line.glyphs]
    · rw [List.getElem?_eq_none (by simp; omega)]
      rfl
    · rfl
  · rw [← length_entryLine]
    rfl
  · rintro n (hn | hn)
    · exact toNat_ofNat height (by omega)
    · exact toNat_ofNat width (by omega)

/-- On three rows of four columns there is room for two of three rows, and for a part of the
prompt. -/
theorem draw_shows_narrow :
    let s := (Shell.start [("f".toList, .file "ab\ncd")] {} .disabled).run
      [.execute "cat f", .setInput "ls"]
    IsPlain s ∧ ∃ d, (Display.blank 4 3).run (encode (draw 4 3 s)) = some d ∧
      d.cells 0 1 = some { char := 'b', pen := { color := some (255, 255, 255) } } ∧
      d.cells 2 3 = some { char := 'n', pen := { color := some (0, 255, 0), bold := true } } ∧
      d.cells 1 2 = none ∧ d.row = 2 ∧ d.column = 3 := by
  intro s
  have hplain : IsPlain s := by decide
  obtain ⟨d, hrun, hcells, hrow, hcolumn, -⟩ :=
    draw_shows hplain 4 3 (by decide) (by decide)
  refine ⟨hplain, d, hrun, ?_, ?_, ?_, hrow, hcolumn⟩
  · rw [hcells]
    decide
  · rw [hcells]
    decide
  · rw [hcells]
    decide

end Screen

end Showcase
