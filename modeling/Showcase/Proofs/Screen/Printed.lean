import Mathlib
import Showcase.Proofs.Screen.Drawing
import Showcase.Proofs.Shell.WorkingDirectory

/-!
# What is printed

Some of the characters that are sent to a terminal are text, the others belong to sequences.
`printed` is the text of a list of controls, without the sequences around it.

**Printing** (`printed_printSpans`, `printed_draw`). The text that drawing prints is that of the
rows, each cut at the right edge.

**Newlines** (`newline_mem_encode_iff`). No sequence has a newline in it, so one that is sent was
printed. The rows of the scrollback have none: that is what cutting into rows is for. The prompt is
not cut, and its path and its end have none either; but the host may be named as one likes.

Main result: `run_draw_newline_iff`, with `draw_newline_host` for a host whose name has a newline.
-/

namespace Showcase.Screen

/-! ## Printing -/

/-- The text that a control prints. -/
def Control.printed : Control → Text
  | .print text => text
  | _ => []

/-- The text that controls print, without their sequences. -/
def printed (controls : List Control) : Text := controls.flatMap Control.printed

theorem printed_append (a b : List Control) : printed (a ++ b) = printed a ++ printed b :=
  List.flatMap_append

theorem printed_style (span : Span) : printed (Display.style span) = [] := by
  rw [Display.style]
  cases span.bold <;> rfl

theorem printed_printSpans (width used : Nat) (spans : List Span) :
    printed (printSpans width used spans).1 = (Line.text ⟨spans⟩).take (width - used) := by
  induction spans generalizing used with
  | nil => simp [printSpans, printed, Line.text]
  | cons span spans ih =>
    rcases Nat.lt_or_ge used width with hlt | hge
    · have hleft : width - (used + (span.text.take (width - used)).length) =
          width - used - span.text.length := by
        rw [List.length_take]
        omega
      rw [Display.printSpans_cons hlt, printed_append, printed_append, printed_style, ih, hleft,
        Line.text_cons, List.take_append]
      simp [printed, Control.printed]
    · rw [Display.printSpans_of_le hge, Nat.sub_eq_zero_of_le hge, List.take_zero]
      rfl

theorem printed_drawRows (width y : Nat) (lines : List Line) :
    printed (drawRows width y lines) = lines.flatMap fun line => line.text.take width := by
  induction lines generalizing y with
  | nil => rfl
  | cons line lines ih =>
    rw [drawRows, printed_append, ih, List.flatMap_cons]
    congr 1
    exact printed_printSpans width 0 line.spans

/-- Drawing prints the rows that are visible, and below them the prompt with the input. -/
theorem printed_draw (width height : UInt16) (s : Shell) :
    printed (draw width height s) =
      (visibleRows height s.session.scrollback).flatMap (fun row => row.text.take width.toNat) ++
        (entryLine s).text.take width.toNat := by
  rw [draw_eq]
  show printed (_ ++ _) = _
  rw [printed_append, printed_drawRows, List.flatMap_append, List.flatMap_singleton]
  exact List.append_nil _

/-! ## Newlines -/

theorem newline_not_mem_decimal (n : Nat) : '\n' ∉ decimal n := fun h =>
  absurd (isDigit_decimal n _ h) (by decide)

theorem Control.newline_mem_encode_iff (c : Control) : '\n' ∈ c.encode ↔ '\n' ∈ c.printed := by
  cases c with
  | moveTo column row => simp [encode, printed, escapeSequence, newline_not_mem_decimal]
  | foreground red green blue => simp [encode, printed, escapeSequence, newline_not_mem_decimal]
  | print text => exact Iff.rfl
  | _ => decide

theorem newline_mem_encode_iff (controls : List Control) :
    '\n' ∈ encode controls ↔ '\n' ∈ printed controls := by
  simp only [encode, printed, List.mem_flatMap, Control.newline_mem_encode_iff]

theorem newline_not_mem_visibleRows {height : UInt16} {scrollback : List Line} {row : Line}
    (h : row ∈ visibleRows height scrollback) : '\n' ∉ row.text := fun hc =>
  (mem_text_of_mem_rows (List.mem_of_mem_drop h) hc).1 rfl

/-- A newline that drawing sends is one of the prompt or the input. -/
theorem newline_mem_draw_iff (width height : UInt16) (s : Shell) :
    '\n' ∈ encode (draw width height s) ↔ '\n' ∈ (entryLine s).text.take width.toNat := by
  have hrows : '\n' ∉ (visibleRows height s.session.scrollback).flatMap
      fun row => row.text.take width.toNat := fun hmem => by
    obtain ⟨row, hrow, hc⟩ := List.mem_flatMap.1 hmem
    exact newline_not_mem_visibleRows hrow (List.mem_of_mem_take hc)
  rw [newline_mem_encode_iff, printed_draw, List.mem_append, or_iff_right hrows]

/-! ## The prompt -/

theorem text_prompt (s : Shell) :
    s.prompt.text = s.hostLabel ++ ([':'] ++ s.session.cwd.homeText ++ "$ ".toList) := by
  simp [Shell.prompt, Line.text]

theorem newline_not_mem_homeText {p : Path} (h : p.IsSpaced) : '\n' ∉ p.homeText := by
  intro hmem
  rcases List.mem_cons.1 hmem with htilde | hmem
  · exact absurd htilde (by decide)
  obtain ⟨name, hname, hc⟩ := List.mem_flatMap.1 hmem
  rcases List.mem_cons.1 hc with hslash | hc
  · exact absurd hslash (by decide)
  · have hspace : '\n' = ' ' := h name hname _ hc (by decide)
    exact absurd hspace (by decide)

theorem mem_take_append_iff {c : Char} {rest : Text} (h : c ∉ rest) (text : Text) (n : Nat) :
    c ∈ (text ++ rest).take n ↔ c ∈ text.take n := by
  rw [List.take_append, List.mem_append]
  exact or_iff_left fun hc => h (List.mem_of_mem_take hc)

/-- **A newline is drawn just when the name of the host has one** in a column that is shown,
provided that none is typed. The rows of the scrollback never show one. -/
theorem run_draw_newline_iff (tree : Directory) (config : Config) (notifier : Notifier)
    (ops : List Operation) (width height : UInt16)
    (hinput : '\n' ∉ ((Shell.start tree config notifier).run ops).session.input) :
    let s := (Shell.start tree config notifier).run ops
    ('\n' ∈ encode (draw width height s) ↔ '\n' ∈ config.hostname.take width.toNat) ∧
      ∀ row ∈ visibleRows height s.session.scrollback, '\n' ∉ row.text := by
  intro s
  have hhost : s.hostLabel = config.hostLabel := congrArg Shell.Setting.hostLabel
    (Shell.setting_run ..)
  have hcwd : s.session.cwd.IsSpaced :=
    Shell.isSpaced_run (Shell.inDirectory_start tree config notifier) (List.forall_mem_nil _) ops
  have hrest : '\n' ∉ "@portfolio".toList ++ ([':'] ++ s.session.cwd.homeText ++ "$ ".toList) ++
      s.session.input := by
    simpa [newline_not_mem_homeText hcwd] using hinput
  have htext : (entryLine s).text = config.hostname ++
      ("@portfolio".toList ++ ([':'] ++ s.session.cwd.homeText ++ "$ ".toList) ++
        s.session.input) := by
    rw [entryLine, Line.text_add, text_prompt, hhost, Config.hostLabel]
    simp only [List.append_assoc]
  refine ⟨?_, fun row => newline_not_mem_visibleRows⟩
  rw [newline_mem_draw_iff, htext, mem_take_append_iff hrest]

/-- Of a host `a` and `b` on two lines, one column shows no newline and two columns do. The newline
in a file is cut, at any width. -/
theorem run_draw_newline_narrow :
    let config : Config := { hostname := "a\nb" }
    let s := (Shell.start [("f".toList, .file "x\ny")] config .disabled).run
      [.execute "cat f", .setInput "ls"]
    '\n' ∉ s.session.input ∧ '\n' ∈ encode (draw 2 3 s) ∧ '\n' ∉ encode (draw 1 3 s) := by
  intro config s
  have hinput : '\n' ∉ s.session.input := by decide
  have htwo := run_draw_newline_iff [("f".toList, .file "x\ny")] config .disabled
    [.execute "cat f", .setInput "ls"] 2 3 hinput
  have hone := run_draw_newline_iff [("f".toList, .file "x\ny")] config .disabled
    [.execute "cat f", .setInput "ls"] 1 3 hinput
  exact ⟨hinput, htwo.1.2 (by decide), fun h => absurd (hone.1.1 h) (by decide)⟩

/-- The host may be named `a` and `b` on two lines, and on ten columns both are drawn. -/
theorem draw_newline_host :
    let config : Config := { hostname := "a\nb" }
    let s := Shell.start [] config .disabled
    Config.ofToml "hostname = \"a\\nb\"" = .ok config ∧ s.session.input = [] ∧
      '\n' ∈ encode (draw 10 3 s) := by
  intro config s
  have hparse : Toml.parse? "hostname = \"a\\nb\"" =
      some [("hostname".toList, .string "a\nb".toList)] := by cbv
  have hconfig : Config.ofToml "hostname = \"a\\nb\"" = .ok config := by
    rw [Config.ofToml, hparse]
    rfl
  refine ⟨hconfig, rfl, ?_⟩
  rw [newline_mem_draw_iff]
  decide

end Showcase.Screen
