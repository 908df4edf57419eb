import Showcase.Text.Blank

/-!
# Texts

A text is a list of Unicode scalar values, so that its length, its cuts and its columns all count
characters.

**Trimming** removes blanks from one end or both. **Cutting** splits a text once, at the first
blank or at the last occurrence of a character. **Words** are the maximal runs without a blank.

Every cut loses nothing but what it cut at: `cutBlank?_eq_some` and `cutLast?_eq_some` give the
text back.
-/

namespace Showcase

/-- A sequence of characters. -/
abbrev Text := List Char

instance : Coe String Text := ⟨String.toList⟩

namespace Text

/-! ## Trimming -/

/-- The text without the blanks it starts with. -/
def trimStart (s : Text) : Text := s.dropWhile isBlank

/-- The text without the blanks it ends with. -/
def trimEnd (s : Text) : Text := (s.reverse.dropWhile isBlank).reverse

/-- The text without the blanks at either end. -/
def trim (s : Text) : Text := trimEnd (trimStart s)

/-- Some character of the text is a blank. -/
def hasBlank (s : Text) : Bool := s.any isBlank

/-! ## Cutting -/

/-- The parts before and after the first blank, if there is one. -/
def cutBlank? (s : Text) : Option (Text × Text) :=
  match s.dropWhile fun c => !isBlank c with
  | [] => none
  | _ :: after => some (s.takeWhile fun c => !isBlank c, after)

/-- The parts before and after the last `mark`, if there is one. -/
def cutLast? (mark : Char) : Text → Option (Text × Text)
  | [] => none
  | c :: rest =>
    match cutLast? mark rest with
    | some (before, after) => some (c :: before, after)
    | none => if c = mark then some ([], rest) else none

/-- What follows `start`, if the text starts with it. -/
def stripStart? (start s : Text) : Option Text :=
  if start.isPrefixOf s then some (s.drop start.length) else none

/-- What precedes `ending`, if the text ends with it. -/
def stripEnd? (ending s : Text) : Option Text :=
  if ending.isSuffixOf s then some (s.take (s.length - ending.length)) else none

theorem cutBlank?_eq_some {s before after : Text} (h : s.cutBlank? = some (before, after)) :
    ∃ c, isBlank c = true ∧ s = before ++ c :: after := by
  simp only [cutBlank?] at h
  split at h
  · cases h
  · next c rest hrest =>
    obtain ⟨rfl, rfl⟩ : _ ∧ _ := by simpa using h
    have hc := List.head?_dropWhile_not (fun c => !isBlank c) s
    rw [hrest] at hc
    refine ⟨c, by simpa using hc, ?_⟩
    rw [← hrest, List.takeWhile_append_dropWhile]

theorem cutLast?_eq_some {mark : Char} {s before after : Text}
    (h : cutLast? mark s = some (before, after)) : s = before ++ mark :: after := by
  induction s generalizing before with
  | nil => cases h
  | cons c rest ih =>
    simp only [cutLast?] at h
    split at h
    · next b a hb =>
      obtain ⟨rfl, rfl⟩ : _ ∧ _ := by simpa using h
      simp [ih hb]
    · split at h
      · next hc =>
        obtain ⟨rfl, rfl⟩ : _ ∧ _ := by simpa using h
        simp [hc]
      · cases h

/-! ## Words -/

/-- The maximal runs of characters that are not blanks, in order. -/
def words (s : Text) : List Text := (s.splitOnP isBlank).filter fun w => !w.isEmpty

/-- The texts in order, with `between` between neighbours. -/
def join (between : Text) (parts : List Text) : Text := between.intercalate parts

end Text

end Showcase
