import Showcase.Proofs.Text.Cutting

/-!
# Spacing

What a text becomes when its words are put together again with one space between neighbours. This
is how the arguments of a command reach it, so only a text that is left as it is can be typed.

**From the left.** A character that is no blank stays, and what the rest becomes comes right behind
it or after one space (`respaced_cons`). So a text without blanks stays in front of whatever
follows (`respaced_append`).

**Up to a slash.** A slash at the end stays there, and no other one comes up
(`respaced_append_slash`).
-/

namespace Showcase.Text

variable {s : Text} {c d : Char}

/-- The words of the text with one space between neighbours. -/
def respaced (s : Text) : Text := join [' '] s.words

theorem respaced_of_isWord (hs : s.IsWord) : s.respaced = s := by
  rw [respaced, words_eq_singleton hs.1 hs.2]
  exact List.intercalate_singleton

/-- No blank of the text is anything but a space. -/
def IsSpaced (s : Text) : Prop := ∀ c ∈ s, isBlank c = true → c = ' '

theorem isSpaced_append {s t : Text} : IsSpaced (s ++ t) ↔ s.IsSpaced ∧ t.IsSpaced :=
  List.forall_mem_append

theorem isSpaced_join {ws : List Text} (h : ∀ w ∈ ws, w.hasBlank = false) :
    IsSpaced (join [' '] ws) := by
  have hspace : IsSpaced [' '] := fun c hc _ => List.mem_singleton.1 hc
  have hword {w : Text} (hw : w.hasBlank = false) : w.IsSpaced := fun c hc hblank => by
    rw [hasBlank_eq_false_iff.1 hw c hc] at hblank
    cases hblank
  induction ws with
  | nil => exact List.forall_mem_nil _
  | cons w ws ih =>
    obtain ⟨hw, hws⟩ := List.forall_mem_cons.1 h
    cases ws with
    | nil =>
      rw [join, List.intercalate_singleton]
      exact hword hw
    | cons w' ws =>
      rw [join, List.intercalate_cons_cons, isSpaced_append, isSpaced_append]
      exact ⟨⟨hword hw, hspace⟩, ih hws⟩

/-! ## From the left -/

/-- A character that is no blank is a word of its own if a blank or nothing comes next; otherwise
it is the first one of the first word. -/
theorem words_cons_cases (hc : isBlank c = false) (s : Text) :
    (words (c :: s) = [c] :: s.words ∧ ∀ d ∈ s.head?, isBlank d = true) ∨
      ∃ w ws, s.words = w :: ws ∧ words (c :: s) = (c :: w) :: ws := by
  obtain ⟨w, ws, hsplit⟩ := List.exists_cons_of_ne_nil (List.splitOnP_ne_nil isBlank s)
  have hwords : words (c :: s) = (c :: w) :: ws.filter fun w => !w.isEmpty := by
    simp [words, List.splitOnP_cons_eq_if_modifyHead, hc, hsplit]
  cases w with
  | nil =>
    have hrest : s.words = ws.filter fun w => !w.isEmpty := by simp [words, hsplit]
    refine .inl ⟨by rw [hwords, hrest], ?_⟩
    intro d hd
    by_contra hblank
    obtain ⟨t, rfl⟩ : ∃ t, s = d :: t := by
      cases s with
      | nil => cases hd
      | cons d' t =>
        cases hd
        exact ⟨t, rfl⟩
    obtain ⟨w', ws', hsplit'⟩ := List.exists_cons_of_ne_nil (List.splitOnP_ne_nil isBlank t)
    simp [List.splitOnP_cons_eq_if_modifyHead, hblank, hsplit'] at hsplit
  | cons d w => exact .inr ⟨d :: w, _, by simp [words, hsplit], hwords⟩

theorem respaced_cons_blank (hc : isBlank c = true) (s : Text) :
    respaced (c :: s) = s.respaced := by
  rw [respaced, words_cons hc, respaced]

/-- **A character that is no blank stays**, right before what the rest becomes or a space before
it. -/
theorem respaced_cons (hc : isBlank c = false) (s : Text) :
    ∃ gap, (gap = [] ∨ gap = [' ']) ∧ respaced (c :: s) = c :: (gap ++ s.respaced) ∧
      ((∃ d ∈ s.head?, isBlank d = false) → gap = []) := by
  simp only [respaced, join]
  rcases words_cons_cases hc s with ⟨hwords, hhead⟩ | ⟨w, ws, hrest, hwords⟩
  · have hnot : ¬ ∃ d ∈ s.head?, isBlank d = false := by
      rintro ⟨d, hd, hblank⟩
      rw [hhead d hd] at hblank
      cases hblank
    rw [hwords]
    cases s.words with
    | nil => exact ⟨[], .inl rfl, rfl, fun _ => rfl⟩
    | cons w ws => exact ⟨[' '], .inr rfl, List.intercalate_cons_cons, fun h => absurd h hnot⟩
  · refine ⟨[], .inl rfl, ?_, fun _ => rfl⟩
    rw [hwords, hrest]
    cases ws with
    | nil => rw [List.intercalate_singleton, List.intercalate_singleton, List.nil_append]
    | cons w' ws =>
      rw [List.intercalate_cons_cons, List.intercalate_cons_cons, List.nil_append,
        List.cons_append, List.cons_append]

/-- A text without blanks stays in front of what follows. -/
theorem respaced_append {u : Text} (hu : u.hasBlank = false) (s : Text) :
    ∃ gap, (gap = [] ∨ gap = [' ']) ∧ respaced (u ++ s) = u ++ (gap ++ s.respaced) := by
  induction u with
  | nil => exact ⟨[], .inl rfl, rfl⟩
  | cons c u ih =>
    rw [hasBlank_eq_false_iff] at hu ih
    obtain ⟨hc, hu⟩ := List.forall_mem_cons.1 hu
    obtain ⟨gap, hgap, hcons, hnone⟩ := respaced_cons hc (u ++ s)
    cases u with
    | nil => exact ⟨gap, hgap, hcons⟩
    | cons d u =>
      obtain ⟨gap', hgap', happend⟩ := ih hu
      have hd : isBlank d = false := hu d List.mem_cons_self
      rw [hnone ⟨d, rfl, hd⟩, List.nil_append, happend] at hcons
      exact ⟨gap', hgap', hcons⟩

/-! ## Up to a slash -/

theorem respaced_slash (hs : '/' ∉ s) :
    ∃ n, '/' ∉ n ∧ respaced (s ++ ['/']) = n ++ ['/'] := by
  induction s with
  | nil => exact ⟨[], List.not_mem_nil, respaced_of_isWord ⟨List.cons_ne_nil _ _, by decide⟩⟩
  | cons c s ih =>
    obtain ⟨hc, hs⟩ := not_or.1 (List.mem_cons.not.1 hs)
    obtain ⟨n, hn, hrest⟩ := ih hs
    rw [List.cons_append]
    cases hblank : isBlank c with
    | true => exact ⟨n, hn, by rw [respaced_cons_blank hblank, hrest]⟩
    | false =>
      obtain ⟨gap, hgap, hcons, -⟩ := respaced_cons hblank (s ++ ['/'])
      refine ⟨c :: (gap ++ n), ?_, by simp [hcons, hrest]⟩
      rcases hgap with rfl | rfl <;> simp [hc, hn]

/-- After a text without blanks the only slash that follows stays at the end. -/
theorem respaced_append_slash {u : Text} (hu : u.hasBlank = false) (hs : '/' ∉ s) :
    ∃ n, '/' ∉ n ∧ respaced (u ++ (s ++ ['/'])) = u ++ (n ++ ['/']) := by
  obtain ⟨n, hn, hslash⟩ := respaced_slash hs
  obtain ⟨gap, hgap, happend⟩ := respaced_append hu (s ++ ['/'])
  refine ⟨gap ++ n, ?_, by rw [happend, hslash, List.append_assoc]⟩
  rcases hgap with rfl | rfl <;> simp [hn]

end Showcase.Text
