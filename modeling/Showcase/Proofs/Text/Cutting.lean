import Mathlib.Data.List.DropRight
import Showcase.Text.Basic

/-!
# Trimming, words and cuts

What the operations on texts do to a text that is given by its parts.

**Trimming.** A text is what trimming leaves of it with blanks around (`exists_eq_trim`), and
trimming a trimmed text changes nothing (`trim_trim`).

**Words.** A blank between two texts separates their words (`words_append_cons`), so that blanks
at the ends do not matter (`words_trim`).

**Cuts.** A text put together around the mark is cut there again: at a blank if the first part has
none, at the last `mark` if the second part has none.
-/

namespace Showcase.Text

variable {s before after : Text} {c mark : Char}

/-- All characters are blanks. -/
def IsBlank (s : Text) : Prop := ∀ c ∈ s, isBlank c = true

theorem hasBlank_eq_false_iff : s.hasBlank = false ↔ ∀ c ∈ s, isBlank c = false := by
  simp [hasBlank]

theorem hasBlank_append (s t : Text) : hasBlank (s ++ t) = (s.hasBlank || t.hasBlank) :=
  List.any_append

/-- A text that is not empty and has no blank. -/
def IsWord (s : Text) : Prop := s ≠ [] ∧ s.hasBlank = false

/-! ## Trimming -/

theorem trimStart_append (hb : IsBlank before) (s : Text) :
    trimStart (before ++ s) = trimStart s :=
  List.dropWhile_append_of_pos hb

theorem trimStart_cons (hc : isBlank c = false) (s : Text) : trimStart (c :: s) = c :: s := by
  simp [trimStart, hc]

/-- Where the blanks at the start end is seen from the text. -/
theorem append_cons_inj {before' : Text} {d : Char} {s' : Text} (hb : IsBlank before)
    (hb' : IsBlank before') (hc : isBlank c = false) (hd : isBlank d = false)
    (h : before ++ c :: s = before' ++ d :: s') : before = before' ∧ c :: s = d :: s' := by
  have hrest := congrArg trimStart h
  rw [trimStart_append hb, trimStart_append hb', trimStart_cons hc, trimStart_cons hd] at hrest
  rw [hrest] at h
  exact ⟨List.append_cancel_right h, hrest⟩

theorem trimStart_eq_nil_iff : trimStart s = [] ↔ IsBlank s :=
  List.dropWhile_eq_nil_iff

theorem isBlank_of_trimStart_eq_cons (h : trimStart s = c :: after) : isBlank c = false := by
  have hnot := List.head?_dropWhile_not isBlank s
  rw [show s.dropWhile isBlank = c :: after from h] at hnot
  simpa using hnot

theorem trimStart_append_word {word : Text} (hb : IsBlank before) (hw : word.IsWord) (s : Text) :
    trimStart (before ++ (word ++ s)) = word ++ s := by
  obtain ⟨c, word, rfl⟩ := List.exists_cons_of_ne_nil hw.1
  rw [trimStart_append hb]
  exact trimStart_cons (hasBlank_eq_false_iff.1 hw.2 c List.mem_cons_self) _

theorem trimStart_word_append {word : Text} (hw : word.IsWord) (s : Text) :
    trimStart (word ++ s) = word ++ s :=
  trimStart_append_word (List.forall_mem_nil _) hw s

theorem trimEnd_eq_rdropWhile (s : Text) : trimEnd s = s.rdropWhile isBlank := rfl

theorem trimEnd_append (s : Text) (ha : IsBlank after) : trimEnd (s ++ after) = trimEnd s := by
  rw [trimEnd, List.reverse_append,
    List.dropWhile_append_of_pos fun c hc => ha c (List.mem_reverse.1 hc), trimEnd]

theorem eq_nil_of_trimEnd_append (ha : IsBlank after) (h : trimEnd (s ++ after) = s ++ after) :
    after = [] := by
  rw [trimEnd_append s ha] at h
  have hlength : (trimEnd s).length ≤ s.length := (List.rdropWhile_prefix isBlank s).length_le
  rw [h, List.length_append] at hlength
  exact List.length_eq_zero_iff.1 (by omega)

theorem trimEnd_concat (s : Text) (hc : isBlank c = false) : trimEnd (s ++ [c]) = s ++ [c] := by
  rw [trimEnd_eq_rdropWhile, List.rdropWhile_concat_neg isBlank s c (by simp [hc])]

theorem trimEnd_append_word {word : Text} (s : Text) (hw : word.IsWord) :
    trimEnd (s ++ word) = s ++ word := by
  have hlast := hasBlank_eq_false_iff.1 hw.2 _ (List.getLast_mem hw.1)
  rw [← List.dropLast_append_getLast hw.1, ← List.append_assoc, trimEnd_concat _ hlast]

theorem trim_cons_append_word {word : Text} (hc : isBlank c = false) (s : Text) (hw : word ≠ [])
    (hb : word.hasBlank = false) : trim (c :: (s ++ word)) = c :: (s ++ word) := by
  rw [trim, trimStart_cons hc, ← List.cons_append]
  exact trimEnd_append_word (c :: s) ⟨hw, hb⟩

theorem trim_append_word {word : Text} (hb : IsBlank before) (hw : word.hasBlank = false) :
    trim (before ++ word) = word := by
  cases word with
  | nil => rw [List.append_nil, trim, ← List.append_nil before, trimStart_append hb]; rfl
  | cons c word =>
    have hc := hasBlank_eq_false_iff.1 hw c List.mem_cons_self
    rw [trim, trimStart_append hb, trimStart_cons hc]
    exact List.rdropWhile_eq_self_iff.2 fun hne =>
      by simpa using hasBlank_eq_false_iff.1 hw _ (List.getLast_mem hne)

theorem exists_eq_trimStart (s : Text) : ∃ before, IsBlank before ∧ s = before ++ s.trimStart :=
  ⟨s.takeWhile isBlank, fun _ hc => List.mem_takeWhile_imp hc,
    List.takeWhile_append_dropWhile.symm⟩

theorem exists_eq_trimEnd (s : Text) : ∃ after, IsBlank after ∧ s = s.trimEnd ++ after :=
  ⟨s.rtakeWhile isBlank, fun _ hc => List.mem_rtakeWhile_imp hc,
    List.rdropWhile_append_rtakeWhile.symm⟩

/-- A text is its trimmed form with blanks around. -/
theorem exists_eq_trim (s : Text) :
    ∃ before after, IsBlank before ∧ IsBlank after ∧ s = before ++ (s.trim ++ after) := by
  obtain ⟨before, hb, hs⟩ := exists_eq_trimStart s
  obtain ⟨after, ha, ht⟩ := exists_eq_trimEnd s.trimStart
  exact ⟨before, after, hb, ha, hs.trans (congrArg (before ++ ·) ht)⟩

theorem trim_eq_nil_iff : s.trim = [] ↔ IsBlank s := by
  refine ⟨fun hnil => ?_, fun hs => by rw [trim, trimStart_eq_nil_iff.2 hs]; rfl⟩
  obtain ⟨before, after, hb, ha, hs⟩ := exists_eq_trim s
  rw [hnil, List.nil_append] at hs
  intro c hc
  rw [hs] at hc
  exact (List.mem_append.1 hc).elim (hb c) (ha c)

theorem trimStart_trimStart (s : Text) : s.trimStart.trimStart = s.trimStart :=
  List.dropWhile_idempotent isBlank s

theorem trim_trimStart (s : Text) : s.trimStart.trim = s.trim := by
  rw [trim, trimStart_trimStart, trim]

theorem trimStart_trim (s : Text) : s.trim.trimStart = s.trim := by
  cases ht : s.trim with
  | nil => rfl
  | cons c rest =>
    -- The first character that is left is the one at which trimming the start stopped.
    obtain ⟨after, -, hs⟩ := exists_eq_trimEnd s.trimStart
    have hhead : s.trimStart = c :: (rest ++ after) := by
      rw [hs, show s.trimStart.trimEnd = c :: rest from ht, List.cons_append]
    exact trimStart_cons (isBlank_of_trimStart_eq_cons hhead) rest

theorem trimEnd_trim (s : Text) : s.trim.trimEnd = s.trim :=
  List.rdropWhile_idempotent isBlank s.trimStart

theorem trim_trim (s : Text) : s.trim.trim = s.trim := by
  rw [trim, trimStart_trim, trimEnd_trim]

/-! ## Parts -/

theorem flatten_splitOnP {α : Type} (p : α → Bool) (s : List α) :
    (s.splitOnP p).flatten = s.filter fun x => !p x := by
  induction s with
  | nil => rfl
  | cons x s ih =>
    rw [List.splitOnP_cons_eq_if_modifyHead, List.filter_cons]
    cases hx : p x with
    | true => simp [ih]
    | false =>
      obtain ⟨part, parts, hparts⟩ := List.exists_cons_of_ne_nil (List.splitOnP_ne_nil p s)
      rw [hparts] at ih ⊢
      simpa using ih

/-- The parts are cut out of the list, and not at what they hold. -/
theorem of_mem_splitOnP {α : Type} {p : α → Bool} {s part : List α} {x : α}
    (hpart : part ∈ s.splitOnP p) (hx : x ∈ part) : x ∈ s ∧ p x = false := by
  have hmem : x ∈ (s.splitOnP p).flatten := List.mem_flatten.2 ⟨part, hpart, hx⟩
  rw [flatten_splitOnP, List.mem_filter] at hmem
  exact ⟨hmem.1, by simpa using hmem.2⟩

theorem length_splitOn (mark : Char) (s : Text) : (s.splitOn mark).length = s.count mark + 1 := by
  induction s with
  | nil => rfl
  | cons c s ih =>
    rw [List.splitOn_cons_eq_if_modifyHead, List.count_cons]
    by_cases hc : c = mark
    · simp [hc, ih]
    · simp [hc, ih]

/-- Every part but the last has the separator behind it. -/
theorem join_append {between : Text} {last : List Text} (hlast : last ≠ []) (first : List Text) :
    join between (first ++ last) = first.flatMap (· ++ between) ++ join between last := by
  induction first with
  | nil => rfl
  | cons part first ih =>
    have hrest : first ++ last ≠ [] := by simp [hlast]
    rw [List.cons_append, join, List.intercalate_cons_of_ne_nil hrest, ← join, ih]
    simp

/-! ## Words -/

theorem words_append_cons (hc : isBlank c = true) (before after : Text) :
    words (before ++ c :: after) = words before ++ words after := by
  rw [words, List.splitOnP_append_cons before after hc, List.filter_append, ← words, ← words]

theorem words_nil : words [] = [] := by
  simp [words, List.splitOnP_nil]

theorem words_cons (hc : isBlank c = true) (s : Text) : words (c :: s) = words s := by
  simpa [words_nil] using words_append_cons hc [] s

theorem words_append_left (hb : IsBlank before) (s : Text) : words (before ++ s) = words s := by
  induction before with
  | nil => rfl
  | cons c before ih =>
    rw [List.cons_append, words_cons (hb c List.mem_cons_self)]
    exact ih fun d hd => hb d (List.mem_cons_of_mem c hd)

theorem words_append_right (s : Text) (ha : IsBlank after) : words (s ++ after) = words s := by
  cases after with
  | nil => rw [List.append_nil]
  | cons c after =>
    have hrest : words after = [] := by
      simpa [words_nil] using
        words_append_left (fun d hd => ha d (List.mem_cons_of_mem c hd)) []
    rw [words_append_cons (ha c List.mem_cons_self), hrest, List.append_nil]

theorem words_trim (s : Text) : s.trim.words = s.words := by
  obtain ⟨before, after, hb, ha, hs⟩ := exists_eq_trim s
  conv_rhs => rw [hs]
  rw [words_append_left hb, words_append_right _ ha]

theorem hasBlank_of_mem_words {w : Text} (h : w ∈ s.words) : w.hasBlank = false :=
  hasBlank_eq_false_iff.2 fun _ hc => (of_mem_splitOnP (List.mem_of_mem_filter h) hc).2

theorem words_eq_singleton (hs : s ≠ []) (hb : s.hasBlank = false) : s.words = [s] := by
  rw [words, List.splitOnP_eq_singleton (hasBlank_eq_false_iff.1 hb)]
  simp [hs]

theorem trim_ne_nil_of_head? {w : Text} (h : s.words.head? = some w) : s.trim ≠ [] := by
  intro hnil
  rw [← words_trim, hnil] at h
  cases h

theorem words_eq_nil_iff : s.words = [] ↔ IsBlank s := by
  induction s with
  | nil => simp [words_nil, IsBlank]
  | cons c s ih =>
    by_cases hc : isBlank c
    · rw [words_cons hc, ih]
      simp [IsBlank, hc]
    · obtain ⟨w, ws, hsplit⟩ := List.exists_cons_of_ne_nil (List.splitOnP_ne_nil isBlank s)
      have hne : words (c :: s) ≠ [] := by
        simp [words, List.splitOnP_cons_eq_if_modifyHead, hc, hsplit]
      exact iff_of_false hne fun hblank => hc (hblank c List.mem_cons_self)

/-! ## Cuts -/

theorem cutBlank?_append (hb : before.hasBlank = false) (hc : isBlank c = true) :
    cutBlank? (before ++ c :: after) = some (before, after) := by
  have hpos : ∀ d ∈ before, (!isBlank d) = true := by
    simpa using hasBlank_eq_false_iff.1 hb
  rw [cutBlank?, List.dropWhile_append_of_pos hpos, List.takeWhile_append_of_pos hpos]
  simp [hc]

theorem cutBlank?_eq_none_iff : cutBlank? s = none ↔ s.hasBlank = false := by
  rw [cutBlank?, hasBlank_eq_false_iff]
  cases hrest : s.dropWhile fun c => !isBlank c with
  | nil => simpa using hrest
  | cons c rest =>
    have hnot : ¬ ∀ c ∈ s, (!isBlank c) = true := fun h => by
      rw [List.dropWhile_eq_nil_iff.2 h] at hrest
      cases hrest
    simpa using hnot

theorem hasBlank_of_cutBlank? (h : cutBlank? s = some (before, after)) :
    before.hasBlank = false := by
  rw [cutBlank?] at h
  split at h
  · cases h
  · cases h
    exact hasBlank_eq_false_iff.2 fun c hc => by simpa using List.mem_takeWhile_imp hc

theorem cutLast?_eq_none_iff : cutLast? mark s = none ↔ mark ∉ s := by
  induction s with
  | nil => simp [cutLast?]
  | cons c s ih =>
    rw [List.mem_cons, not_or, ← ih, cutLast?]
    cases cutLast? mark s with
    | none => simp [eq_comm]
    | some cut => simp

theorem cutLast?_append (h : mark ∉ after) :
    cutLast? mark (before ++ mark :: after) = some (before, after) := by
  induction before with
  | nil => simp [cutLast?, cutLast?_eq_none_iff.2 h]
  | cons c before ih => simp [cutLast?, ih]

theorem not_mem_of_cutLast? (h : cutLast? mark s = some (before, after)) : mark ∉ after := by
  induction s generalizing before with
  | nil => cases h
  | cons c s ih =>
    simp only [cutLast?] at h
    split at h
    · next b a hcut =>
      obtain ⟨-, rfl⟩ : _ ∧ a = after := by simpa using h
      exact ih hcut
    · next hnone =>
      split_ifs at h
      obtain ⟨-, rfl⟩ : _ ∧ s = after := by simpa using h
      exact cutLast?_eq_none_iff.1 hnone

theorem stripStart?_append (start s : Text) : stripStart? start (start ++ s) = some s := by
  simp [stripStart?]

theorem stripEnd?_append (s ending : Text) : stripEnd? ending (s ++ ending) = some s := by
  simp [stripEnd?]

theorem eq_append_of_stripStart? {start rest : Text} (h : stripStart? start s = some rest) :
    s = start ++ rest := by
  rw [stripStart?] at h
  split_ifs at h with hstart
  obtain ⟨t, rfl⟩ := List.isPrefixOf_iff_prefix.1 hstart
  rw [List.drop_left] at h
  rw [Option.some.inj h]

theorem eq_append_of_stripEnd? {ending rest : Text} (h : stripEnd? ending s = some rest) :
    s = rest ++ ending := by
  rw [stripEnd?] at h
  split_ifs at h with hending
  obtain ⟨t, rfl⟩ := List.isSuffixOf_iff_suffix.1 hending
  rw [List.length_append, Nat.add_sub_cancel, List.take_left] at h
  rw [Option.some.inj h]

end Showcase.Text
