import Showcase.Proofs.Command.Dispatch

/-!
# The two readings of a command line

A line is read twice: as words, and as a name with the text behind it.

**Words.** The words of a text are its maximal runs without a blank (`Text.Runs`): each one has a
blank or an end of the text on either side. A text has exactly one such list (`words_eq_iff_runs`).

**Name and arguments.** An invocation describes the line it was read from (`Invocation.Reads`): the
trimmed line is the name, blanks, and the arguments as they were typed, and the arguments as words
are the runs of that text. The description leaves no choice (`parse?_eq_some_iff_reads`), so both
readings agree on where the arguments are. Put together again, the words read as they did before
(`parse?_respaced`).

**Commands.** No built-in command but `echo` looks at the text of its arguments
(`Command.run_eq_of_args`), so that lines with the same words have the same answer.

Main result: `parse?_reads_line`.
-/

namespace Showcase

/-! ## Words -/

namespace Text

variable {s rest word : Text} {ws : List Text}

/-- The maximal runs without a blank, in order: blanks, a word that ends where the text does or
where the next blank is, and the runs of what is left. -/
inductive Runs : Text → List Text → Prop where
  | blank {s : Text} (h : IsBlank s) : Runs s []
  | word {before word rest : Text} {ws : List Text} (hb : IsBlank before) (hw : word.IsWord)
      (hend : ∀ c ∈ rest.head?, isBlank c = true) (hrest : Runs rest ws) :
      Runs (before ++ (word ++ rest)) (word :: ws)

theorem words_word_append (hw : word.IsWord) (hend : ∀ c ∈ rest.head?, isBlank c = true) :
    words (word ++ rest) = word :: words rest := by
  cases rest with
  | nil => rw [List.append_nil, words_eq_singleton hw.1 hw.2, words_nil]
  | cons c rest =>
    have hc : isBlank c = true := hend c rfl
    rw [words_append_cons hc, words_eq_singleton hw.1 hw.2, words_cons hc, List.singleton_append]

theorem exists_eq_word_append {c : Char} {t : Text} (hs : s = c :: t) (hc : isBlank c = false) :
    ∃ word rest : Text, s = word ++ rest ∧ word.IsWord ∧ ∀ d ∈ rest.head?, isBlank d = true := by
  cases hcut : s.cutBlank? with
  | none =>
    refine ⟨s, [], (List.append_nil s).symm, ⟨?_, cutBlank?_eq_none_iff.1 hcut⟩, nofun⟩
    rw [hs]
    exact List.cons_ne_nil c t
  | some cut =>
    obtain ⟨word, after⟩ := cut
    obtain ⟨d, hd, hsplit⟩ := cutBlank?_eq_some hcut
    refine ⟨word, d :: after, hsplit, ⟨fun hnil => ?_, hasBlank_of_cutBlank? hcut⟩, ?_⟩
    · rw [hs, hnil, List.nil_append, List.cons.injEq] at hsplit
      rw [← hsplit.1, hc] at hd
      cases hd
    · intro d' hd'
      cases hd'
      exact hd

theorem exists_of_words_eq_cons (h : s.words = word :: ws) :
    ∃ before rest, s = before ++ (word ++ rest) ∧ IsBlank before ∧ word.IsWord ∧
      (∀ c ∈ rest.head?, isBlank c = true) ∧ rest.words = ws := by
  obtain ⟨before, hb, hs⟩ := exists_eq_trimStart s
  rw [hs, words_append_left hb] at h
  obtain ⟨c, t, ht⟩ : ∃ c t, s.trimStart = c :: t := by
    refine List.exists_cons_of_ne_nil fun hnil => ?_
    rw [hnil, words_nil] at h
    cases h
  obtain ⟨first, rest, hsplit, hfirst, hend⟩ :=
    exists_eq_word_append ht (isBlank_of_trimStart_eq_cons ht)
  rw [hsplit, words_word_append hfirst hend, List.cons.injEq] at h
  obtain ⟨rfl, hrest⟩ := h
  exact ⟨before, rest, hsplit ▸ hs, hb, hfirst, hend, hrest⟩

/-- **The words are the maximal runs** without a blank. -/
theorem words_eq_iff_runs : s.words = ws ↔ s.Runs ws := by
  constructor
  · intro h
    induction ws generalizing s with
    | nil => exact .blank (words_eq_nil_iff.1 h)
    | cons word ws ih =>
      obtain ⟨before, rest, rfl, hb, hw, hend, hrest⟩ := exists_of_words_eq_cons h
      exact .word hb hw hend (ih hrest)
  · intro h
    induction h with
    | blank h => exact words_eq_nil_iff.2 h
    | word hb hw hend _ ih => rw [words_append_left hb, words_word_append hw hend, ih]

theorem trimEnd_of_append (h : trimEnd (s ++ rest) = s ++ rest) : rest.trimEnd = rest := by
  obtain ⟨after, ha, hrest⟩ := exists_eq_trimEnd rest
  have hnil : after = [] := by
    rw [hrest, ← List.append_assoc] at h
    exact eq_nil_of_trimEnd_append ha h
  rw [hnil, List.append_nil] at hrest
  exact hrest.symm

theorem trim_word_append {after : Text} (hw : word.IsWord) (ha : IsBlank after) :
    trim (word ++ after) = word := by
  rw [trim, trimStart_word_append hw, trimEnd_append _ ha]
  exact trimEnd_append_word [] hw

/-! ### Words put together -/

theorem isWord_of_mem_words (h : word ∈ s.words) : word.IsWord :=
  ⟨by simpa using List.of_mem_filter h, hasBlank_of_mem_words h⟩

theorem words_join (h : ∀ w ∈ ws, w.IsWord) : words (join [' '] ws) = ws := by
  induction ws with
  | nil => exact words_nil
  | cons w ws ih =>
    obtain ⟨hw, hws⟩ := List.forall_mem_cons.1 h
    cases ws with
    | nil => rw [join, List.intercalate_singleton, words_eq_singleton hw.1 hw.2]
    | cons w' ws =>
      have hspace : ∀ c ∈ ([' '] ++ join [' '] (w' :: ws)).head?, isBlank c = true := by
        intro c hc
        cases hc
        decide
      rw [join, List.intercalate_cons_cons, List.append_assoc, ← join, words_word_append hw hspace,
        List.singleton_append, words_cons (by decide), ih hws]

theorem trim_join (h : ∀ w ∈ ws, w.IsWord) : trim (join [' '] ws) = join [' '] ws := by
  rcases List.eq_nil_or_concat' ws with rfl | ⟨first, last, rfl⟩
  · rfl
  · obtain ⟨hfirst, hlast⟩ := List.forall_mem_append.1 h
    have hjoin : join [' '] (first ++ [last]) = first.flatMap (· ++ [' ']) ++ last := by
      rw [join_append (List.cons_ne_nil last []), join, List.intercalate_singleton]
    have hstart : trimStart (first.flatMap (· ++ [' ']) ++ last) =
        first.flatMap (· ++ [' ']) ++ last := by
      cases first with
      | nil => simpa using trimStart_word_append (hlast last (by simp)) []
      | cons w first =>
        rw [List.flatMap_cons, List.append_assoc, List.append_assoc]
        exact trimStart_word_append (hfirst w List.mem_cons_self) _
    rw [hjoin, trim, hstart, trimEnd_append_word _ (hlast last (by simp))]

end Text

/-! ## Name and arguments -/

namespace Invocation

variable {line line' : Text} {i j : Invocation}

/-- What an invocation says of the line it was read from. -/
structure Reads (line : Text) (i : Invocation) : Prop where
  name : i.name.IsWord
  /-- The trimmed line is the name, blanks, and the arguments as they were typed. -/
  trimmed : ∃ gap : Text, gap.IsBlank ∧ (gap = [] → i.rawArgs = []) ∧
    line.trim = i.name ++ (gap ++ i.rawArgs)
  rawArgs : i.rawArgs.trim = i.rawArgs
  /-- The arguments are the runs of that text. -/
  args : i.rawArgs.Runs i.args

theorem parse?_eq_none_iff : parse? line = none ↔ line.words = [] := by
  refine ⟨words_of_parse?_eq_none, fun hwords => ?_⟩
  cases hi : parse? line with
  | none => rfl
  | some i =>
    rw [words_of_parse? hi] at hwords
    cases hwords

theorem rawArgs_of_trim (hi : parse? line = some i) {rest : Text} (h : line.trim = i.name ++ rest) :
    i.rawArgs = rest.trimStart := by
  rw [rawArgs_of_parse? hi, h, List.drop_left]

theorem reads_of_parse? (h : parse? line = some i) : i.Reads line := by
  have hwords : line.trim.words = i.name :: i.args := by
    rw [Text.words_trim]
    exact words_of_parse? h
  obtain ⟨before, rest, hline, hb, hname, hend, hargs⟩ := Text.exists_of_words_eq_cons hwords
  -- A trimmed line starts with the name.
  have hstart := Text.trimStart_trim line
  rw [hline, Text.trimStart_append_word hb hname] at hstart
  obtain rfl : before = [] := List.self_eq_append_left.1 hstart
  rw [List.nil_append] at hline
  obtain ⟨gap, hgap, hrest⟩ := Text.exists_eq_trimStart rest
  have hraw : i.rawArgs = rest.trimStart := rawArgs_of_trim h hline
  rw [← hraw] at hrest
  rw [hrest, ← List.append_assoc] at hline
  refine ⟨hname, ⟨gap, hgap, fun hnil => ?_, by rw [hline, List.append_assoc]⟩, ?_, ?_⟩
  · cases hcons : i.rawArgs with
    | nil => rfl
    | cons c t =>
      -- The name would go on with this character.
      rw [hnil, List.nil_append, hcons] at hrest
      have hc : isBlank c = false :=
        Text.isBlank_of_trimStart_eq_cons (hraw.symm.trans hcons)
      rw [hend c (by rw [hrest]; rfl)] at hc
      cases hc
  · have htrim := Text.trimEnd_trim line
    rw [hline] at htrim
    rw [Text.trim, hraw, Text.trimStart_trimStart, ← hraw, Text.trimEnd_of_append htrim]
  · rw [← Text.words_eq_iff_runs, ← hargs, hrest, Text.words_append_left hgap]

theorem Reads.parse? (h : i.Reads line) : parse? line = some i := by
  obtain ⟨gap, hgap, hnil, hline⟩ := h.trimmed
  have hend : ∀ c ∈ (gap ++ i.rawArgs).head?, isBlank c = true := by
    cases gap with
    | nil => rw [List.nil_append, hnil rfl]; exact nofun
    | cons c gap =>
      intro d hd
      cases hd
      exact hgap c List.mem_cons_self
  have hwords : line.words = i.name :: i.args := by
    rw [← Text.words_trim, hline, Text.words_word_append h.name hend, Text.words_append_left hgap,
      Text.words_eq_iff_runs.2 h.args]
  obtain ⟨j, hj, hname, hargs⟩ := exists_parse?_of_words hwords
  have hraw : j.rawArgs = i.rawArgs := by
    rw [← hname] at hline
    rw [rawArgs_of_trim hj hline, Text.trimStart_append hgap, ← h.rawArgs, Text.trimStart_trim]
  rw [hj]
  cases i
  cases j
  cases hname
  cases hargs
  cases hraw
  rfl

/-- An invocation is described by what it says of its line. -/
theorem parse?_eq_some_iff_reads : parse? line = some i ↔ i.Reads line :=
  ⟨reads_of_parse?, Reads.parse?⟩

example : parse? "\t cat  a \u3000b " =
    some { name := "cat", args := ["a".toList, "b".toList], rawArgs := "a \u3000b" } := by decide

theorem isWord_of_parse? (h : parse? line = some i) : ∀ w ∈ i.name :: i.args, w.IsWord := by
  rw [← words_of_parse? h]
  exact fun w hw => Text.isWord_of_mem_words hw

/-- The words of an invocation, put together again, are read as they were before. -/
theorem parse?_respaced (h : parse? line = some i) :
    parse? (i.name ++ ' ' :: i.argString) = some { i with rawArgs := i.argString } := by
  have hwords := isWord_of_parse? h
  obtain ⟨hname, hargs⟩ := List.forall_mem_cons.1 hwords
  refine Reads.parse? ⟨hname, ?_, Text.trim_join hargs,
    Text.words_eq_iff_runs.1 (Text.words_join hargs)⟩
  have hspace : Text.IsBlank [' '] := by
    intro c hc
    rw [List.mem_singleton.1 hc]
    decide
  cases hcons : i.args with
  | nil =>
    have hnil : i.argString = [] := by rw [argString, hcons]; rfl
    refine ⟨[], List.forall_mem_nil _, fun _ => hnil, ?_⟩
    rw [hnil, Text.trim_word_append hname hspace, List.append_nil, List.append_nil]
  | cons w ws =>
    have hjoin : i.name ++ ' ' :: i.argString = Text.join [' '] (i.name :: i.args) := by
      rw [argString, hcons, Text.join, Text.join, List.intercalate_cons_cons, List.append_assoc,
        List.singleton_append]
    refine ⟨[' '], hspace, fun hnone => absurd hnone (List.cons_ne_nil _ _), ?_⟩
    rw [hjoin, Text.trim_join hwords, ← hjoin, List.singleton_append]

end Invocation

/-! ## Commands -/

variable {line line' : Text} {i j : Invocation}

/-- Only `echo` reads the text of its arguments; the others look at the words. -/
theorem Command.run_eq_of_args {c : Command} (hc : c ∈ Registry.builtin.commands) (hne : c ≠ echo)
    (hargs : i.args = j.args) (env : Environment) : c.run i env = c.run j env := by
  have hstring : i.argString = j.argString := by rw [Invocation.argString, hargs]; rfl
  rw [Registry.commands_builtin] at hc
  -- The commands in the order of the registry, from `ls` to `echo`.
  fin_cases hc
  · simp only [ls, hargs]
  · simp only [cd, hstring]
  · simp only [cat, hstring]
  · rfl
  · rfl
  · rfl
  · exact absurd rfl hne

/-- Lines with the same words have the same answer, unless `echo` gives it. -/
theorem Registry.execute_eq_of_words (hwords : line.words = line'.words)
    (hecho : line.words.head? ≠ some Command.echo.name) (env : Environment) :
    builtin.execute line env = builtin.execute line' env := by
  cases hi : Invocation.parse? line with
  | none =>
    have hj : Invocation.parse? line' = none :=
      Invocation.parse?_eq_none_iff.2 (hwords ▸ Invocation.words_of_parse?_eq_none hi)
    simp only [execute, hi, hj]
  | some i =>
    rw [Invocation.words_of_parse? hi] at hwords hecho
    obtain ⟨j, hj, hname, hargs⟩ := Invocation.exists_parse?_of_words hwords.symm
    simp only [execute, hi, hj, hname]
    split_ifs
    · rfl
    · cases hc : builtin.get? i.name with
      | none => rfl
      | some c =>
        obtain ⟨hmem, hcname⟩ := mem_commands_of_get? hc
        refine Command.run_eq_of_args hmem (fun heq => hecho ?_) hargs.symm env
        rw [List.head?_cons, ← hcname, heq]

/-- **A line has two readings, and they agree.** There is none just when the line is blank.
Otherwise its invocation is the one that describes it: a name, blanks and the text of the arguments
make up the trimmed line, that text has no blank at its ends, and its runs are the arguments. The
words put together again are read the same. So lines with the same words have the same answer from
the built-in commands, unless the first word is `echo`. -/
theorem Invocation.parse?_reads_line (line : Text) :
    (parse? line = none ↔ line.IsBlank) ∧
      (∀ i, parse? line = some i ↔ i.Reads line) ∧
      (∀ i, parse? line = some i →
        parse? (i.name ++ ' ' :: i.argString) = some { i with rawArgs := i.argString }) ∧
      ∀ line' ws, line.Runs ws → line'.Runs ws → ws.head? ≠ some Command.echo.name →
        ∀ env, Registry.builtin.execute line env = Registry.builtin.execute line' env := by
  refine ⟨parse?_eq_none_iff.trans Text.words_eq_nil_iff, fun i => parse?_eq_some_iff_reads,
    fun i hi => parse?_respaced hi, ?_⟩
  intro line' ws hline hline' hecho env
  have hwords : line.words = ws := Text.words_eq_iff_runs.2 hline
  have hwords' : line'.words = ws := Text.words_eq_iff_runs.2 hline'
  exact Registry.execute_eq_of_words (hwords.trans hwords'.symm) (hwords ▸ hecho) env

end Showcase
