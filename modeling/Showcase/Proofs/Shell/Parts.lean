import Showcase.Proofs.Shell.Frame

/-!
# The parts of a shell

A shell is made of parts (`Part`), and each operation has its own (`Operation.parts`).

**Shapes.** What an operation does is an update of the shell at its parts: `exists_execute_eq`,
`exists_complete_eq` and their like give it as one, whatever is written there.

**Frame.** So an operation touches its own parts and leaves all others as they are
(`touches_apply`), and a run touches no more than its operations do (`touches_run`). The parts are
the whole shell (`eq_of_parts`), so that nothing else is there to be changed.

**The working directory** is among the parts of every command line, but only `cd` writes to it
(`exists_line_of_cwd_ne`).

Main result: `apply_parts`.
-/

namespace Showcase

/-- The parts of a shell. -/
inductive Part where
  | cwd
  | scrollback
  | input
  /-- The lines that the history keeps. -/
  | entries
  | cursor
  | outbox
  /-- What is given at the start, with the limit of the history. -/
  | setting
  deriving DecidableEq

namespace Part

/-- What a part holds. -/
def Content : Part → Type
  | cwd => Path
  | scrollback => List Line
  | input => Text
  | entries => List Text
  | cursor => Option Nat
  | outbox => Outbox
  | setting => Shell.Setting × Nat

/-- The part of a shell. -/
def of (s : Shell) : (p : Part) → p.Content
  | cwd => s.session.cwd
  | scrollback => s.session.scrollback
  | input => s.session.input
  | entries => s.session.history.entries
  | cursor => s.session.history.cursor
  | outbox => s.outbox
  | setting => (s.setting, s.session.history.limit)

end Part

/-- The parts that an operation may write to. A key has those of the operation it stands for. -/
def Operation.parts : Operation → List Part
  | .execute _ => [.cwd, .scrollback, .outbox]
  | .submit | .key ⟨.enter, _, _⟩ => [.cwd, .scrollback, .input, .entries, .cursor, .outbox]
  | .complete | .key ⟨.tab, _, _⟩ => [.input, .scrollback]
  | .recallPrevious | .recallNext | .key ⟨.up, _, _⟩ | .key ⟨.down, _, _⟩ => [.input, .cursor]
  | .setInput _ | .key ⟨.char _, _, _⟩ | .key ⟨.backspace, _, _⟩ => [.input]
  | .key ⟨.escape, _, _⟩ | .key ⟨.other, _, _⟩ => []
  | .poll | .settle => [.scrollback, .outbox]
  | .cancel | .ready | .sleep _ => [.outbox]

/-- **Only `cd` moves.** -/
theorem Registry.cwd_execute_of_ne_cd {line : Text}
    (h : line.words.head? ≠ some Command.cd.name) (env : Environment) :
    (builtin.execute line env).cwd = env.cwd := by
  rcases execute_cases builtin line env with
    ⟨-, ho⟩ | ⟨i, hi, ⟨-, ho⟩ | ⟨-, c, hc, hname, ho⟩ | ⟨-, -, ho⟩⟩
  · exact congrArg Outcome.cwd ho
  · exact congrArg Outcome.cwd ho
  · rw [ho]
    refine Command.run_cwd hc (fun heq => h ?_) i env
    rw [Invocation.words_of_parse? hi, List.head?_cons, ← hname, heq]
  · exact congrArg Outcome.cwd ho

theorem History.exists_commit_eq (h : History) (line : Text) :
    ∃ entries, h.commit line = { h with entries, cursor := none } := by
  rw [commit]
  split
  · exact ⟨h.entries, rfl⟩
  · exact ⟨_, rfl⟩

theorem Session.exists_recallPrevious_eq (s : Session) :
    ∃ input cursor, s.recallPrevious = { s with input, history := { s.history with cursor } } := by
  rw [recallPrevious, History.back]
  split
  · exact ⟨s.input, s.history.cursor, rfl⟩
  · exact ⟨_, some s.history.previousPosition, rfl⟩

theorem Session.exists_recallNext_eq (s : Session) :
    ∃ input cursor, s.recallNext = { s with input, history := { s.history with cursor } } := by
  rw [recallNext, History.forward]
  cases hcursor : s.history.cursor with
  | none => exact ⟨s.input, s.history.cursor, rfl⟩
  | some position =>
    rw [Option.map_some]
    split
    · exact ⟨[], none, rfl⟩
    · exact ⟨_, some (position + 1), rfl⟩

namespace Shell

variable {s t u : Shell} {ps qs : List Part} {op : Operation} {line : Text}

/-- Between the shells nothing but the given parts is touched. -/
def Touches (ps : List Part) (s t : Shell) : Prop := ∀ p ∉ ps, p.of t = p.of s

theorem Touches.trans (h : Touches ps s t) (h' : Touches qs t u) : Touches (ps ++ qs) s u := by
  intro p hp
  obtain ⟨hps, hqs⟩ := not_or.1 (List.mem_append.not.1 hp)
  exact (h' p hqs).trans (h p hps)

/-- The parts are the whole shell. -/
theorem eq_of_parts (h : ∀ p : Part, p.of t = p.of s) : t = s := by
  obtain ⟨⟨_, _, _, ⟨_, _, _⟩⟩, _, _, _, _, _, _⟩ := s
  obtain ⟨⟨_, _, _, ⟨_, _, _⟩⟩, _, _, _, _, _, _⟩ := t
  cases h .cwd
  cases h .scrollback
  cases h .input
  cases h .entries
  cases h .cursor
  cases h .outbox
  cases h .setting
  rfl

/-! ## Shapes -/

theorem exists_present_eq (s : Shell) (prompt : Line) (result : Except CommandError Output) :
    ∃ scrollback outbox,
      s.present prompt result = { s with session := { s.session with scrollback }, outbox } := by
  cases result with
  | error e => exact ⟨_, s.outbox, rfl⟩
  | ok output =>
    cases output with
    | notify m => exact ⟨_, _, rfl⟩
    | _ => exact ⟨_, s.outbox, rfl⟩

theorem exists_enter_eq (s : Shell) (cwd : Path) :
    ∃ cwd', (cwd' = cwd ∨ cwd' = s.session.cwd) ∧
      s.enter cwd = { s with session := { s.session with cwd := cwd' } } := by
  rw [enter]
  split
  · exact ⟨cwd, .inl rfl, rfl⟩
  · exact ⟨s.session.cwd, .inr rfl, rfl⟩

/-- Executing a line writes to the directory, the scrollback and the outbox; to the directory only
what is answered. -/
theorem exists_execute_eq (s : Shell) (line : Text) :
    ∃ cwd scrollback outbox, (cwd = (s.answer line).cwd ∨ cwd = s.session.cwd) ∧
      s.execute line = { s with session := { s.session with cwd, scrollback }, outbox } := by
  by_cases hline : line.trim = []
  · exact ⟨s.session.cwd, s.session.scrollback, s.outbox, .inr rfl, execute_of_blank hline⟩
  · obtain ⟨scrollback, outbox, hpresent⟩ :=
      s.exists_present_eq (s.promptLine line.trim) (s.answer line).result
    rw [execute_of_not_blank hline, hpresent]
    obtain ⟨cwd, hcwd, henter⟩ := exists_enter_eq
      { s with session := { s.session with scrollback }, outbox } (s.answer line).cwd
    exact ⟨cwd, scrollback, outbox, hcwd, henter⟩

theorem exists_submit_eq (s : Shell) :
    ∃ cwd scrollback entries outbox,
      s.submit = { s with
        session := {
          cwd, scrollback, input := [],
          history := { s.session.history with entries, cursor := none } }
        outbox } := by
  obtain ⟨entries, hcommit⟩ := s.session.history.exists_commit_eq s.session.input
  obtain ⟨cwd, scrollback, outbox, -, hexecute⟩ := exists_execute_eq
    { s with session := (s.session.setInput []).commit s.session.input } s.session.input
  refine ⟨cwd, scrollback, entries, outbox, ?_⟩
  rw [← hcommit]
  exact hexecute

/-! ## Frame -/

theorem touches_execute (s : Shell) (line : Text) :
    Touches (Operation.execute line).parts s (s.execute line) := by
  obtain ⟨cwd, scrollback, outbox, -, hs⟩ := s.exists_execute_eq line
  rw [hs]
  intro p hp
  cases p with
  | cwd | scrollback | outbox => simp [Operation.parts] at hp
  | input | entries | cursor | setting => rfl

theorem touches_submit (s : Shell) : Touches Operation.submit.parts s s.submit := by
  obtain ⟨cwd, scrollback, entries, outbox, hs⟩ := s.exists_submit_eq
  rw [hs]
  intro p hp
  cases p with
  | cwd | scrollback | input | entries | cursor | outbox => simp [Operation.parts] at hp
  | setting => rfl

theorem touches_complete (s : Shell) : Touches Operation.complete.parts s s.complete := by
  obtain ⟨input, scrollback, -, hs⟩ := s.exists_complete_eq
  rw [hs]
  intro p hp
  cases p with
  | input | scrollback => simp [Operation.parts] at hp
  | cwd | entries | cursor | outbox | setting => rfl

theorem touches_of_recall {input : Text} {cursor : Option Nat} {session : Session}
    (h : session =
      { s.session with input, history := { s.session.history with cursor } }) :
    Touches [.input, .cursor] s { s with session } := by
  rw [h]
  intro p hp
  cases p with
  | input | cursor => simp at hp
  | cwd | scrollback | entries | outbox | setting => rfl

theorem touches_recallPrevious (s : Shell) :
    Touches Operation.recallPrevious.parts s s.recallPrevious := by
  obtain ⟨input, cursor, hs⟩ := s.session.exists_recallPrevious_eq
  exact touches_of_recall hs

theorem touches_recallNext (s : Shell) :
    Touches Operation.recallNext.parts s s.recallNext := by
  obtain ⟨input, cursor, hs⟩ := s.session.exists_recallNext_eq
  exact touches_of_recall hs

theorem touches_input (s : Shell) (input : Text) :
    Touches [.input] s { s with session := { s.session with input } } := by
  intro p hp
  cases p with
  | input => simp at hp
  | cwd | scrollback | entries | cursor | outbox | setting => rfl

theorem touches_report (s : Shell) (scrollback : List Line) (outbox : Outbox) :
    Touches [.scrollback, .outbox] s
      { s with session := { s.session with scrollback }, outbox } := by
  intro p hp
  cases p with
  | scrollback | outbox => simp at hp
  | cwd | input | entries | cursor | setting => rfl

theorem touches_outbox (s : Shell) (outbox : Outbox) : Touches [.outbox] s { s with outbox } := by
  intro p hp
  cases p with
  | outbox => simp at hp
  | cwd | scrollback | input | entries | cursor | setting => rfl

theorem parts_of_operationOf? {k : Key} (h : s.operationOf? k = some op) :
    (Operation.key k).parts = op.parts := by
  obtain ⟨code, ctrl, alt⟩ := k
  cases code with
  | char c =>
    simp only [operationOf?] at h
    split_ifs at h
    cases h
    rfl
  | escape | other => cases h
  | _ =>
    cases h
    rfl

/-- **An operation touches its own parts.** -/
theorem touches_apply (s : Shell) (op : Operation) : Touches op.parts s (s.apply op) := by
  induction op using s.induction_keys with
  | idle k hk =>
    rw [apply_of_idle hk]
    exact fun _ _ => rfl
  | key k op hk ih =>
    rw [apply_of_key hk, parts_of_operationOf? hk]
    exact ih
  | setInput text => exact s.touches_input text
  | submit => exact s.touches_submit
  | execute line => exact s.touches_execute line
  | complete => exact s.touches_complete
  | recallPrevious => exact s.touches_recallPrevious
  | recallNext => exact s.touches_recallNext
  | poll | settle => exact s.touches_report _ _
  | cancel | ready | sleep => exact s.touches_outbox _

/-- **A run touches the parts of its operations.** -/
theorem touches_run (s : Shell) (ops : List Operation) :
    Touches (ops.flatMap Operation.parts) s (s.run ops) := by
  induction ops generalizing s with
  | nil => exact fun _ _ => rfl
  | cons op ops ih => exact (s.touches_apply op).trans (ih (s.apply op))

/-! ## The working directory -/

theorem cwd_execute_of_ne_cd (s : Shell) (h : line.words.head? ≠ some Command.cd.name) :
    (s.execute line).session.cwd = s.session.cwd := by
  obtain ⟨cwd, scrollback, outbox, hcwd, hs⟩ := s.exists_execute_eq line
  rw [hs]
  rcases hcwd with hcwd | hcwd
  · exact hcwd.trans (Registry.cwd_execute_of_ne_cd h s.environment)
  · exact hcwd

/-- A move is a line that names `cd`. -/
theorem exists_line_of_cwd_ne (h : (s.apply op).session.cwd ≠ s.session.cwd) :
    ∃ line, s.lineOf? op = some line ∧ line.words.head? = some Command.cd.name := by
  cases hline : s.lineOf? op with
  | none =>
    obtain ⟨session, outbox, hs, hcwd, -⟩ := apply_of_no_line hline
    rw [hs] at h
    exact absurd hcwd h
  | some line =>
    obtain ⟨session, hcwd, -, hs⟩ := apply_of_line hline
    refine ⟨line, rfl, ?_⟩
    by_contra hhead
    rw [hs, cwd_execute_of_ne_cd _ hhead] at h
    exact h hcwd

/-- **Each operation has its own parts.** The parts are the whole shell, an operation touches no
others than its own, and a run no others than those of its operations. Entering the input empties
it, commits it and executes it. Completing writes to the input or to the scrollback, not to both.
And the directory changes by a line that names `cd` and by nothing else. -/
theorem apply_parts (s : Shell) :
    (∀ t : Shell, (∀ p : Part, p.of t = p.of s) → t = s) ∧
      (∀ op, Touches op.parts s (s.apply op)) ∧
      (∀ ops, Touches (ops.flatMap Operation.parts) s (s.run ops)) ∧
      s.submit =
        { s with session := (s.session.setInput []).commit s.session.input }.execute
          s.session.input ∧
      (s.complete.session.input = s.session.input ∨
        s.complete.session.scrollback = s.session.scrollback) ∧
      ∀ op, (s.apply op).session.cwd ≠ s.session.cwd →
        ∃ line, s.lineOf? op = some line ∧ line.words.head? = some Command.cd.name := by
  refine ⟨fun t => eq_of_parts, s.touches_apply, s.touches_run, rfl, ?_, fun op =>
    exists_line_of_cwd_ne⟩
  obtain ⟨input, scrollback, hor, hs⟩ := s.exists_complete_eq
  rw [hs]
  exact hor

end Shell

end Showcase
