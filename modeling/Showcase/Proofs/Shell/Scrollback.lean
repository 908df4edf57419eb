import Showcase.Proofs.Shell.Letters

/-!
# What is added to the scrollback

**Answers** (`Registry.answers_execute`). A line that is not blank is answered with one line, with
an error, or with an output that shows nothing; and each kind of output that shows nothing belongs
to lines that can be told apart beforehand.

**Changes** (`Shell.scrollback_apply`). An operation empties the scrollback or adds lines at its
end, and which of the two, and which lines, is a function of the state before it (`Shell.change`).
So the lines that are shown are never rewritten, only forgotten all at once.

**Reports.** Messages that settle add a line each. Waiting for them adds as many lines as messages
are on their way, since nothing that was sent is lost (`Outbox.Consistent.length_settle`).

Main result: `Shell.run_scrollback`.
-/

namespace Showcase

variable {line : Text} {env : Environment}

/-! ## Answers -/

namespace Registry

theorem execute_of_head? {c : Command} (hc : c ∈ builtin.commands) (hhelp : c.name ≠ helpName)
    (hhead : line.words.head? = some c.name) (env : Environment) :
    ∃ i, i.args = line.words.tail ∧ builtin.execute line env = c.run i env := by
  obtain ⟨args, hwords⟩ := List.head?_eq_some_iff.1 hhead
  obtain ⟨i, hi, hname, hargs⟩ := Invocation.exists_parse?_of_words hwords
  exact ⟨i, by rw [hwords, List.tail_cons, hargs], execute_builtin hc hhelp hi hname env⟩

end Registry

/-- The lines of an output. -/
def Output.shown : Output → List Line
  | .lines ls => ls
  | _ => []

/-- The lines that succeed without a word: those that move, those that send a message, and those
that list a directory without an entry to show. -/
inductive Environment.Quiet (env : Environment) (line : Text) : Prop where
  | moves (p : Path) (head : line.words.head? = some Command.cd.name)
      (reaches : Path.resolve env.tree env.cwd (Text.join [' '] line.words.tail) = .ok p)
  | sends (m : Message) (message : Message.ofLine? env.contactAddress line = some m)
  | lists (d : Directory) (head : line.words.head? = some Command.ls.name)
      (directory : env.tree.directory? env.cwd = some d)
      (empty : d.listing (Command.asksForAll line.words.tail) = [])

/-- The answers that a line can have. -/
inductive Environment.Answers (env : Environment) (line : Text) :
    Except CommandError Output → Prop where
  | shows (l : Line) : Answers env line (.ok (.lines [l]))
  | fails (e : CommandError) : Answers env line (.error e)
  | clears (head : line.words.head? = some Command.clear.name) : Answers env line (.ok .clear)
  | quiet (output : Output) (empty : output.shown = []) (ne_clear : output ≠ .clear)
      (quiet : env.Quiet line) : Answers env line (.ok output)

namespace Registry

theorem answers_run {c : Command} (hc : c ∈ builtin.commands) {i : Invocation}
    (hi : Invocation.parse? line = some i) (hname : c.name = i.name)
    (ho : builtin.execute line env = c.run i env) : env.Answers line (c.run i env).result := by
  have hwords := Invocation.words_of_parse? hi
  have hhead : line.words.head? = some c.name := by rw [hwords, List.head?_cons, hname]
  have htail : line.words.tail = i.args := by rw [hwords, List.tail_cons]
  have hmessage := message?_execute line env
  rw [ho] at hmessage
  rw [commands_builtin] at hc
  -- The commands in the order of the registry, from `ls` to `echo`.
  fin_cases hc
  · simp only [Command.ls]
    split
    · exact .fails _
    · next d hd =>
      split_ifs with hempty
      · refine .quiet _ rfl (by simp) (.lists d hhead hd ?_)
        rw [htail]
        simpa [labels] using hempty
      · exact .shows _
  · rcases Command.cd_cases i env with ⟨p, hp, hrun⟩ | ⟨e, hrun⟩ <;> rw [hrun]
    · exact .quiet _ rfl (by simp) (.moves p hhead (by rwa [htail]))
    · exact .fails e
  · simp only [Command.cat]
    split
    · exact .shows _
    · exact .fails _
  · exact .shows _
  · exact .clears hhead
  · exact .shows _
  · simp only [Command.echo] at hmessage ⊢
    split
    · exact .fails _
    · next m hm =>
      simp only [hm] at hmessage
      split_ifs at hmessage ⊢
      · exact .quiet _ rfl (by simp) (.sends m hmessage.symm)
      · exact .fails _

/-- The answer to a line that is not blank: one line, an error, or a reason for none. -/
theorem answers_execute (hline : ¬ Text.IsBlank line) (env : Environment) :
    env.Answers line (builtin.execute line env).result := by
  rcases execute_cases builtin line env with
    ⟨hi, -⟩ | ⟨i, hi, ⟨-, ho⟩ | ⟨-, c, hc, hname, ho⟩ | ⟨-, -, ho⟩⟩
  · exact absurd (Text.words_eq_nil_iff.1 (Invocation.words_of_parse?_eq_none hi)) hline
  · rw [ho]
    exact .shows _
  · rw [ho]
    exact answers_run hc hi hname ho
  · rw [ho]
    exact .fails _

theorem execute_eq_clear_iff (hline : ¬ Text.IsBlank line) (env : Environment) :
    (builtin.execute line env).result = .ok .clear ↔
      line.words.head? = some Command.clear.name := by
  constructor
  · intro hresult
    have hanswers := answers_execute hline env
    rw [hresult] at hanswers
    cases hanswers with
    | clears hhead => exact hhead
    | quiet _ _ hne _ => exact absurd rfl hne
  · intro hhead
    have hmem : Command.clear ∈ builtin.commands := by simp [commands_builtin]
    obtain ⟨i, -, ho⟩ := execute_of_head? hmem (by decide) hhead env
    rw [ho]
    rfl

theorem shown_of_quiet (h : env.Quiet line) :
    ∃ output, (builtin.execute line env).result = .ok output ∧ output.shown = [] := by
  cases h with
  | moves p hhead hp =>
    have hmem : Command.cd ∈ builtin.commands := by simp [commands_builtin]
    obtain ⟨i, hargs, ho⟩ := execute_of_head? hmem (by decide) hhead env
    rw [← hargs] at hp
    refine ⟨.nothing, ?_, rfl⟩
    rw [ho]
    simp only [Command.cd, Invocation.argString, hp]
  | sends m hm =>
    exact ⟨.notify m, Outcome.result_of_message? ((message?_execute line env).trans hm), rfl⟩
  | lists d hhead hd hempty =>
    have hmem : Command.ls ∈ builtin.commands := by simp [commands_builtin]
    obtain ⟨i, hargs, ho⟩ := execute_of_head? hmem (by decide) hhead env
    rw [← hargs] at hempty
    refine ⟨.nothing, ?_, rfl⟩
    rw [ho]
    simp [Command.ls, hd, hempty, labels]

end Registry

/-! ## Changes -/

/-- What can happen to the lines that were shown before. -/
inductive Change where
  | clears
  | adds (lines : List Line)

/-- The lines after a change. -/
def Change.on (before : List Line) : Change → List Line
  | .clears => []
  | .adds lines => before ++ lines

namespace Shell

variable {s : Shell} {op : Operation}

/-- What stands below a command: what it shows, or the one line of its error. -/
def below (s : Shell) : Except CommandError Output → List Line
  | .ok output => output.shown
  | .error e => [.plain e.message s.theme.error]

/-- The change that presents the answer to a line. -/
def presentation (s : Shell) (line : Text) : Except CommandError Output → Change
  | .ok .clear => .clears
  | result => .adds (s.promptLine line.trim :: s.below result)

/-- What the input can be completed to. -/
def completion (s : Shell) : Completion :=
  .complete s.session.input s.session.cwd s.tree Registry.builtin.names

/-- The lines that completing the input adds. -/
def offered (s : Shell) : List Line :=
  match s.completion with
  | .noMatch | .replace _ => []
  | .commands names =>
    [s.promptLine s.session.input, .plain (Text.join "  ".toList names) s.theme.output]
  | .entries candidates =>
    [listingLine s.theme (candidates.map fun c => (c.name, c.isDirectory))]

/-- The lines that an operation without a command line adds. -/
def added (s : Shell) : Operation → List Line
  | .poll => s.outbox.poll.1.map (reportLine s.theme)
  | .settle => s.outbox.settle.1.map (reportLine s.theme)
  | .complete => s.offered
  | .key k => if k.code = .tab then s.offered else []
  | _ => []

/-- What an operation does to the scrollback. -/
def change (s : Shell) (op : Operation) : Change :=
  match s.lineOf? op with
  | some line =>
    if line.trim = [] then .adds [] else s.presentation line (s.answer line).result
  | none => .adds (s.added op)

theorem scrollback_present (s : Shell) (line : Text) (result : Except CommandError Output) :
    (s.present (s.promptLine line.trim) result).session.scrollback =
      (s.presentation line result).on s.session.scrollback := by
  cases result with
  | error e => rfl
  | ok output => cases output <;> rfl

theorem presentation_of_ne_clear {result : Except CommandError Output}
    (h : result ≠ .ok .clear) (line : Text) :
    s.presentation line result = .adds (s.promptLine line.trim :: s.below result) := by
  unfold presentation
  split
  · exact absurd rfl h
  · rfl

theorem scrollback_complete (s : Shell) :
    s.complete.session.scrollback = s.session.scrollback ++ s.offered := by
  simp only [complete, offered, completion]
  cases Completion.complete s.session.input s.session.cwd s.tree Registry.builtin.names with
  | commands names => rfl
  | entries candidates => rfl
  | _ => exact (List.append_nil _).symm

theorem added_key (s : Shell) (k : Key) :
    s.added (.key k) = (s.operationOf? k).elim [] s.added := by
  obtain ⟨code, ctrl, alt⟩ := k
  cases code with
  | char c =>
    simp only [operationOf?]
    split_ifs <;> rfl
  | _ => rfl

theorem scrollback_apply_of_no_line (h : s.lineOf? op = none) :
    (s.apply op).session.scrollback = s.session.scrollback ++ s.added op := by
  induction op using s.induction_keys with
  | idle k hk =>
    rw [apply_of_idle hk, added_key, hk]
    exact (List.append_nil _).symm
  | key k op hk ih =>
    rw [lineOf?_key, hk] at h
    rw [apply_of_key hk, added_key, hk]
    exact ih h
  | submit => cases h
  | execute line => cases h
  | complete => exact s.scrollback_complete
  | recallPrevious => exact (Session.scrollback_follow ..).trans (List.append_nil _).symm
  | recallNext => exact (Session.scrollback_follow ..).trans (List.append_nil _).symm
  | poll => rfl
  | settle => rfl
  | _ => exact (List.append_nil _).symm

/-- The change by a command line depends on the directory, whatever else the session holds. -/
theorem change_execute_of_cwd {session : Session} (h : session.cwd = s.session.cwd)
    (line : Text) : change { s with session } (.execute line) = s.change (.execute line) := by
  cases session
  cases h
  rfl

theorem scrollback_execute (s : Shell) (line : Text) :
    (s.execute line).session.scrollback = (s.change (.execute line)).on s.session.scrollback := by
  simp only [change, lineOf?]
  by_cases hline : line.trim = []
  · rw [execute_of_blank hline, if_pos hline]
    exact (List.append_nil _).symm
  · rw [execute_of_not_blank hline, if_neg hline, scrollback_enter, scrollback_present]

theorem change_of_line (h : s.lineOf? op = some line) :
    s.change op = s.change (.execute line) := by
  rw [change, h]
  rfl

/-- **Every operation** empties the scrollback or adds lines to it. -/
theorem scrollback_apply (s : Shell) (op : Operation) :
    (s.apply op).session.scrollback = (s.change op).on s.session.scrollback := by
  cases hline : s.lineOf? op with
  | none =>
    rw [change, hline]
    exact scrollback_apply_of_no_line hline
  | some line =>
    obtain ⟨session, hcwd, hscrollback, hs⟩ := apply_of_line hline
    rw [hs, scrollback_execute, change_execute_of_cwd hcwd, change_of_line hline]
    exact congrArg (Change.on · _) hscrollback

/-! ## Runs -/

/-- What becomes of the lines shown so far, `before`, when a line is executed: `after`. -/
structure Echoes (s : Shell) (line : Text) (before after : List Line) : Prop where
  blank : Text.IsBlank line → after = before
  clears : line.words.head? = some Command.clear.name → after = []
  /-- The line itself comes first, behind the prompt as it was, and below it one line at most. -/
  shows : ¬ Text.IsBlank line → line.words.head? ≠ some Command.clear.name →
    ∃ below, after = before ++ s.promptLine line.trim :: below ∧ below.length ≤ 1 ∧
      (∀ e, (s.answer line).result = .error e → below = [.plain e.message s.theme.error]) ∧
      (∀ output, (s.answer line).result = .ok output → below = output.shown) ∧
      (below = [] ↔ s.environment.Quiet line)

/-- The lines that completing the input adds: none, one of entries, or the prompt with the input
and one of commands. -/
inductive Lists (s : Shell) : List Line → Prop where
  | noMatch (h : s.completion = .noMatch) : Lists s []
  | replace (input : Text) (h : s.completion = .replace input) : Lists s []
  | entries (candidates : List Candidate) (h : s.completion = .entries candidates) :
    Lists s [listingLine s.theme (candidates.map fun c => (c.name, c.isDirectory))]
  | commands (names : List Text) (h : s.completion = .commands names) :
    Lists s [s.promptLine s.session.input, .plain (Text.join "  ".toList names) s.theme.output]

/-- The lines that an operation may add when it executes no line. -/
def Adds (s : Shell) (lines : List Line) : Operation → Prop
  | .poll => lines.length = s.poll.1
  | .settle => lines.length = s.pendingNotifications
  | .complete => s.Lists lines
  | .key k => if k.code = .tab then s.Lists lines else lines = []
  | _ => lines = []

theorem lists_offered (s : Shell) : s.Lists s.offered := by
  unfold offered
  split
  · next h => exact .noMatch h
  · next input h => exact .replace input h
  · next names h => exact .commands names h
  · next candidates h => exact .entries candidates h

theorem adds_added (h : s.outbox.Consistent) (op : Operation) : s.Adds (s.added op) op := by
  cases op with
  | poll => exact List.length_map ..
  | settle => exact (List.length_map ..).trans h.length_settle
  | complete => exact s.lists_offered
  | key k =>
    rw [Adds, added]
    split_ifs
    · exact s.lists_offered
    · rfl
  | _ => rfl

/-- One line at most stands below a command, and none below those that are quiet. -/
theorem below_answer (s : Shell) (hline : ¬ Text.IsBlank line)
    (hclear : line.words.head? ≠ some Command.clear.name) :
    (s.below (s.answer line).result).length ≤ 1 ∧
      (s.below (s.answer line).result = [] ↔ s.environment.Quiet line) := by
  have hanswers : s.environment.Answers line (s.answer line).result :=
    Registry.answers_execute hline s.environment
  have hquiet : s.environment.Quiet line → s.below (s.answer line).result = [] := by
    intro hquiet
    obtain ⟨output, hresult, hempty⟩ := Registry.shown_of_quiet hquiet
    rw [answer, hresult]
    exact hempty
  cases hresult : (s.answer line).result with
  | error e =>
    rw [hresult] at hquiet
    exact ⟨le_rfl, fun h => (List.cons_ne_nil _ _ h).elim, hquiet⟩
  | ok output =>
    rw [hresult] at hanswers hquiet
    cases hanswers with
    | shows l => exact ⟨le_rfl, fun h => (List.cons_ne_nil _ _ h).elim, hquiet⟩
    | clears hhead => exact absurd hhead hclear
    | quiet _ hempty _ hq => exact ⟨by simp [below, hempty], fun _ => hq, hquiet⟩

theorem echoes_change (s : Shell) (before : List Line) (line : Text) :
    s.Echoes line before ((s.change (.execute line)).on before) := by
  simp only [change, lineOf?]
  by_cases hline : Text.IsBlank line
  · rw [if_pos (Text.trim_eq_nil_iff.2 hline)]
    refine ⟨fun _ => List.append_nil before, fun hhead => ?_, fun hnot => absurd hline hnot⟩
    rw [Text.words_eq_nil_iff.2 hline] at hhead
    cases hhead
  · rw [if_neg (mt Text.trim_eq_nil_iff.1 hline)]
    have hiff : (s.answer line).result = .ok .clear ↔ _ :=
      Registry.execute_eq_clear_iff hline s.environment
    refine ⟨fun hblank => absurd hblank hline, fun hhead => ?_, fun _ hclear => ?_⟩
    · rw [hiff.2 hhead]
      rfl
    · obtain ⟨hlength, hquiet⟩ := below_answer s hline hclear
      rw [presentation_of_ne_clear (mt hiff.1 hclear)]
      refine ⟨_, rfl, hlength, fun e he => ?_, fun output ho => ?_, hquiet⟩
      · rw [he]
        rfl
      · rw [ho]
        rfl

/-- Lines stay where they are unless `clear` is executed. -/
theorem Echoes.grows_or_clears {before after : List Line} (h : s.Echoes line before after) :
    before <+: after ∨ line.words.head? = some Command.clear.name ∧ after = [] := by
  by_cases hclear : line.words.head? = some Command.clear.name
  · exact .inr ⟨hclear, h.clears hclear⟩
  · refine .inl ?_
    by_cases hline : Text.IsBlank line
    · rw [h.blank hline]
    · obtain ⟨below, hafter, -⟩ := h.shows hline hclear
      rw [hafter]
      exact List.prefix_append ..

theorem consistent_run_start (tree : Directory) (config : Config) (notifier : Notifier)
    (ops : List Operation) : ((start tree config notifier).run ops).outbox.Consistent := by
  obtain ⟨es, hrun, -⟩ := outbox_run_start tree config notifier ops
  exact hrun.consistent (Outbox.consistent_start _)

/-- **The scrollback only grows, until `clear` empties it.** A command line that is not blank adds
itself and at most one line, as `Echoes` says; polling adds as many lines as it gives, settling one
for each message on its way, completing at most two, and nothing else adds any. -/
theorem run_scrollback (tree : Directory) (config : Config) (notifier : Notifier)
    (ops : List Operation) (op : Operation) :
    let s := (start tree config notifier).run ops
    let before := s.session.scrollback
    let after := (s.apply op).session.scrollback
    (before <+: after ∨
        ∃ line, s.lineOf? op = some line ∧ line.words.head? = some Command.clear.name ∧
          after = []) ∧
      (∀ line, s.lineOf? op = some line → s.Echoes line before after) ∧
      (s.lineOf? op = none → ∃ lines, after = before ++ lines ∧ s.Adds lines op) := by
  intro s before after
  have hchange : after = (s.change op).on before := s.scrollback_apply op
  cases hline : s.lineOf? op with
  | none =>
    have hadds : after = before ++ s.added op := scrollback_apply_of_no_line hline
    refine ⟨.inl ?_, nofun, fun _ => ⟨_, hadds, adds_added ?_ op⟩⟩
    · rw [hadds]
      exact List.prefix_append ..
    · exact consistent_run_start tree config notifier ops
  | some line =>
    have hechoes : s.Echoes line before after := by
      rw [hchange, change_of_line hline]
      exact s.echoes_change before line
    refine ⟨?_, ?_, nofun⟩
    · exact hechoes.grows_or_clears.imp_right fun hclears => ⟨line, rfl, hclears⟩
    · intro line' hline'
      cases hline'
      exact hechoes

/-- Settling adds a line although it executes none. -/
theorem settle_adds_line :
    let s := (start [] {} (.scripted [])).run [.execute "echo from:a \"b\" > hello@drinor.dev"]
    s.lineOf? .settle = none ∧
      (s.apply .settle).session.scrollback =
        s.session.scrollback ++ [.plain "Message sent to hello@drinor.dev." s.theme.output] ∧
      (s.apply .settle).session.scrollback ≠ s.session.scrollback := by
  decide

end Shell

end Showcase
