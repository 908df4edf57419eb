import Showcase.Proofs.Command.Dispatch
import Showcase.Proofs.Mail.Accounting
import Showcase.Shell.Operation

/-!
# What operations leave alone

**Keys.** A key stands for an operation or does nothing (`apply_key`), so that facts about operations
need no look at the keys (`induction_keys`).

**Lines.** An operation executes a command line (`Shell.lineOf?`) or it does not. One that does is
the execution of that line, after a change to what is typed and remembered (`apply_of_line`). One
that does not stays in its directory, and all it does to the outbox is to receive from it
(`apply_of_no_line`).

**Execution.** What executing a line does is read off the answer to it: `cwd_execute` says where it
leads, `outbox_execute` what it sends.

**Setting.** The tree, the theme, the host, the contact and the notifier are never changed
(`setting_run`).

Facts about runs need one look at the operations this way, and it is here.
-/

namespace Showcase

/-! ## Sessions -/

namespace Session

theorem cwd_follow (s : Session) (step : Option (Option Text × History)) :
    (s.follow step).cwd = s.cwd := by
  cases step <;> rfl

theorem scrollback_follow (s : Session) (step : Option (Option Text × History)) :
    (s.follow step).scrollback = s.scrollback := by
  cases step <;> rfl

end Session

/-- The message that an answer asks to send. -/
def Outcome.message? (o : Outcome) : Option Message :=
  match o.result with
  | .ok (.notify m) => some m
  | _ => none

theorem Outcome.result_of_message? {o : Outcome} {m : Message} (h : o.message? = some m) :
    o.result = .ok (.notify m) := by
  rw [message?] at h
  split at h
  · next heq =>
    cases h
    exact heq
  · cases h

namespace Shell

variable {s : Shell} {op : Operation} {line : Text}

/-! ## The setting -/

/-- What no operation changes. -/
structure Setting where
  tree : Directory
  theme : Theme
  hostLabel : Text
  contactAddress : Text
  notifier : Notifier

def setting (s : Shell) : Setting where
  tree := s.tree
  theme := s.theme
  hostLabel := s.hostLabel
  contactAddress := s.contactAddress
  notifier := s.notifier

theorem setting_present (s : Shell) (prompt : Line) (result : Except CommandError Output) :
    (s.present prompt result).setting = s.setting := by
  cases result with
  | error e => rfl
  | ok output => cases output <;> rfl

theorem setting_enter (s : Shell) (cwd : Path) : (s.enter cwd).setting = s.setting := by
  rw [enter]
  split <;> rfl

/-! ## Executing a line -/

/-- What the built-in commands answer to a line. -/
def answer (s : Shell) (line : Text) : Outcome := Registry.builtin.execute line s.environment

theorem execute_of_blank (h : line.trim = []) : s.execute line = s := by
  simp [execute, h]

theorem execute_of_not_blank (h : line.trim ≠ []) :
    s.execute line =
      (s.present (s.promptLine line.trim) (s.answer line).result).enter (s.answer line).cwd := by
  simp [execute, h, answer, Registry.execute_trim]

theorem answer_of_blank (h : line.trim = []) : s.answer line = ⟨.ok .nothing, s.session.cwd⟩ := by
  rw [answer, ← Registry.execute_trim, h]
  rfl

theorem setting_execute (s : Shell) (line : Text) : (s.execute line).setting = s.setting := by
  by_cases h : line.trim = []
  · rw [execute_of_blank h]
  · rw [execute_of_not_blank h, setting_enter, setting_present]

theorem session_enter_of_isSome {cwd : Path} (h : (s.tree.directory? cwd).isSome) :
    (s.enter cwd).session = { s.session with cwd } := by
  rw [enter, if_pos ⟨Directory.isValid_of_directory? h, h⟩]

theorem cwd_execute (h : (s.tree.directory? s.session.cwd).isSome) (line : Text) :
    (s.execute line).session.cwd = (s.answer line).cwd := by
  by_cases hline : line.trim = []
  · rw [execute_of_blank hline, answer_of_blank hline]
  · have hmoves : (s.answer line).MovesWithin s.environment :=
      Registry.movesWithin_execute h line
    have htree : (s.present (s.promptLine line.trim) (s.answer line).result).tree = s.tree :=
      congrArg Setting.tree (setting_present ..)
    rw [execute_of_not_blank hline, session_enter_of_isSome]
    rw [htree]
    exact hmoves.directory

theorem scrollback_enter (s : Shell) (cwd : Path) :
    (s.enter cwd).session.scrollback = s.session.scrollback := by
  rw [enter]
  split <;> rfl

theorem outbox_enter (s : Shell) (cwd : Path) : (s.enter cwd).outbox = s.outbox := by
  rw [enter]
  split <;> rfl

/-- Executing a line sends the message that the answer asks for, and nothing else. -/
theorem outbox_execute (s : Shell) (line : Text) :
    (s.execute line).outbox =
      match (s.answer line).message? with
      | some m => s.outbox.dispatch s.notifier m
      | none => s.outbox := by
  by_cases h : line.trim = []
  · rw [execute_of_blank h, answer_of_blank h]
    rfl
  · rw [execute_of_not_blank h, outbox_enter, Outcome.message?]
    cases (s.answer line).result with
    | error e => rfl
    | ok output => cases output <;> rfl

/-! ## Keys -/

/-- The operation that a key stands for, if it stands for any. -/
def operationOf? (s : Shell) (k : Key) : Option Operation :=
  match k.code with
  | .enter => some .submit
  | .tab => some .complete
  | .up => some .recallPrevious
  | .down => some .recallNext
  | .backspace => some (.setInput s.session.input.dropLast)
  | .char c => if k.ctrl ∨ k.alt then none else some (.setInput (s.session.input ++ [c]))
  | .escape | .other => none

theorem apply_key (s : Shell) (k : Key) :
    s.apply (.key k) = (s.operationOf? k).elim s s.apply := by
  obtain ⟨code, ctrl, alt⟩ := k
  cases code with
  | char c =>
    simp only [apply, handleKey, operationOf?, press]
    split_ifs with hquits hheld
    · rfl
    · -- Ctrl-c has Ctrl held.
      have hctrl : c = 'c' ∧ ctrl := by simpa [quits] using hquits
      exact absurd (.inl hctrl.2) hheld
    · rfl
    · rfl
  | _ => rfl

theorem apply_of_idle {k : Key} (h : s.operationOf? k = none) : s.apply (.key k) = s := by
  rw [apply_key, h, Option.elim_none]

theorem apply_of_key {k : Key} (h : s.operationOf? k = some op) :
    s.apply (.key k) = s.apply op := by
  rw [apply_key, h, Option.elim_some]

theorem ne_key_of_operationOf? {k : Key} (h : s.operationOf? k = some op) (k' : Key) :
    op ≠ .key k' := by
  rintro rfl
  obtain ⟨code, ctrl, alt⟩ := k
  cases code with
  | char c =>
    simp only [operationOf?] at h
    split_ifs at h
    cases h
  | _ => cases h

/-- What holds of the operations that keys stand for holds of the keys. -/
@[elab_as_elim]
theorem induction_keys (s : Shell) {motive : Operation → Prop}
    (idle : ∀ k, s.operationOf? k = none → motive (.key k))
    (key : ∀ k op, s.operationOf? k = some op → motive op → motive (.key k))
    (setInput : ∀ text, motive (.setInput text)) (submit : motive .submit)
    (execute : ∀ line, motive (.execute line)) (complete : motive .complete)
    (recallPrevious : motive .recallPrevious) (recallNext : motive .recallNext)
    (poll : motive .poll) (settle : motive .settle) (cancel : motive .cancel)
    (ready : motive .ready) (sleep : ∀ ms, motive (.sleep ms)) (op : Operation) : motive op := by
  have other (op : Operation) (hkey : ∀ k, op ≠ .key k) : motive op := by
    cases op with
    | key k => exact absurd rfl (hkey k)
    | setInput text => exact setInput text
    | submit => exact submit
    | execute line => exact execute line
    | complete => exact complete
    | recallPrevious => exact recallPrevious
    | recallNext => exact recallNext
    | poll => exact poll
    | settle => exact settle
    | cancel => exact cancel
    | ready => exact ready
    | sleep ms => exact sleep ms
  cases op with
  | key k =>
    cases hop : s.operationOf? k with
    | none => exact idle k hop
    | some op => exact key k op hop (other op (ne_key_of_operationOf? hop))
  | _ => exact other _ nofun

/-! ## Operations -/

/-- The command line that an operation executes: the input, when it is entered, or a given one. -/
def lineOf? (s : Shell) : Operation → Option Text
  | .submit => some s.session.input
  | .execute line => some line
  | .key k => if k.code = .enter then some s.session.input else none
  | _ => none

/-- Completing writes to the input or to the scrollback. -/
theorem exists_complete_eq (s : Shell) :
    ∃ input scrollback, (input = s.session.input ∨ scrollback = s.session.scrollback) ∧
      s.complete = { s with session := { s.session with input, scrollback } } := by
  rw [complete]
  split
  · exact ⟨_, _, .inl rfl, rfl⟩
  · exact ⟨_, _, .inr rfl, rfl⟩
  · exact ⟨_, _, .inl rfl, rfl⟩
  · exact ⟨_, _, .inl rfl, rfl⟩

theorem submit_eq (s : Shell) :
    ∃ session, session.cwd = s.session.cwd ∧ session.scrollback = s.session.scrollback ∧
      s.submit = { s with session }.execute s.session.input :=
  ⟨s.session.takeInput.2.commit s.session.input, rfl, rfl, rfl⟩

theorem lineOf?_key (s : Shell) (k : Key) :
    s.lineOf? (.key k) = (s.operationOf? k).bind s.lineOf? := by
  obtain ⟨code, ctrl, alt⟩ := k
  cases code with
  | char c =>
    simp only [operationOf?]
    split_ifs <;> rfl
  | _ => rfl

/-- An operation with a command line executes it, whatever else it does to the session before. -/
theorem apply_of_line (h : s.lineOf? op = some line) :
    ∃ session, session.cwd = s.session.cwd ∧ session.scrollback = s.session.scrollback ∧
      s.apply op = { s with session }.execute line := by
  induction op using s.induction_keys with
  | idle k hk =>
    rw [lineOf?_key, hk] at h
    cases h
  | key k op hk ih =>
    rw [lineOf?_key, hk] at h
    rw [apply_of_key hk]
    exact ih h
  | submit =>
    cases h
    exact s.submit_eq
  | execute line' =>
    cases h
    exact ⟨s.session, rfl, rfl, rfl⟩
  | _ => cases h

/-- Without a command line an operation goes nowhere and sends nothing. -/
theorem apply_of_no_line (h : s.lineOf? op = none) :
    ∃ session outbox, s.apply op = { s with session, outbox } ∧
      session.cwd = s.session.cwd ∧
      (s.outbox.Consistent → ∃ ds, s.outbox.Receives ds outbox) := by
  have still : s.outbox.Consistent → ∃ ds, s.outbox.Receives ds s.outbox := fun _ =>
    ⟨[], .refl s.outbox⟩
  induction op using s.induction_keys with
  | idle k hk => exact ⟨s.session, s.outbox, apply_of_idle hk, rfl, still⟩
  | key k op hk ih =>
    rw [lineOf?_key, hk] at h
    rw [apply_of_key hk]
    exact ih h
  | setInput text => exact ⟨_, s.outbox, rfl, rfl, still⟩
  | submit => cases h
  | execute line => cases h
  | complete =>
    obtain ⟨input, scrollback, -, hs⟩ := s.exists_complete_eq
    exact ⟨_, s.outbox, hs, rfl, still⟩
  | recallPrevious => exact ⟨_, s.outbox, rfl, Session.cwd_follow .., still⟩
  | recallNext => exact ⟨_, s.outbox, rfl, Session.cwd_follow .., still⟩
  | poll => exact ⟨_, s.outbox.poll.2, rfl, rfl, fun hc => ⟨_, hc.receives_poll⟩⟩
  | settle => exact ⟨_, s.outbox.settle.2, rfl, rfl, fun hc => ⟨_, hc.receives_settle⟩⟩
  | cancel => exact ⟨_, s.outbox.cancel, rfl, rfl, fun _ => ⟨_, s.outbox.receives_cancel⟩⟩
  | ready => exact ⟨_, s.outbox.ready, rfl, rfl, fun _ => ⟨_, s.outbox.receives_ready⟩⟩
  | sleep ms => exact ⟨_, s.outbox.sleep ms, rfl, rfl, fun _ => ⟨_, s.outbox.receives_sleep ms⟩⟩

theorem setting_apply (s : Shell) (op : Operation) : (s.apply op).setting = s.setting := by
  cases hline : s.lineOf? op with
  | none =>
    obtain ⟨session, outbox, hs, -, -⟩ := apply_of_no_line hline
    rw [hs]
    rfl
  | some line =>
    obtain ⟨session, -, -, hs⟩ := apply_of_line hline
    rw [hs, setting_execute]
    rfl

theorem setting_run (s : Shell) (ops : List Operation) : (s.run ops).setting = s.setting := by
  induction ops generalizing s with
  | nil => rfl
  | cons op ops ih => exact (ih (s.apply op)).trans (setting_apply s op)

end Shell

end Showcase
