import Showcase.Proofs.Shell.Scrollback

/-!
# What does not depend on messages

What a user works with is the *view*: the tree, the setting from the configuration, the directory,
the input and the history. The notifier, the outbox and the lines shown so far are not part of it.

**Two shells with one view** behave alike. They answer every line in the same way
(`answer_eq_of_view`), every operation leads them to one view again (`view_apply_eq`), and does the
same to their scrollbacks unless it reports on messages (`change_eq_of_view`). So whatever becomes
of messages, and when, is seen in their reports and nowhere else.

Main result: `run_independent`.
-/

namespace Showcase.Shell

variable {s t : Shell}

/-! ## Views -/

/-- What a user works with. -/
structure View where
  tree : Directory
  theme : Theme
  hostLabel : Text
  contactAddress : Text
  cwd : Path
  input : Text
  history : History

def view (s : Shell) : View where
  tree := s.tree
  theme := s.theme
  hostLabel := s.hostLabel
  contactAddress := s.contactAddress
  cwd := s.session.cwd
  input := s.session.input
  history := s.session.history

/-- The shell with another notifier, other messages on their way and other lines shown. -/
def elsewhere (s : Shell) (notifier : Notifier) (outbox : Outbox) (scrollback : List Line) :
    Shell :=
  { s with notifier, outbox, session := { s.session with scrollback } }

theorem exists_elsewhere (h : s.view = t.view) :
    ∃ notifier outbox scrollback, t = s.elsewhere notifier outbox scrollback := by
  obtain ⟨⟨cwd, scrollback, input, history⟩, tree, theme, hostLabel, contact, notifier, outbox⟩ := t
  refine ⟨notifier, outbox, scrollback, ?_⟩
  cases h
  rfl

/-! ## Answers and changes -/

theorem answer_eq_of_view (h : s.view = t.view) (line : Text) : s.answer line = t.answer line := by
  obtain ⟨notifier, outbox, scrollback, rfl⟩ := exists_elsewhere h
  rfl

/-- Reports apart, operations do the same to the scrollbacks. -/
theorem change_eq_of_view (h : s.view = t.view) {op : Operation} (hpoll : op ≠ .poll)
    (hsettle : op ≠ .settle) : s.change op = t.change op := by
  obtain ⟨notifier, outbox, scrollback, rfl⟩ := exists_elsewhere h
  cases op with
  | poll => exact absurd rfl hpoll
  | settle => exact absurd rfl hsettle
  | _ => rfl

/-! ## Steps -/

theorem view_present (s : Shell) (prompt : Line) (result : Except CommandError Output) :
    (s.present prompt result).view = s.view := by
  cases result with
  | error e => rfl
  | ok output => cases output <;> rfl

theorem view_enter_eq (h : s.view = t.view) (cwd : Path) :
    (s.enter cwd).view = (t.enter cwd).view := by
  have htree : s.tree = t.tree := congrArg View.tree h
  unfold enter
  rw [htree]
  split_ifs
  · obtain ⟨notifier, outbox, scrollback, rfl⟩ := exists_elsewhere h
    rfl
  · exact h

theorem view_execute_eq (h : s.view = t.view) (line : Text) :
    (s.execute line).view = (t.execute line).view := by
  by_cases hline : line.trim = []
  · rwa [execute_of_blank hline, execute_of_blank hline]
  · rw [execute_of_not_blank hline, execute_of_not_blank hline, answer_eq_of_view h]
    refine view_enter_eq ?_ _
    rw [view_present, view_present, h]

theorem view_submit_eq (h : s.view = t.view) : s.submit.view = t.submit.view := by
  obtain ⟨notifier, outbox, scrollback, rfl⟩ := exists_elsewhere h
  refine view_execute_eq ?_ s.session.input
  rfl

theorem view_complete_eq (h : s.view = t.view) : s.complete.view = t.complete.view := by
  obtain ⟨notifier, outbox, scrollback, rfl⟩ := exists_elsewhere h
  have hcompletion : (s.elsewhere notifier outbox scrollback).completion = s.completion := rfl
  simp only [completion] at hcompletion
  simp only [complete, hcompletion]
  cases Completion.complete s.session.input s.session.cwd s.tree Registry.builtin.names <;> rfl

theorem view_recall_eq (h : s.view = t.view) (step : History → Option (Option Text × History)) :
    view { s with session := s.session.follow (step s.session.history) } =
      view { t with session := t.session.follow (step t.session.history) } := by
  obtain ⟨notifier, outbox, scrollback, rfl⟩ := exists_elsewhere h
  show view { s with session := s.session.follow (step s.session.history) } =
    view { s.elsewhere notifier outbox scrollback with
      session := Session.follow { s.session with scrollback } (step s.session.history) }
  cases step s.session.history <;> rfl

theorem operationOf?_eq_of_view (h : s.view = t.view) (k : Key) :
    s.operationOf? k = t.operationOf? k := by
  obtain ⟨notifier, outbox, scrollback, rfl⟩ := exists_elsewhere h
  rfl

/-- **A step** leads from one view to one view. -/
theorem view_apply_eq (h : s.view = t.view) (op : Operation) :
    (s.apply op).view = (t.apply op).view := by
  induction op using s.induction_keys with
  | idle k hk =>
    have hk' : t.operationOf? k = none := operationOf?_eq_of_view h k ▸ hk
    rw [apply_of_idle hk, apply_of_idle hk']
    exact h
  | key k op hk ih =>
    have hk' : t.operationOf? k = some op := operationOf?_eq_of_view h k ▸ hk
    rw [apply_of_key hk, apply_of_key hk']
    exact ih
  | setInput text =>
    obtain ⟨notifier, outbox, scrollback, rfl⟩ := exists_elsewhere h
    rfl
  | submit => exact view_submit_eq h
  | execute line => exact view_execute_eq h line
  | complete => exact view_complete_eq h
  | recallPrevious => exact view_recall_eq h History.back
  | recallNext => exact view_recall_eq h History.forward
  | _ => exact h

/-- **A run** leads from one view to one view. -/
theorem view_run_eq (h : s.view = t.view) (ops : List Operation) :
    (s.run ops).view = (t.run ops).view := by
  induction ops generalizing s t with
  | nil => exact h
  | cons op ops ih => exact ih (view_apply_eq h op)

/-- **Messages do not reach the user's work.** Two shells that differ in the notifier, the outbox
and the lines shown so far go through any run alike: after each step they have the same directory,
input and history, keys have the same result, and a step that reports on no messages adds the same
lines to both or empties both. -/
theorem run_independent (h : s.view = t.view) (ops : List Operation) (op : Operation) :
    let s' := s.run ops
    let t' := t.run ops
    (s'.apply op).session.cwd = (t'.apply op).session.cwd ∧
      (s'.apply op).session.input = (t'.apply op).session.input ∧
      (s'.apply op).session.history = (t'.apply op).session.history ∧
      (∀ k, (s'.handleKey k).1 = (t'.handleKey k).1) ∧
      (op ≠ .poll → op ≠ .settle →
        (∃ lines,
          (s'.apply op).session.scrollback = s'.session.scrollback ++ lines ∧
            (t'.apply op).session.scrollback = t'.session.scrollback ++ lines) ∨
          (s'.apply op).session.scrollback = [] ∧ (t'.apply op).session.scrollback = []) := by
  intro s' t'
  have hrun : s'.view = t'.view := view_run_eq h ops
  have happly : (s'.apply op).view = (t'.apply op).view := view_apply_eq hrun op
  refine ⟨congrArg View.cwd happly, congrArg View.input happly, congrArg View.history happly,
    fun k => ?_, fun hpoll hsettle => ?_⟩
  · rw [handleKey, handleKey]
    split_ifs <;> rfl
  · rw [scrollback_apply s', scrollback_apply t', change_eq_of_view hrun hpoll hsettle]
    cases t'.change op with
    | clears => exact .inr ⟨rfl, rfl⟩
    | adds lines => exact .inl ⟨lines, rfl, rfl⟩

/-- A shell without a notifier, and one in which an earlier message arrives late: polling shows a
report in the second alone, and what is done next is done in both. -/
theorem run_independent_late :
    let s := start [] {} .disabled
    let m : Message := { sender := ['x'], body := ['b'], recipient := "hello@drinor.dev" }
    let t := { s with
      notifier := .scripted [.answer 5 true]
      outbox := s.outbox.dispatch (.scripted [.answer 5 true]) m }
    let ops := [.execute "cd nowhere", .sleep 5, .poll, .setInput "pw"]
    s.view = t.view ∧
      (s.run ops).session.scrollback.length = 2 ∧ (t.run ops).session.scrollback.length = 3 ∧
      ((s.run ops).apply .complete).session.input = ((t.run ops).apply .complete).session.input ∧
      ((s.run ops).apply .complete).session.input = "pwd ".toList := by
  intro s m t ops
  have hview : s.view = t.view := rfl
  obtain ⟨-, hinput, -⟩ := run_independent hview ops .complete
  exact ⟨hview, by decide, by decide, hinput, by decide⟩

end Showcase.Shell
