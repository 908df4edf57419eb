import Showcase.Proofs.Mail.Timing
import Showcase.Proofs.Shell.Letters

/-!
# Reports on messages

To settle is to wait for all messages on their way and to report on each of them with a line.

**Postings.** The messages that a run dispatches, each with its time and with the reply that it will
get, can be read off the run (`Shell.postings`); the outbox keeps the timetable of them
(`Shell.timed_run`). So what settling shows, and in which order, follows from when the messages were
dispatched and what the notifier replies.

**Lines** (`Reports`). There are three: the message was sent, the delivery failed, or the time ran
out. Which of them it is depends on the reply and on whether it comes within the timeout; one that
comes just at the end of it is in time.

Main result: `Shell.run_settle`.
-/

namespace Showcase

/-! ## Lines -/

/-- The line for a message that was sent. -/
def sentLine (theme : Theme) (recipient : Text) : Line :=
  .plain ("Message sent to ".toList ++ recipient ++ ".".toList) theme.output

/-- The line for a message that the notifier turned down. -/
def failedLine (theme : Theme) : Line :=
  .plain "echo: message not sent (delivery failed)" theme.error

/-- The line for a message to which there was no reply in time. -/
def lateLine (theme : Theme) (timeoutMs : Nat) : Line :=
  .plain ("echo: message not sent (timed out after ".toList ++ decimal timeoutMs ++ "ms)".toList)
    theme.error

/-- The line tells what became of the message, given the reply to it. -/
structure Reports (theme : Theme) (timeoutMs : Nat) (p : Posting) (line : Line) : Prop where
  sent : line = sentLine theme p.message.recipient ↔ p.reply.AcceptsWithin timeoutMs
  failed : line = failedLine theme ↔ p.reply.FailsWithin timeoutMs
  late : line = lateLine theme timeoutMs ↔ p.reply.Outlasts timeoutMs
  /-- It is one of the three. -/
  known : line = sentLine theme p.message.recipient ∨ line = failedLine theme ∨
    line = lateLine theme timeoutMs

variable {theme : Theme} {timeoutMs : Nat}

theorem sentLine_ne_failedLine (recipient : Text) :
    sentLine theme recipient ≠ failedLine theme := by
  intro h
  have hfirst := congrArg (fun line => line.text[0]?) h
  cases hfirst

theorem sentLine_ne_lateLine (recipient : Text) :
    sentLine theme recipient ≠ lateLine theme timeoutMs := by
  intro h
  have hfirst := congrArg (fun line => line.text[0]?) h
  cases hfirst

/-- The reasons differ from their first letter on. -/
theorem failedLine_ne_lateLine : failedLine theme ≠ lateLine theme timeoutMs := by
  intro h
  have hreason := congrArg (fun line => line.text[24]?) h
  cases hreason

/-- A reply accepts in time, fails in time, or is not there in time, and only one of them. -/
theorem Reply.cases_within (timeoutMs : Nat) (r : Reply) :
    (r.AcceptsWithin timeoutMs ∧ ¬ r.FailsWithin timeoutMs ∧ ¬ r.Outlasts timeoutMs ∧
        (r.settlement timeoutMs).2 = none) ∨
      (¬ r.AcceptsWithin timeoutMs ∧ r.FailsWithin timeoutMs ∧ ¬ r.Outlasts timeoutMs ∧
        (r.settlement timeoutMs).2 = some .refused) ∨
      (¬ r.AcceptsWithin timeoutMs ∧ ¬ r.FailsWithin timeoutMs ∧ r.Outlasts timeoutMs ∧
        (r.settlement timeoutMs).2 = some (.timedOut timeoutMs)) := by
  cases r with
  | answer delay accepted =>
    by_cases h : delay ≤ timeoutMs
    · cases accepted <;> simp [AcceptsWithin, FailsWithin, Outlasts, delay?, settlement, h]
    · simp [AcceptsWithin, FailsWithin, Outlasts, delay?, settlement, h, Nat.lt_of_not_le h]
  | breakdown delay =>
    by_cases h : delay ≤ timeoutMs
    · simp [AcceptsWithin, FailsWithin, Outlasts, delay?, settlement, h]
    · simp [AcceptsWithin, FailsWithin, Outlasts, delay?, settlement, h, Nat.lt_of_not_le h]
  | silence => simp [AcceptsWithin, FailsWithin, Outlasts, delay?, settlement]

theorem reportLine_of_refused {d : Delivery} (h : d.failure = some .refused) :
    Shell.reportLine theme d = failedLine theme := by
  rw [Shell.reportLine, h]
  rfl

theorem message_timedOut (timeoutMs : Nat) :
    (SendFailure.timedOut timeoutMs).message =
      "echo: message not sent (timed out after ".toList ++ decimal timeoutMs ++ "ms)".toList := by
  have hbefore : "echo: message not sent (timed out after ".toList =
      "echo: message not sent (".toList ++ "timed out after ".toList := by decide
  have hafter : "ms)".toList = "ms".toList ++ ")".toList := by decide
  rw [hbefore, hafter]
  unfold SendFailure.message SendFailure.reason
  simp only [List.append_assoc]

theorem reportLine_of_timedOut {d : Delivery} (h : d.failure = some (.timedOut timeoutMs)) :
    Shell.reportLine theme d = lateLine theme timeoutMs := by
  rw [Shell.reportLine, h, lateLine, ← message_timedOut]

/-- The line for a message is the one that the reply to it deserves. -/
theorem reports_reportLine (theme : Theme) (timeoutMs ticket : Nat) (p : Posting) :
    Reports theme timeoutMs p (Shell.reportLine theme (p.delivery timeoutMs ticket)) := by
  rcases p.reply.cases_within timeoutMs with
    ⟨ha, hf, ho, hresult⟩ | ⟨ha, hf, ho, hresult⟩ | ⟨ha, hf, ho, hresult⟩
  · have hline : Shell.reportLine theme (p.delivery timeoutMs ticket) =
        sentLine theme p.message.recipient := by
      rw [Shell.reportLine, Posting.delivery, hresult]
      rfl
    rw [hline]
    exact ⟨iff_of_true rfl ha, iff_of_false (sentLine_ne_failedLine _) hf,
      iff_of_false (sentLine_ne_lateLine _) ho, .inl rfl⟩
  · rw [reportLine_of_refused (d := p.delivery timeoutMs ticket) hresult]
    exact ⟨iff_of_false (sentLine_ne_failedLine _).symm ha, iff_of_true rfl hf,
      iff_of_false failedLine_ne_lateLine ho, .inr (.inl rfl)⟩
  · rw [reportLine_of_timedOut (d := p.delivery timeoutMs ticket) hresult]
    exact ⟨iff_of_false (sentLine_ne_lateLine _).symm ha,
      iff_of_false failedLine_ne_lateLine.symm hf, iff_of_true rfl ho, .inr (.inr rfl)⟩

namespace Shell

variable {s : Shell} {op : Operation} {ps : List Posting}

/-! ## Postings -/

/-- The message that an operation dispatches, with its time and its reply. -/
def posting? (s : Shell) (op : Operation) : Option Posting :=
  ((s.lineOf? op).bind (Message.ofLine? s.contactAddress)).map (s.outbox.posting s.notifier)

/-- What a run dispatches, in order. -/
def postings (s : Shell) : List Operation → List Posting
  | [] => []
  | op :: ops => (s.posting? op).toList ++ (s.apply op).postings ops

theorem later_apply_of_no_line (h : s.lineOf? op = none) :
    s.outbox.Later (s.apply op).outbox := by
  induction op using s.induction_keys with
  | idle k hk =>
    rw [apply_of_idle hk]
    exact .refl _
  | key k op hk ih =>
    rw [lineOf?_key, hk] at h
    rw [apply_of_key hk]
    exact ih h
  | submit => cases h
  | execute line => cases h
  | complete =>
    obtain ⟨input, scrollback, -, hs⟩ := s.exists_complete_eq
    rw [apply, hs]
    exact .refl _
  | poll => exact Outbox.later_poll _
  | settle => exact Outbox.later_settle _
  | cancel => exact Outbox.later_cancel _
  | ready => exact Outbox.later_ready _
  | sleep ms => exact Outbox.later_sleep _ ms
  | _ => exact .refl _

/-- **One operation** keeps the timetable. -/
theorem timed_apply (hc : s.outbox.Consistent) (ht : s.outbox.Timed ps) (op : Operation) :
    (s.apply op).outbox.Timed (ps ++ (s.posting? op).toList) := by
  rw [posting?]
  cases hline : s.lineOf? op with
  | none =>
    rw [Option.bind_none, Option.map_none, Option.toList_none, List.append_nil]
    exact ht.later (later_apply_of_no_line hline)
  | some line =>
    obtain ⟨session, -, -, hs⟩ := apply_of_line hline
    have hmessage : (answer { s with session } line).message? =
        Message.ofLine? s.contactAddress line := message?_answer _ line
    rw [hs, outbox_execute, hmessage, Option.bind_some]
    cases Message.ofLine? s.contactAddress line with
    | none =>
      rw [Option.map_none, Option.toList_none, List.append_nil]
      exact ht
    | some m => exact ht.dispatch hc.ordered s.notifier m

/-- **A run** keeps the timetable of all that it dispatches. -/
theorem timed_run (hc : s.outbox.Consistent) (ht : s.outbox.Timed ps) (ops : List Operation) :
    (s.run ops).outbox.Timed (ps ++ s.postings ops) := by
  induction ops generalizing s ps with
  | nil =>
    rw [postings, List.append_nil]
    exact ht
  | cons op ops ih =>
    obtain ⟨es, hrun, -⟩ := outbox_run_apply hc op
    rw [postings, ← List.append_assoc]
    exact ih (hrun.consistent hc) (timed_apply hc ht op)

/-! ## Settling -/

theorem settle_eq (s : Shell) :
    s.settle =
      { s with
        outbox := s.outbox.settle.2
        session := s.session.pushLines (s.outbox.settle.1.map (reportLine s.theme)) } :=
  rfl

theorem poll_eq_of_inFlight (hc : s.outbox.Consistent) (hn : s.outbox.inFlight = 0) :
    s.poll = (0, s) := by
  rw [poll, hc.poll_eq_of_inFlight hn]
  simp [report, pushLines, Session.pushLines]

theorem settle_eq_of_inFlight (hn : s.outbox.inFlight = 0) : s.settle = s := by
  rw [settle_eq, Outbox.settle_eq_of_inFlight hn]
  simp [Session.pushLines]

/-- What settling does, given what was dispatched: it receives the deliveries and shows a line for
each of them. -/
structure Settles (s : Shell) (theme : Theme) (timeoutMs : Nat) (ps : List Posting)
    (ds : List Delivery) (lines : List Line) : Prop where
  drains : s.outbox.Drains ds s.settle.outbox
  counted : ds.length = s.pendingNotifications
  /-- They are those that are owed, whatever events have led here. -/
  owed : ∀ es, Outbox.Run { timeoutMs } es s.outbox →
    (ds.map Delivery.ticket).Perm (Outbox.unreceived es)
  /-- They come in the order in which the sends settle. -/
  ordered : (ds.map Delivery.ticket).Pairwise (Posting.Precedes timeoutMs ps)
  shown : s.settle.session = { s.session with scrollback := s.session.scrollback ++ lines }
  reported : List.Forall₂
    (fun d line => ∃ p, ps[d.ticket]? = some p ∧ Reports theme timeoutMs p line) ds lines
  nothingLeft : s.settle.pendingNotifications = 0
  pollAfter : s.settle.poll = (0, s.settle)
  settleAfter : s.settle.settle = s.settle

theorem settles_of_timed (hc : s.outbox.Consistent) (ht : s.outbox.Timed ps) :
    ∃ ds lines, s.Settles s.theme s.outbox.timeoutMs ps ds lines := by
  have hdrains := hc.drains
  obtain ⟨hds, hsettled, hnone⟩ := hdrains.eq_toCome hc
  refine ⟨s.outbox.settle.1, s.outbox.settle.1.map (reportLine s.theme), ?_⟩
  refine
    { drains := hdrains
      counted := hc.length_settle
      owed := ?_
      ordered := ?_
      shown := rfl
      reported := ?_
      nothingLeft := hnone
      pollAfter := poll_eq_of_inFlight hsettled hnone
      settleAfter := settle_eq_of_inFlight hnone }
  · intro es hrun
    rw [hds]
    exact s.outbox.perm_waiting.trans hrun.recorded.owed
  · rw [hds]
    exact ht.ordered.sublist s.outbox.toCome_sublist
  · rw [List.forall₂_map_right_iff, List.forall₂_same]
    intro d hd
    rw [hds] at hd
    obtain ⟨due, p, hp, -, hdelivery⟩ := ht.mem_toCome hd
    refine ⟨p, hp, ?_⟩
    rw [hdelivery]
    exact reports_reportLine s.theme s.outbox.timeoutMs d.ticket p

/-- **Settling reports on every message on its way**, once and in the order in which the sends
settle, and leaves nothing to report. -/
theorem run_settle (tree : Directory) (config : Config) (notifier : Notifier)
    (ops : List Operation) :
    let s := (start tree config notifier).run ops
    let ps := (start tree config notifier).postings ops
    let timeoutMs := config.notifier.timeoutMs
    (∃ es, Outbox.Run { timeoutMs } es s.outbox ∧
        Outbox.dispatched es = ps.map Posting.message) ∧
      ∃ ds lines, s.Settles config.palette.theme timeoutMs ps ds lines := by
  intro s ps timeoutMs
  obtain ⟨es, hrun, -⟩ := outbox_run_start tree config notifier ops
  have hconsistent : s.outbox.Consistent := hrun.consistent (Outbox.consistent_start _)
  have htimed : s.outbox.Timed ps :=
    timed_run (s := start tree config notifier) (Outbox.consistent_start _)
      (Outbox.timed_start _) ops
  have htimeout : s.outbox.timeoutMs = timeoutMs := hrun.timeoutMs_eq
  have htheme : s.theme = config.palette.theme := congrArg Setting.theme (setting_run ..)
  refine ⟨⟨es, hrun, hrun.recorded.sent.symm.trans htimed.sent.symm⟩, ?_⟩
  rw [← htimeout, ← htheme]
  exact settles_of_timed hconsistent htimed

end Shell

end Showcase
