import Mathlib
import Showcase.Proofs.Mail.Grammar
import Showcase.Proofs.Shell.Frame

/-!
# What a shell sends

**Lines that send.** Whether a command line sends a message is a question to the line and the
contact alone (`Message.ofLine?`), whatever the shell has been through, and the answer to the line
asks for that message and no other (`Registry.message?_execute`).

**Runs.** So the messages that a run hands to the notifier are those of the lines it executes, in
order (`outbox_run`); no other operation sends anything.

**The contact.** A configuration has an address that is a word, and a message for an address can
be written when it is a word without a `>`. One that has a `>` is accepted all the same, and then
no line sends anything.

Main results: `outbox_run`, `Message.ofLine?_line`, `Message.not_mem_of_ofLine?`.
-/

namespace Showcase

/-! ## Lines that send -/

namespace Message

theorem read?_trimStart (raw : Text) : read? raw.trimStart = read? raw := by
  rw [read?, Text.trim_trimStart, ← read?]

theorem toOption_parse (raw : Text) : (parse raw).toOption = read? raw := by
  rw [parse]
  cases read? raw <;> rfl

/-- The message that a command line sends to the contact: the line's first word is `echo`, and what
follows it describes a message for the contact. -/
def ofLine? (contact line : Text) : Option Message :=
  if line.words.head? = some Command.echo.name then
    (parse (line.trim.drop Command.echo.name.length)).toOption.filter fun m =>
      m.recipient = contact
  else none

end Message

theorem Command.message?_echo (i : Invocation) (env : Environment) :
    (echo.run i env).message? =
      (Message.parse i.rawArgs).toOption.filter fun m => m.recipient = env.contactAddress := by
  simp only [echo]
  cases Message.parse i.rawArgs with
  | error e => rfl
  | ok m =>
    by_cases h : m.recipient = env.contactAddress
    · simp [Outcome.message?, Except.toOption, Option.filter, h]
    · simp [Outcome.message?, Except.toOption, Option.filter, h]

/-- **Only `echo` sends.** -/
theorem Command.message?_run {c : Command} (hc : c ∈ Registry.builtin.commands) (hne : c ≠ echo)
    (i : Invocation) (env : Environment) : (c.run i env).message? = none := by
  rw [Registry.commands_builtin] at hc
  fin_cases hc
  · simp only [ls]
    split
    · rfl
    · split_ifs <;> rfl
  · rcases cd_cases i env with ⟨p, -, hrun⟩ | ⟨e, hrun⟩ <;> rw [hrun] <;> rfl
  · simp only [cat]
    split <;> rfl
  · rfl
  · rfl
  · rfl
  · exact absurd rfl hne

/-- **What a line sends** depends on the line and the contact alone. -/
theorem Registry.message?_execute (line : Text) (env : Environment) :
    (builtin.execute line env).message? = Message.ofLine? env.contactAddress line := by
  cases hi : Invocation.parse? line with
  | none =>
    have hwords := Invocation.words_of_parse?_eq_none hi
    simp [execute, hi, Message.ofLine?, hwords, Outcome.message?]
  | some i =>
    have hwords := Invocation.words_of_parse? hi
    by_cases hecho : i.name = Command.echo.name
    · have hmem : Command.echo ∈ builtin.commands := by simp [commands_builtin]
      rw [execute_builtin hmem (by decide) hi hecho, Command.message?_echo, Message.ofLine?,
        hwords, if_pos (by rw [List.head?_cons, hecho]), Invocation.rawArgs_of_parse? hi, hecho,
        Message.toOption_parse, Message.toOption_parse, Message.read?_trimStart]
    · have hhead : line.words.head? ≠ some Command.echo.name := by
        rw [hwords, List.head?_cons]
        simpa using hecho
      rw [Message.ofLine?, if_neg hhead]
      rcases execute_cases builtin line env with
        ⟨-, ho⟩ | ⟨i', hi', ⟨-, ho⟩ | ⟨-, c, hc, hname, ho⟩ | ⟨-, -, ho⟩⟩ <;> rw [ho]
      · rfl
      · rfl
      · refine Command.message?_run hc (fun heq => hecho ?_) i' env
        rw [hi] at hi'
        cases hi'
        rw [← hname, heq]
      · rfl

/-! ## Runs -/

namespace Shell

variable {s : Shell} {op : Operation}

/-- The command lines that a run executes, in order. -/
def executed (s : Shell) : List Operation → List Text
  | [] => []
  | op :: ops => (s.lineOf? op).toList ++ (s.apply op).executed ops

theorem message?_answer (s : Shell) (line : Text) :
    (s.answer line).message? = Message.ofLine? s.contactAddress line :=
  Registry.message?_execute line s.environment

theorem outbox_run_execute (s : Shell) (line : Text) :
    ∃ es, Outbox.Run s.outbox es (s.execute line).outbox ∧
      Outbox.dispatched es = (Message.ofLine? s.contactAddress line).toList := by
  rw [outbox_execute, message?_answer]
  cases Message.ofLine? s.contactAddress line with
  | none => exact ⟨[], .nil, rfl⟩
  | some m => exact ⟨[.dispatch m], .single (.dispatch s.outbox s.notifier m), rfl⟩

theorem outbox_run_apply (h : s.outbox.Consistent) (op : Operation) :
    ∃ es, Outbox.Run s.outbox es (s.apply op).outbox ∧
      Outbox.dispatched es =
        (s.lineOf? op).toList.filterMap (Message.ofLine? s.contactAddress) := by
  cases hline : s.lineOf? op with
  | none =>
    obtain ⟨session, outbox, hs, -, hreceives⟩ := apply_of_no_line hline
    obtain ⟨ds, es, hrun, hdispatched, -⟩ := hreceives h
    rw [hs]
    exact ⟨es, hrun, hdispatched⟩
  | some line =>
    obtain ⟨session, -, -, hs⟩ := apply_of_line hline
    obtain ⟨es, hrun, hdispatched⟩ := outbox_run_execute { s with session } line
    rw [hs]
    refine ⟨es, hrun, ?_⟩
    rw [hdispatched, Option.toList_some]
    cases hm : Message.ofLine? s.contactAddress line <;> simp [hm]

/-- **A run of the shell is a run of its outbox**, in which the executed lines are what is
dispatched. -/
theorem outbox_run (h : s.outbox.Consistent) (ops : List Operation) :
    ∃ es, Outbox.Run s.outbox es (s.run ops).outbox ∧
      Outbox.dispatched es = (s.executed ops).filterMap (Message.ofLine? s.contactAddress) := by
  induction ops generalizing s with
  | nil => exact ⟨[], .nil, rfl⟩
  | cons op ops ih =>
    obtain ⟨es, hrun, hes⟩ := outbox_run_apply h op
    obtain ⟨es', hrun', hes'⟩ := ih (hrun.consistent h)
    have hcontact : (s.apply op).contactAddress = s.contactAddress :=
      congrArg Setting.contactAddress (setting_apply s op)
    refine ⟨es ++ es', hrun.append hrun', ?_⟩
    rw [Outbox.dispatched_append, hes, hes', hcontact, executed, List.filterMap_append]

theorem outbox_run_start (tree : Directory) (config : Config) (notifier : Notifier)
    (ops : List Operation) :
    ∃ es, Outbox.Run { timeoutMs := config.notifier.timeoutMs } es
        ((start tree config notifier).run ops).outbox ∧
      Outbox.dispatched es =
        ((start tree config notifier).executed ops).filterMap
          (Message.ofLine? config.contactAddress) :=
  outbox_run (s := start tree config notifier) (Outbox.consistent_start _) ops

/-- **What was sent** are the messages of the lines that were executed, each once and in order. An
operation that executes no line sends nothing. -/
theorem run_sent (tree : Directory) (config : Config) (notifier : Notifier)
    (ops : List Operation) :
    let s := (start tree config notifier).run ops
    s.outbox.sent =
        ((start tree config notifier).executed ops).filterMap
          (Message.ofLine? config.contactAddress) ∧
      ∀ op, s.lineOf? op = none → (s.apply op).outbox.sent = s.outbox.sent := by
  intro s
  obtain ⟨es, hrun, hes⟩ := outbox_run_start tree config notifier ops
  refine ⟨hrun.recorded.sent.trans hes, fun op hop => ?_⟩
  obtain ⟨es', hrun', hes'⟩ :=
    outbox_run_apply (hrun.consistent (Outbox.consistent_start _)) op
  rw [(hrun.append hrun').recorded.sent, hrun.recorded.sent, Outbox.dispatched_append, hes', hop]
  exact List.append_nil _

theorem sent_execute (s : Shell) (line : Text) :
    (s.execute line).outbox.sent =
      s.outbox.sent ++ (Message.ofLine? s.contactAddress line).toList := by
  rw [outbox_execute, message?_answer]
  cases Message.ofLine? s.contactAddress line with
  | none => exact (List.append_nil _).symm
  | some m => rfl

/-- A line that sends a message shows nothing but itself. -/
theorem scrollback_execute_of_message {line : Text} {m : Message}
    (h : Message.ofLine? s.contactAddress line = some m) :
    (s.execute line).session.scrollback =
      s.session.scrollback ++ [s.promptLine line.trim] := by
  have hblank : line.trim ≠ [] := by
    intro hline
    rw [← message?_answer, answer_of_blank hline] at h
    cases h
  have hresult : (s.answer line).result = .ok (.notify m) :=
    Outcome.result_of_message? ((s.message?_answer line).trans h)
  rw [execute_of_not_blank hblank, scrollback_enter, hresult]
  rfl

/-! ## The contact -/

end Shell

theorem Config.contactAddress_of_ofToml {text : Text} {config : Config}
    (h : ofToml text = .ok config) :
    config.contactAddress ≠ [] ∧ config.contactAddress.hasBlank = false := by
  rw [ofToml] at h
  split at h
  · cases h
  · split at h
    · cases h
    · split at h
      · cases h
      · next hfault =>
        cases h
        rw [fault?] at hfault
        split_ifs at hfault with hhost hcontact
        simpa [and_comm] using hcontact

namespace Message

/-- The command line that writes a message, with one space between its parts. -/
def line (m : Message) : Text :=
  "echo from:".toList ++ m.sender ++ " \"".toList ++ m.body ++ "\" > ".toList ++ m.recipient

theorem line_eq (m : Message) :
    m.line = Command.echo.name ++ ' ' :: m.written [' '] [' '] [' '] := by
  show "echo from:".toList ++ m.sender ++ " \"".toList ++ m.body ++ "\" > ".toList ++
    m.recipient = _
  simp [written, senderMark, Command.echo]

variable {m : Message} {contact : Text}

theorem trim_line (hr : m.recipient ≠ []) (hw : m.recipient.hasBlank = false) :
    m.line.trim = m.line := by
  have h := Text.trim_cons_append_word (c := 'e') (by decide) ("cho from:".toList ++ m.sender ++
    " \"".toList ++ m.body ++ "\" > ".toList) hr hw
  simpa [line_eq, written, senderMark, Command.echo] using h

theorem head?_words_line (m : Message) : m.line.words.head? = some Command.echo.name := by
  rw [line_eq, Text.words_append_cons (by decide), Text.words_eq_singleton (by decide) (by decide)]
  rfl

/-- A message that can be written is sent by its line. -/
theorem ofLine?_line (hm : m.Writable) : ofLine? m.recipient m.line = some m := by
  have hspace : Text.IsBlank [' '] := by
    intro c hc
    rw [List.mem_singleton.1 hc]
    decide
  have hread : read? (' ' :: m.written [' '] [' '] [' ']) = some m := by
    refine read?_of_trim hm (by simp) hspace hspace hspace ?_
    rw [← List.singleton_append, Text.trim, Text.trimStart_append hspace]
    exact trim_written hm _ _ _
  rw [ofLine?, if_pos m.head?_words_line, trim_line hm.recipient hm.recipientWord, line_eq,
    List.drop_left, toOption_parse, hread]
  simp [Option.filter]

theorem not_mem_of_ofLine? {text : Text} (h : ofLine? contact text = some m) : '>' ∉ contact := by
  rw [ofLine?] at h
  split_ifs at h
  obtain ⟨hread, hcontact⟩ := Option.filter_eq_some_iff.1 h
  rw [toOption_parse] at hread
  rw [← of_decide_eq_true hcontact]
  exact not_mem_recipient_of_read? hread

end Message

namespace Shell

/-- **An accepted contact is written to just when it has no `>`**: then the line of any message
for it sends this message and shows nothing but itself. Otherwise no run ever sends anything. -/
theorem execute_line_sent_iff {text : Text} {config : Config}
    (hconfig : Config.ofToml text = .ok config) (tree : Directory) (notifier : Notifier)
    (ops : List Operation) {sender : Text} (hsender : sender ≠ [])
    (hword : sender.hasBlank = false) (body : Text) :
    let s := (start tree config notifier).run ops
    let m : Message := { sender, body, recipient := config.contactAddress }
    ((s.execute m.line).outbox.sent = s.outbox.sent ++ [m] ∧
        (s.execute m.line).session.scrollback = s.session.scrollback ++ [s.promptLine m.line] ↔
      '>' ∉ config.contactAddress) ∧
      ('>' ∈ config.contactAddress → s.outbox.sent = []) := by
  intro s m
  have hcontact : s.contactAddress = config.contactAddress :=
    congrArg Setting.contactAddress (setting_run ..)
  obtain ⟨hne, hblank⟩ := Config.contactAddress_of_ofToml hconfig
  refine ⟨⟨?_, ?_⟩, ?_⟩
  · rintro ⟨hsent, -⟩
    rw [sent_execute, List.append_cancel_left_eq, hcontact] at hsent
    obtain ⟨m', hm'⟩ : ∃ m', Message.ofLine? config.contactAddress m.line = some m' := by
      cases hm' : Message.ofLine? config.contactAddress m.line with
      | none =>
        rw [hm'] at hsent
        cases hsent
      | some m' => exact ⟨m', rfl⟩
    exact Message.not_mem_of_ofLine? hm'
  · intro hmark
    have hwritable : m.Writable := ⟨hsender, hword, hne, hblank, hmark⟩
    have hline : Message.ofLine? s.contactAddress m.line = some m := by
      rw [hcontact]
      exact Message.ofLine?_line hwritable
    refine ⟨?_, ?_⟩
    · rw [sent_execute, hline]
      rfl
    · rw [scrollback_execute_of_message hline, Message.trim_line hne hblank]
  · intro hmark
    obtain ⟨es, hrun, hes⟩ := outbox_run_start tree config notifier ops
    rw [hrun.recorded.sent, hes, List.filterMap_eq_nil_iff]
    intro line _
    cases hm : Message.ofLine? config.contactAddress line with
    | none => rfl
    | some m' => exact absurd hmark (Message.not_mem_of_ofLine? hm)

/-- Without settings the contact has no `>`, and a body may have all that a line is made of. -/
theorem execute_line_sent_default :
    let s := (start [] {} .disabled).run [.execute "echo from:x \"hi\" > y", .submit]
    let m : Message :=
      { sender := ['x'], body := "\" > a\n\"b", recipient := Config.contactAddress {} }
    Config.ofToml [] = .ok {} ∧ m.sender ≠ [] ∧ m.sender.hasBlank = false ∧
      (s.execute m.line).outbox.sent = s.outbox.sent ++ [m] := by
  have hconfig : Config.ofToml [] = .ok {} := by cbv
  have hsent := execute_line_sent_iff hconfig [] .disabled
    [.execute "echo from:x \"hi\" > y", .submit] (List.cons_ne_nil 'x' []) (by decide)
    "\" > a\n\"b"
  have hmark : '>' ∉ Config.contactAddress {} := by decide
  exact ⟨hconfig, List.cons_ne_nil 'x' [], by decide, (hsent.1.2 hmark).1⟩

/-- The address `a>b` is accepted, and its line sends nothing. -/
theorem marked_contact_not_sent :
    let config : Config := { contactAddress := "a>b" }
    let m : Message := { sender := ['x'], body := ['m'], recipient := config.contactAddress }
    Config.ofToml "contact_address = \"a>b\"" = .ok config ∧ m.sender ≠ [] ∧
      m.sender.hasBlank = false ∧
      ((start [] config .disabled).execute m.line).outbox.sent = [] := by
  intro config m
  have hparse : Toml.parse? "contact_address = \"a>b\"" =
      some [("contact_address".toList, .string "a>b".toList)] := by cbv
  have hconfig : Config.ofToml "contact_address = \"a>b\"" = .ok config := by
    rw [Config.ofToml, hparse]
    rfl
  have hnone : Message.ofLine? config.contactAddress m.line = none := by decide
  refine ⟨hconfig, List.cons_ne_nil 'x' [], by decide, ?_⟩
  rw [sent_execute]
  show [] ++ (Message.ofLine? config.contactAddress m.line).toList = []
  rw [hnone]
  rfl

end Shell

end Showcase
