import Showcase.Mail.Message
import Showcase.Proofs.Text.Cutting

/-!
# How messages are written

A message stands in the arguments of `echo` as `from:`, its sender, its body in double quotes, a
`>` and its recipient. Between these parts there may be blanks, and after the sender there must be.

**Writing.** Of the sender and the recipient it takes little to be written that way
(`Message.Writable`): they are words, and the recipient has no `>`. The body may be anything, for
the quotes around it and the last `>` are found from outside (`Message.read?_of_trim`).

**Reading.** What is read was written (`Message.exists_written_of_read?`): the recipient has no `>`,
since the cut is at the last one, and no blanks are left over at either end. A text is written in
one way only (`Message.IsWritten.unique`).

Main result: `Message.parse_iff_written`.
-/

namespace Showcase.Message

variable {raw gap before after : Text} {m : Message}

/-- The sender and the recipient are words, and the recipient has no `>`. -/
structure Writable (m : Message) : Prop where
  sender : m.sender ≠ []
  senderWord : m.sender.hasBlank = false
  recipient : m.recipient ≠ []
  recipientWord : m.recipient.hasBlank = false
  unmarked : '>' ∉ m.recipient

/-- A message as arguments of `echo`, with the given blanks between its parts. -/
def written (m : Message) (gap before after : Text) : Text :=
  senderMark ++ (m.sender ++ (gap ++ ('"' :: (m.body ++ ['"']) ++
    (before ++ '>' :: (after ++ m.recipient)))))

/-- The text is the message as it can be written, with these blanks between its parts. -/
structure IsWritten (m : Message) (gap before after text : Text) : Prop where
  writable : m.Writable
  separated : gap ≠ []
  gapBlank : Text.IsBlank gap
  beforeBlank : Text.IsBlank before
  afterBlank : Text.IsBlank after
  text_eq : text = m.written gap before after

theorem unquote_trim (body : Text) (hg : Text.IsBlank gap) (hb : Text.IsBlank before) :
    (Text.stripStart? ['"'] (Text.trim (gap ++ ('"' :: (body ++ ['"']) ++ before)))).bind
      (Text.stripEnd? ['"']) = some body := by
  have hquote : isBlank '"' = false := by decide
  have htrim : Text.trim (gap ++ ('"' :: (body ++ ['"']) ++ before)) = '"' :: (body ++ ['"']) := by
    rw [Text.trim, Text.trimStart_append hg, List.cons_append, Text.trimStart_cons hquote,
      ← List.cons_append, Text.trimEnd_append _ hb]
    exact Text.trimEnd_concat ('"' :: body) hquote
  rw [htrim]
  show (Text.stripStart? ['"'] (['"'] ++ (body ++ ['"']))).bind (Text.stripEnd? ['"']) = some body
  rw [Text.stripStart?_append, Option.bind_some, Text.stripEnd?_append]

theorem guard_eq_some_iff {p : Prop} [Decidable p] {u : Unit} :
    (guard p : Option Unit) = some u ↔ p := by
  by_cases hp : p
  · exact iff_of_true (if_pos hp) hp
  · refine iff_of_false ?_ hp
    rw [guard, if_neg hp]
    exact nofun

/-- **Reading is five cuts**: after `from:`, after the sender, at the last `>`, and at the quotes. -/
theorem read?_eq_some_iff :
    read? raw = some m ↔
      ∃ fromSender rest quoted after, Text.stripStart? senderMark raw.trim = some fromSender ∧
        fromSender.cutBlank? = some (m.sender, rest) ∧ m.sender ≠ [] ∧
        Text.cutLast? '>' rest = some (quoted, after) ∧ after.trim = m.recipient ∧
        m.recipient ≠ [] ∧ m.recipient.hasBlank = false ∧
        (Text.stripStart? ['"'] quoted.trim).bind (Text.stripEnd? ['"']) = some m.body := by
  constructor
  · intro h
    obtain ⟨fromSender, h₁, h⟩ := Option.bind_eq_some_iff.1 h
    obtain ⟨⟨sender, rest⟩, h₂, h⟩ := Option.bind_eq_some_iff.1 h
    obtain ⟨u, h₃, h⟩ := Option.bind_eq_some_iff.1 h
    obtain ⟨⟨quoted, after⟩, h₄, h⟩ := Option.bind_eq_some_iff.1 h
    obtain ⟨u', h₅, h⟩ := Option.bind_eq_some_iff.1 h
    obtain ⟨body, h₆, h⟩ := Option.bind_eq_some_iff.1 h
    cases h
    obtain ⟨hrecipient, hword⟩ := guard_eq_some_iff.1 h₅
    exact ⟨fromSender, rest, quoted, after, h₁, h₂, guard_eq_some_iff.1 h₃, h₄, rfl, hrecipient,
      hword, h₆⟩
  · rintro ⟨fromSender, rest, quoted, after, h₁, h₂, h₃, h₄, hr, h₅, h₆, h₇⟩
    refine Option.bind_eq_some_iff.2 ⟨fromSender, h₁, Option.bind_eq_some_iff.2
      ⟨(m.sender, rest), h₂, Option.bind_eq_some_iff.2 ⟨(), guard_eq_some_iff.2 h₃,
      Option.bind_eq_some_iff.2 ⟨(quoted, after), h₄, Option.bind_eq_some_iff.2
      ⟨(), guard_eq_some_iff.2 ?_, Option.bind_eq_some_iff.2 ⟨m.body, h₇, ?_⟩⟩⟩⟩⟩⟩
    · rw [hr]
      exact ⟨h₅, h₆⟩
    · rw [hr]
      rfl

/-- **What is written is read back**, whatever the body is. -/
theorem read?_of_trim (hm : m.Writable) (hgap : gap ≠ []) (hg : Text.IsBlank gap)
    (hb : Text.IsBlank before) (ha : Text.IsBlank after)
    (hraw : raw.trim = m.written gap before after) : read? raw = some m := by
  obtain ⟨c, gap, rfl⟩ := List.exists_cons_of_ne_nil hgap
  have hc : isBlank c = true := hg c List.mem_cons_self
  have hgap : Text.IsBlank gap := fun d hd => hg d (List.mem_cons_of_mem c hd)
  have hrecipient : '>' ∉ after ++ m.recipient := by
    intro hmem
    rcases List.mem_append.1 hmem with hmem | hmem
    · exact absurd (ha _ hmem) (by decide)
    · exact hm.unmarked hmem
  have hsplit : gap ++ ('"' :: (m.body ++ ['"']) ++ (before ++ '>' :: (after ++ m.recipient))) =
      (gap ++ ('"' :: (m.body ++ ['"']) ++ before)) ++ '>' :: (after ++ m.recipient) := by
    simp
  refine read?_eq_some_iff.2 ⟨m.sender ++ c :: (gap ++ ('"' :: (m.body ++ ['"']) ++
    (before ++ '>' :: (after ++ m.recipient)))), _, _, _, ?_,
    Text.cutBlank?_append hm.senderWord hc, hm.sender, ?_,
    Text.trim_append_word ha hm.recipientWord, hm.recipient, hm.recipientWord,
    unquote_trim m.body hgap hb⟩
  · rw [hraw]
    exact Text.stripStart?_append ..
  · rw [hsplit]
    exact Text.cutLast?_append hrecipient

theorem trim_written (hm : m.Writable) (gap before after : Text) :
    (m.written gap before after).trim = m.written gap before after := by
  have h := Text.trim_cons_append_word (c := 'f') (by decide) ("rom:".toList ++ (m.sender ++
    (gap ++ ('"' :: (m.body ++ ['"']) ++ (before ++ '>' :: after))))) hm.recipient hm.recipientWord
  simpa [written, senderMark] using h

theorem not_mem_recipient_of_read? (h : read? raw = some m) : '>' ∉ m.recipient := by
  obtain ⟨_, _, _, after, -, -, -, hcut, hr, -⟩ := read?_eq_some_iff.1 h
  intro hmem
  obtain ⟨blanks, blanks', -, -, hafter⟩ := Text.exists_eq_trim after
  rw [← hr] at hmem
  refine Text.not_mem_of_cutLast? hcut ?_
  rw [hafter]
  exact List.mem_append_right _ (List.mem_append_left _ hmem)

variable {text : Text}

theorem IsWritten.read?_of_trim (h : m.IsWritten gap before after raw.trim) :
    read? raw = some m :=
  Message.read?_of_trim h.writable h.separated h.gapBlank h.beforeBlank h.afterBlank h.text_eq

theorem IsWritten.trim (h : m.IsWritten gap before after text) : text.trim = text := by
  rw [h.text_eq]
  exact trim_written h.writable gap before after

/-- **What is read was written**: the five cuts leave a message and the blanks between its parts. -/
theorem exists_written_of_read? (h : read? raw = some m) :
    ∃ gap before after, m.IsWritten gap before after raw.trim := by
  obtain ⟨fromSender, rest, quoted, after, hmark, hsender, hne, hcut, hr, hr₀, hword, hbody⟩ :=
    read?_eq_some_iff.1 h
  obtain ⟨c, hc, hfrom⟩ := Text.cutBlank?_eq_some hsender
  obtain ⟨opened, hopen, hclose⟩ := Option.bind_eq_some_iff.1 hbody
  obtain ⟨gap, before, hgap, hbefore, hquoted⟩ := Text.exists_eq_trim quoted
  obtain ⟨lead, trail, hlead, htrail, hafter⟩ := Text.exists_eq_trim after
  have hopened : quoted.trim = '"' :: (m.body ++ ['"']) := by
    rw [Text.eq_append_of_stripStart? hopen, Text.eq_append_of_stripEnd? hclose]
    rfl
  have htext : raw.trim = m.written (c :: gap) before lead ++ trail := by
    rw [Text.eq_append_of_stripStart? hmark, hfrom, Text.cutLast?_eq_some hcut, hquoted, hopened,
      hafter, hr]
    simp [written]
  -- A trimmed text has no blanks behind the recipient.
  have hend : trail = [] := Text.eq_nil_of_trimEnd_append htrail (by
    rw [← htext]
    exact Text.trimEnd_trim raw)
  refine ⟨c :: gap, before, lead, ?_, List.cons_ne_nil c gap, ?_, hbefore, hlead, ?_⟩
  · exact ⟨hne, Text.hasBlank_of_cutBlank? hsender, hr₀, hword, not_mem_recipient_of_read? h⟩
  · exact List.forall_mem_cons.2 ⟨hc, hgap⟩
  · rw [htext, hend, List.append_nil]

theorem IsWritten.unique {m' : Message} {gap' before' after' : Text}
    (h : m.IsWritten gap before after text) (h' : m'.IsWritten gap' before' after' text) :
    m = m' ∧ gap = gap' ∧ before = before' ∧ after = after' := by
  have hquote : isBlank '"' = false := by decide
  have hmark : isBlank '>' = false := by decide
  have hread : m.IsWritten gap before after text.trim := by rwa [h.trim]
  have hread' : m'.IsWritten gap' before' after' text.trim := by rwa [h.trim]
  have hm : m = m' := Option.some.inj (hread.read?_of_trim.symm.trans hread'.read?_of_trim)
  subst hm
  have htext : m.written gap before after = m.written gap' before' after' :=
    h.text_eq.symm.trans h'.text_eq
  simp only [written, List.append_cancel_left_eq, List.cons_append, List.append_assoc] at htext
  obtain ⟨hgap, hbody⟩ := Text.append_cons_inj h.gapBlank h'.gapBlank hquote hquote htext
  have hrest := List.append_cancel_left (List.cons.inj hbody).2
  obtain ⟨hbefore, hafter⟩ := Text.append_cons_inj h.beforeBlank h'.beforeBlank hmark hmark
    (List.cons.inj hrest).2
  exact ⟨rfl, hgap, hbefore, List.append_cancel_right (List.cons.inj hafter).2⟩

/-- **Reading and writing are inverse.** The arguments of `echo` are read as a message just when they
are that message as it is written, with some blanks between its parts; the message and the blanks
are then determined. All other arguments are answered with the hint how to write one. -/
theorem parse_iff_written (raw : Text) :
    (∀ m, parse raw = .ok m ↔ ∃ gap before after, m.IsWritten gap before after raw.trim) ∧
      (∀ e, parse raw = .error e ↔ e = .malformedMessage ∧
        ¬ ∃ m gap before after, IsWritten m gap before after raw.trim) ∧
      ∀ m gap before after m' gap' before' after', IsWritten m gap before after raw.trim →
        IsWritten m' gap' before' after' raw.trim →
        m = m' ∧ gap = gap' ∧ before = before' ∧ after = after' := by
  have hread (m : Message) :
      read? raw = some m ↔ ∃ gap before after, m.IsWritten gap before after raw.trim :=
    ⟨exists_written_of_read?, fun ⟨_, _, _, h⟩ => h.read?_of_trim⟩
  refine ⟨fun m => ?_, fun e => ?_, fun _ _ _ _ _ _ _ _ h h' => h.unique h'⟩
  · rw [← hread, parse]
    cases read? raw with
    | none => simp
    | some m' => simp
  · simp only [← hread]
    rw [parse]
    cases read? raw with
    | none => simp [eq_comm]
    | some m' => simp

end Showcase.Message
