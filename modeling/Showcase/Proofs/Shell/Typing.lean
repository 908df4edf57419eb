import Showcase.Proofs.Shell.Frame

/-!
# Typing

The input as a stack of characters: the last one typed is on top. A typing key (`Key.Types`) pushes
a character, pops one or does nothing (`Key.onStack`), and `Text.typed` is what a list of them makes
of a text. The shell holds its input the other way round and never looks at a stack, but a typing
key changes the input as the stack changes and nothing besides (`handleKey_of_types`).

So what was typed and taken back leaves no trace. Entering it is entering the text that is left.

Main result: `run_typed`.
-/

namespace Showcase

namespace Key

/-- A key that does not leave the input line: a character, except for Ctrl-c, the backspace, or a
key without a meaning, whatever is held. -/
inductive Types : Key → Prop
  | char {c : Char} {ctrl alt : Bool} : ¬ (c = 'c' ∧ ctrl) → Types ⟨.char c, ctrl, alt⟩
  | backspace {ctrl alt : Bool} : Types ⟨.backspace, ctrl, alt⟩
  | other {ctrl alt : Bool} : Types ⟨.other, ctrl, alt⟩

/-- What a key does to a stack of characters, given from the top. -/
def onStack (stack : List Char) (k : Key) : List Char :=
  match k.code with
  | .char c => if k.ctrl ∨ k.alt then stack else c :: stack
  | .backspace => stack.tail
  | _ => stack

end Key

/-- The text after keys, each of them applied to the stack of its characters. -/
def Text.typed (text : Text) (keys : List Key) : Text :=
  (keys.foldl Key.onStack text.reverse).reverse

namespace Text

theorem typed_cons (text : Text) (k : Key) (keys : List Key) :
    typed text (k :: keys) = typed (typed text [k]) keys := by
  simp [typed]

theorem typed_char (text : Text) (c : Char) (ctrl alt : Bool) :
    typed text [⟨.char c, ctrl, alt⟩] = if ctrl ∨ alt then text else text ++ [c] := by
  simp only [typed, List.foldl_cons, List.foldl_nil, Key.onStack]
  split
  · exact List.reverse_reverse text
  · rw [List.reverse_cons, List.reverse_reverse]

theorem typed_backspace (text : Text) (ctrl alt : Bool) :
    typed text [⟨.backspace, ctrl, alt⟩] = text.dropLast := by
  simp [typed, Key.onStack]

theorem typed_other (text : Text) (ctrl alt : Bool) :
    typed text [⟨.other, ctrl, alt⟩] = text :=
  List.reverse_reverse text

end Text

namespace Shell

variable {s : Shell} {k : Key}

/-- A typing key changes the input as it changes the stack. -/
theorem handleKey_of_types (h : k.Types) (s : Shell) :
    s.handleKey k = (.proceed,
      { s with session := { s.session with input := s.session.input.typed [k] } }) := by
  cases h with
  | @char c ctrl alt hc =>
    have hquits : quits ⟨.char c, ctrl, alt⟩ = false := by simpa [quits] using hc
    rw [handleKey, hquits, press, Text.typed_char]
    by_cases hheld : ctrl ∨ alt
    · simp [hheld]
    · simp [hheld, Session.pushChar]
  | backspace => rw [Text.typed_backspace]; rfl
  | other => rw [Text.typed_other]; rfl

theorem handleKey_of_quits (h : quits k) (s : Shell) : s.handleKey k = (.quit, s) := by
  rw [handleKey, if_pos h]

/-- Typing changes the input alone. -/
theorem run_of_types {keys : List Key} (h : ∀ k ∈ keys, k.Types) (s : Shell) :
    s.run (keys.map .key) =
      { s with session := { s.session with input := s.session.input.typed keys } } := by
  induction keys generalizing s with
  | nil => simp [run, Text.typed]
  | cons k keys ih =>
    obtain ⟨hk, hkeys⟩ := List.forall_mem_cons.1 h
    have hstep := congrArg Prod.snd (handleKey_of_types hk s)
    rw [Text.typed_cons]
    calc
      s.run ((k :: keys).map .key) = (s.handleKey k).2.run (keys.map .key) := rfl
      _ = _ := by rw [hstep, ih hkeys]

/-- **Typing is a stack.** Characters, backspaces and keys without a meaning, in any number and
order, all let the program go on. They leave everything as it is but the input, which becomes the
text that a stack of characters comes to. Enter after them does what entering that text at once
does. And Escape and Ctrl-c quit wherever they come, with nothing changed. -/
theorem run_typed (s : Shell) (keys : List Key) (h : ∀ k ∈ keys, k.Types) :
    let text := s.session.input.typed keys
    (∀ k ∈ keys, ∀ t : Shell, (t.handleKey k).1 = .proceed) ∧
      s.run (keys.map .key) = { s with session := { s.session with input := text } } ∧
      (∀ k : Key, k.code = .enter →
        s.run (keys.map .key ++ [.key k]) = s.run [.setInput text, .submit]) ∧
      ∀ k : Key, k.code = .escape ∨ (k.code = .char 'c' ∧ k.ctrl) →
        ∀ t : Shell, t.handleKey k = (.quit, t) := by
  intro text
  have hrun : s.run (keys.map .key) = s.apply (.setInput text) := run_of_types h s
  refine ⟨?_, hrun, ?_, ?_⟩
  · intro k hk t
    rw [handleKey_of_types (h k hk)]
  · intro k hk
    have hsubmit (t : Shell) : t.operationOf? k = some .submit := by rw [operationOf?, hk]
    calc
      s.run (keys.map .key ++ [.key k]) = (s.run (keys.map .key)).apply (.key k) := by
        simp [run]
      _ = (s.apply (.setInput text)).submit := by rw [apply_of_key (hsubmit _), hrun]; rfl
      _ = s.run [.setInput text, .submit] := rfl
  · intro k hk
    exact handleKey_of_quits (by simpa [quits] using hk)

/-- A letter that is taken back, a backspace too many and characters with Ctrl or Alt held. -/
theorem run_typed_held :
    let s := start [("a", .directory [])] {} .disabled
    let keys : List Key :=
      [⟨.char 'x', false, false⟩, ⟨.char 'a', true, false⟩, ⟨.backspace, false, true⟩,
        ⟨.backspace, false, false⟩, ⟨.char 'c', false, false⟩, ⟨.char 'd', false, false⟩,
        ⟨.char 'c', false, true⟩, ⟨.other, false, false⟩, ⟨.char ' ', false, false⟩,
        ⟨.char 'a', false, false⟩]
    (∀ k ∈ keys, k.Types) ∧ (s.run (keys.map .key)).session.input = "cd a".toList ∧
      s.run (keys.map .key ++ [.key ⟨.enter, false, false⟩]) =
        s.run [.setInput "cd a", .submit] ∧
      (s.run [.setInput "cd a", .submit]).session.cwd.segments = ["a".toList] := by
  intro s keys
  have hkeys : ∀ k ∈ keys, k.Types := by
    simp only [keys, List.forall_mem_cons]
    exact ⟨.char nofun, .char nofun, .backspace, .backspace, .char nofun, .char nofun,
      .char nofun, .other, .char nofun, .char nofun, nofun⟩
  obtain ⟨-, -, henter, -⟩ := run_typed s keys hkeys
  exact ⟨hkeys, by decide, henter ⟨.enter, false, false⟩ rfl, by decide⟩

end Shell

end Showcase
