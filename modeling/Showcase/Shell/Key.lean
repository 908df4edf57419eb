import Showcase.Shell.Basic

/-!
# Keys

What each key does at the prompt. Escape and Ctrl-c quit; a character is typed unless Ctrl or Alt
is held; keys without a meaning do nothing.
-/

namespace Showcase

inductive KeyCode where
  | char (c : Char)
  | enter
  | tab
  | up
  | down
  | backspace
  | escape
  /-- A key without a meaning here. -/
  | other
  deriving DecidableEq, Repr

/-- A key and the modifiers that were held. -/
structure Key where
  code : KeyCode
  ctrl : Bool := false
  alt : Bool := false
  deriving DecidableEq, Repr

/-- Whether to go on after a key. -/
inductive KeyResult where
  | proceed
  | quit
  deriving DecidableEq, Repr

namespace Shell

/-- What a key does when it does not quit. -/
def press (s : Shell) (key : Key) : Shell :=
  match key.code with
  | .enter => s.submit
  | .tab => s.complete
  | .up => s.recallPrevious
  | .down => s.recallNext
  | .backspace => { s with session := s.session.backspace }
  | .char c =>
    if key.ctrl ∨ key.alt then s else { s with session := s.session.pushChar c }
  | .escape => s
  | .other => s

/-- Escape and Ctrl-c end the program. -/
def quits (key : Key) : Bool := key.code = .escape ∨ (key.code = .char 'c' ∧ key.ctrl)

/-- Applies one key. -/
def handleKey (s : Shell) (key : Key) : KeyResult × Shell :=
  if quits key then (.quit, s) else (.proceed, s.press key)

end Shell

end Showcase
