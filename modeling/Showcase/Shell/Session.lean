import Showcase.Shell.History
import Showcase.Style.Line
import Showcase.Tree.Path

/-!
# Sessions

What the terminal remembers: the working directory, the lines shown so far, the input that is
being typed, and the history. Walking through the history replaces the input by what it shows.
-/

namespace Showcase

structure Session where
  cwd : Path := .root
  /-- The lines shown so far, oldest first. -/
  scrollback : List Line := []
  input : Text := []
  history : History
  deriving DecidableEq, Repr

namespace Session

def defaultHistoryLimit : Nat := 100

/-- A session in which nothing has happened yet. -/
def start (historyLimit : Nat) : Session := { history := .start historyLimit }

/-! ## Scrollback -/

def pushLine (s : Session) (line : Line) : Session :=
  { s with scrollback := s.scrollback ++ [line] }

def pushLines (s : Session) (lines : List Line) : Session :=
  { s with scrollback := s.scrollback ++ lines }

def clearScrollback (s : Session) : Session := { s with scrollback := [] }

/-! ## Input -/

def setInput (s : Session) (text : Text) : Session := { s with input := text }

def pushChar (s : Session) (c : Char) : Session := { s with input := s.input ++ [c] }

/-- Drops the last character of the input, if there is one. -/
def backspace (s : Session) : Session := { s with input := s.input.dropLast }

/-- Takes the input away. -/
def takeInput (s : Session) : Text × Session := (s.input, { s with input := [] })

/-! ## History -/

/-- Enters a line into the history. -/
def commit (s : Session) (line : Text) : Session := { s with history := s.history.commit line }

/-- Takes a step through the history, if it leads anywhere. The input stays where there is nothing
to show. -/
def follow (s : Session) : Option (Option Text × History) → Session
  | none => s
  | some (shown, history) => { s with input := shown.getD s.input, history }

/-- Goes back by one entry. -/
def recallPrevious (s : Session) : Session := s.follow s.history.back

/-- Goes forward by one entry. -/
def recallNext (s : Session) : Session := s.follow s.history.forward

end Session

end Showcase
