import Showcase.Text.Basic

/-!
# Invocations

A command line is a name and arguments, separated by blanks. The arguments are kept twice: as
words, and as the text in which they were typed, for commands to which blanks matter.
-/

namespace Showcase

/-- A command line that is not blank. -/
structure Invocation where
  name : Text
  args : List Text
  /-- What follows the name, without blanks at either end. -/
  rawArgs : Text
  deriving DecidableEq, Repr

namespace Invocation

/-- The invocation of a line, unless the line is blank. -/
def parse? (line : Text) : Option Invocation :=
  let trimmed := line.trim
  match trimmed.words with
  | [] => none
  | name :: args => some { name, args, rawArgs := Text.trimStart (trimmed.drop name.length) }

/-- The arguments with one space between neighbours. -/
def argString (i : Invocation) : Text := Text.join [' '] i.args

end Invocation

end Showcase
