import Showcase.Text.Basic

/-!
# What can go wrong at the prompt

The causes for which a command line fails, each with the one line that is shown for it.
-/

namespace Showcase

/-- Why a command failed. -/
inductive CommandError where
  /-- No directory answers to the argument. -/
  | pathNotFound (argument : Text)
  /-- The working directory has no file of that name. -/
  | fileNotFound (name : Text)
  | unknownCommand (name : Text)
  /-- The message is addressed to someone other than the contact. -/
  | wrongRecipient (recipient : Text)
  /-- The arguments of `echo` do not have the form of a message. -/
  | malformedMessage
  deriving DecidableEq, Repr

/-- How to write a message with `echo`. -/
def echoUsage : Text := "echo from:<name> \"<message>\" > <address>"

/-- The line shown for a failed command. -/
def CommandError.message : CommandError → Text
  | .pathNotFound argument => "cd: no such directory: ".toList ++ argument
  | .fileNotFound name => "cat: ".toList ++ name ++ ": No such file".toList
  | .unknownCommand name => name ++ ": command not found".toList
  | .wrongRecipient recipient => "echo: cannot deliver to ".toList ++ recipient
  | .malformedMessage => "usage: ".toList ++ echoUsage

end Showcase
