import Showcase.Command.Error

/-!
# Messages

A visitor writes to the contact with `echo`: the arguments `from:` and a name without blanks, the
message in double quotes, and the address after a `>`. Only the outermost quotes and the last `>`
count, so that the message itself may hold both.
-/

namespace Showcase

structure Message where
  sender : Text
  body : Text
  recipient : Text
  deriving DecidableEq, Repr

namespace Message

/-- What an `echo` line starts with. -/
def senderMark : Text := "from:"

/-- The message that the arguments of `echo` describe, if they describe one. -/
def read? (raw : Text) : Option Message := do
  let fromSender ← Text.stripStart? senderMark raw.trim
  let (sender, rest) ← fromSender.cutBlank?
  guard (sender ≠ [])
  let (before, after) ← Text.cutLast? '>' rest
  let recipient := after.trim
  guard (recipient ≠ [] ∧ recipient.hasBlank = false)
  let body ← (Text.stripStart? ['"'] before.trim).bind (Text.stripEnd? ['"'])
  pure { sender, body, recipient }

/-- The message, or the hint how to write one. -/
def parse (raw : Text) : Except CommandError Message :=
  match read? raw with
  | some m => .ok m
  | none => .error .malformedMessage

end Message

end Showcase
