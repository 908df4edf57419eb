import Showcase.Mail.Message
import Showcase.Text.Numeral

/-!
# Notifiers

A notifier is what messages are handed to. Its reply may take time, or never come; the outbox
waits for it only so long, and `Reply.settlement` says when and how the wait ends.
-/

namespace Showcase

/-- Why a message was not sent. -/
inductive SendFailure where
  /-- The notifier answered no, or broke down. -/
  | refused
  /-- There was no answer in the given number of milliseconds. -/
  | timedOut (milliseconds : Nat)
  deriving DecidableEq, Repr

def SendFailure.reason : SendFailure → Text
  | .refused => "delivery failed"
  | .timedOut ms => "timed out after ".toList ++ decimal ms ++ "ms".toList

/-- The line shown for a message that was not sent. -/
def SendFailure.message (f : SendFailure) : Text :=
  "echo: message not sent (".toList ++ f.reason ++ ")".toList

/-- What becomes of a message that a notifier was handed. -/
inductive Reply where
  /-- After a number of milliseconds, yes or no. -/
  | answer (delay : Nat) (accepted : Bool)
  /-- The notifier breaks down after a number of milliseconds. -/
  | breakdown (delay : Nat := 0)
  /-- No answer ever. -/
  | silence
  deriving DecidableEq, Repr

/-- When the wait for a reply is over, and why the message counts as not sent, if it does. -/
def Reply.settlement (timeoutMs : Nat) : Reply → Nat × Option SendFailure
  | .answer delay accepted =>
    if delay ≤ timeoutMs then (delay, if accepted then none else some .refused)
    else (timeoutMs, some (.timedOut timeoutMs))
  | .breakdown delay =>
    if delay ≤ timeoutMs then (delay, some .refused) else (timeoutMs, some (.timedOut timeoutMs))
  | .silence => (timeoutMs, some (.timedOut timeoutMs))

/-- The reply to each message, which may depend on how many came before it. -/
abbrev Notifier := Nat → Message → Reply

namespace Notifier

/-- Turns every message down. -/
def disabled : Notifier := fun _ _ => .answer 0 false

/-- Gives the replies in order whatever the messages are, and keeps to the last one; without any,
it accepts everything. -/
def scripted (replies : List Reply) : Notifier := fun count _ =>
  (replies[count]?).getD (replies.getLastD (.answer 0 true))

end Notifier

end Showcase
