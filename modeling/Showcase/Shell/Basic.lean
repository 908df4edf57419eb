import Showcase.Command.Builtin
import Showcase.Command.Completion
import Showcase.Config
import Showcase.Mail.Outbox
import Showcase.Shell.Session

/-!
# The shell

The terminal as a whole: a session on a tree, with the built-in commands and an outbox. All that
a user can do is an operation on `Shell`, and each of them is a function.

A line that is executed appears behind the prompt, with its output or its error below; only
`clear` leaves no trace, and empties the scrollback instead.
-/

namespace Showcase

structure Shell where
  session : Session
  tree : Directory
  theme : Theme
  hostLabel : Text
  contactAddress : Text
  notifier : Notifier
  outbox : Outbox

namespace Shell

/-- A shell in which nothing has happened yet. -/
def start (tree : Directory) (config : Config) (notifier : Notifier) : Shell where
  session := .start config.historyLimit
  tree
  theme := config.palette.theme
  hostLabel := config.hostLabel
  contactAddress := config.contactAddress
  notifier
  outbox := { timeoutMs := config.notifier.timeoutMs }

/-- What the prompt shows before the input. -/
def prompt (s : Shell) : Line where
  spans := [
    { text := s.hostLabel ++ [':'], color := s.theme.prompt, bold := true },
    { text := s.session.cwd.homeText, color := s.theme.path },
    { text := "$ ", color := s.theme.prompt }]

/-- The prompt with a command behind it. -/
def promptLine (s : Shell) (command : Text) : Line := s.prompt.add command s.theme.prompt

/-- What commands can see. -/
def environment (s : Shell) : Environment where
  cwd := s.session.cwd
  tree := s.tree
  theme := s.theme
  contactAddress := s.contactAddress

def pushLines (s : Shell) (lines : List Line) : Shell :=
  { s with session := s.session.pushLines lines }

/-- Makes a path the working directory, if it is one. -/
def enter (s : Shell) (cwd : Path) : Shell :=
  if s.tree.isValid cwd ∧ (s.tree.directory? cwd).isSome then
    { s with session := { s.session with cwd } }
  else s

/-- Shows what a command answered and does what it asks for. -/
def present (s : Shell) (promptLine : Line) : Except CommandError Output → Shell
  | .ok .nothing => s.pushLines [promptLine]
  | .ok (.lines lines) => s.pushLines (promptLine :: lines)
  | .ok .clear => { s with session := s.session.clearScrollback }
  | .ok (.notify m) =>
    { s.pushLines [promptLine] with outbox := s.outbox.dispatch s.notifier m }
  | .error e => s.pushLines [promptLine, .plain e.message s.theme.error]

/-- Runs a command line, unless it is blank. -/
def execute (s : Shell) (line : Text) : Shell :=
  let command := line.trim
  if command.isEmpty then s
  else
    let outcome := Registry.builtin.execute command s.environment
    (s.present (s.promptLine command) outcome.result).enter outcome.cwd

/-- Enters the input. -/
def submit (s : Shell) : Shell :=
  let (line, session) := s.session.takeInput
  { s with session := session.commit line }.execute line

/-- Completes the input, or lists what it could become. -/
def complete (s : Shell) : Shell :=
  match Completion.complete s.session.input s.session.cwd s.tree Registry.builtin.names with
  | .noMatch => s
  | .replace input => { s with session := s.session.setInput input }
  | .commands names =>
    s.pushLines [s.promptLine s.session.input, .plain (Text.join "  ".toList names) s.theme.output]
  | .entries candidates =>
    s.pushLines [listingLine s.theme (candidates.map fun c => (c.name, c.isDirectory))]

def recallPrevious (s : Shell) : Shell := { s with session := s.session.recallPrevious }

def recallNext (s : Shell) : Shell := { s with session := s.session.recallNext }

/-- The line that reports on a message. -/
def reportLine (theme : Theme) (d : Delivery) : Line :=
  match d.failure with
  | none => .plain ("Message sent to ".toList ++ d.recipient ++ ".".toList) theme.output
  | some f => .plain f.message theme.error

/-- Reports on messages, in order. -/
def report (s : Shell) (ds : List Delivery) : Shell := s.pushLines (ds.map (reportLine s.theme))

/-- Reports what has come in; gives the number of lines. -/
def poll (s : Shell) : Nat × Shell :=
  let (ds, outbox) := s.outbox.poll
  (ds.length, { s with outbox }.report ds)

/-- Waits for all messages on their way and reports on them. -/
def settle (s : Shell) : Shell :=
  let (ds, outbox) := s.outbox.settle
  { s with outbox }.report ds

/-- Gives up on all messages on their way. -/
def cancel (s : Shell) : Shell := { s with outbox := s.outbox.cancel }

/-- The number of messages that were not reported yet. -/
def pendingNotifications (s : Shell) : Nat := s.outbox.inFlight

end Shell

end Showcase
