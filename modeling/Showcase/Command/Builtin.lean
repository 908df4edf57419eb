import Showcase.Command.Registry
import Showcase.Command.Resolve

/-!
# The built-in commands

Looking around a tree (`ls`, `cd`, `cat`, `pwd`), the terminal itself (`clear`, `help`) and
writing to the contact (`echo`). Only `cd` changes the working directory, and only to a
directory; `cat` shows files of the working directory alone.
-/

namespace Showcase

/-- The names of entries on one line, two spaces apart and directories in their own color. -/
def listingLine (theme : Theme) (entries : List (Text × Bool)) : Line where
  spans :=
    (entries.map fun entry =>
      { text := entry.1, color := if entry.2 then theme.directory else theme.output : Span }
    ).intersperse { text := "  ", color := theme.output }

/-- The names of entries, and which of them are directories. -/
def labels (entries : List (Text × Entry)) : List (Text × Bool) :=
  entries.map fun entry => (entry.1, entry.2.isDirectory)

namespace Command

/-- One of the words asks for hidden entries too. -/
def asksForAll (args : List Text) : Bool :=
  args.any fun a => a = "-a".toList ∨ a = "--all".toList

def ls : Command where
  name := "ls"
  description := "List directory contents"
  usage := "ls [-a|--all]"
  run i env :=
    match env.tree.directory? env.cwd with
    | none => ⟨.error (.pathNotFound env.cwd.text), env.cwd⟩
    | some d =>
      let shown := labels (d.listing (asksForAll i.args))
      if shown.isEmpty then ⟨.ok .nothing, env.cwd⟩
      else ⟨.ok (.lines [listingLine env.theme shown]), env.cwd⟩

def cd : Command where
  name := "cd"
  description := "Change working directory"
  usage := "cd [path]"
  run i env :=
    match Path.resolve env.tree env.cwd i.argString with
    | .ok p => ⟨.ok .nothing, p⟩
    | .error e => ⟨.error e, env.cwd⟩

def cat : Command where
  name := "cat"
  description := "Display a file in the current directory"
  usage := "cat <file>"
  run i env :=
    match (env.tree.directory? env.cwd).bind fun d => d.file? i.argString with
    | some content => ⟨.ok (.lines [.plain content env.theme.output]), env.cwd⟩
    | none => ⟨.error (.fileNotFound i.argString), env.cwd⟩

def pwd : Command where
  name := "pwd"
  description := "Print working directory"
  usage := "pwd"
  run _ env := ⟨.ok (.lines [.plain env.cwd.text env.theme.prompt]), env.cwd⟩

def clear : Command where
  name := "clear"
  description := "Clear terminal output"
  usage := "clear"
  run _ env := ⟨.ok .clear, env.cwd⟩

def help : Command where
  name := Registry.helpName
  description := "List available commands"
  usage := "help"
  run _ env :=
    ⟨.ok (.lines [.plain "Type 'help' at the prompt for a list of commands." env.theme.prompt]),
      env.cwd⟩

def echo : Command where
  name := "echo"
  description := "Send me a message"
  usage := echoUsage
  run i env :=
    match Message.parse i.rawArgs with
    | .error e => ⟨.error e, env.cwd⟩
    | .ok m =>
      if m.recipient = env.contactAddress then ⟨.ok (.notify m), env.cwd⟩
      else ⟨.error (.wrongRecipient m.recipient), env.cwd⟩

end Command

/-- The registry of the built-in commands. -/
def Registry.builtin : Registry :=
  [Command.ls, .cd, .cat, .pwd, .clear, .help, .echo].foldl register {}

end Showcase
