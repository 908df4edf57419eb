import Showcase.Command.Invocation
import Showcase.Style.Line
import Showcase.Mail.Message
import Showcase.Style.Palette
import Showcase.Tree.Walk

/-!
# Commands

A command has a name and a description and can be run in an environment. It answers with output
or an error, and with the working directory from then on.

A registry is a list of commands with different names. Registering under a name that is taken
replaces the command in its place; `help` is answered by the registry itself.
-/

namespace Showcase

/-- What a command gives back. -/
inductive Output where
  | nothing
  | lines (ls : List Line)
  /-- The scrollback is to be emptied. -/
  | clear
  /-- A message is to be sent. -/
  | notify (m : Message)
  deriving DecidableEq, Repr

/-- What a command can see. -/
structure Environment where
  cwd : Path
  tree : Directory
  theme : Theme
  contactAddress : Text

/-- The answer of a command and the working directory after it. -/
structure Outcome where
  result : Except CommandError Output
  cwd : Path

structure Command where
  name : Text
  description : Text
  usage : Text
  run : Invocation → Environment → Outcome

/-- Commands by name, in the order in which the names were first registered. -/
structure Registry where
  commands : List Command := []

namespace Registry

/-- The command of that name. -/
def get? (r : Registry) (name : Text) : Option Command :=
  r.commands.find? fun c => c.name = name

/-- The list with the command in place of the one of its name, or at the end. -/
def put (command : Command) : List Command → List Command
  | [] => [command]
  | c :: rest => if c.name = command.name then command :: rest else c :: put command rest

/-- Adds a command, or replaces the one of its name. -/
def register (r : Registry) (command : Command) : Registry := ⟨put command r.commands⟩

/-- All names in order. -/
def names (r : Registry) : List Text := r.commands.map Command.name

theorem names_put (command : Command) (cs : List Command) :
    (put command cs).map Command.name =
      if command.name ∈ cs.map Command.name then cs.map Command.name
      else cs.map Command.name ++ [command.name] := by
  induction cs with
  | nil => rfl
  | cons c rest ih =>
    by_cases h : c.name = command.name
    · simp [put, h]
    · simp only [put, if_neg h, List.map_cons, ih, List.mem_cons, Ne.symm h, false_or]
      split <;> rfl

theorem find?_put (command : Command) (cs : List Command) (name : Text) :
    (put command cs).find? (fun c => c.name = name) =
      if command.name = name then some command else cs.find? fun c => c.name = name := by
  induction cs with
  | nil => by_cases h : command.name = name <;> simp [put, h]
  | cons c rest ih =>
    by_cases h : c.name = command.name
    · by_cases hn : command.name = name <;> simp [put, h, hn]
    · rw [put, if_neg h, List.find?_cons, ih, List.find?_cons]
      by_cases hn : command.name = name
      · subst hn
        simp [h]
      · simp [hn]

/-- The names that start with the given text. -/
def completions (r : Registry) (start : Text) : List Text :=
  r.names.filter fun name => start.isPrefixOf name

/-- The name that the registry answers itself. -/
def helpName : Text := "help"

/-- The line with all names. -/
def helpLine (r : Registry) (theme : Theme) : Line :=
  .plain ("Available commands: ".toList ++ Text.join ", ".toList r.names) theme.prompt

/-- Runs a command line; a blank one does nothing. -/
def execute (r : Registry) (line : Text) (env : Environment) : Outcome :=
  match Invocation.parse? line with
  | none => ⟨.ok .nothing, env.cwd⟩
  | some i =>
    if i.name = helpName then ⟨.ok (.lines [r.helpLine env.theme]), env.cwd⟩
    else
      match r.get? i.name with
      | some c => c.run i env
      | none => ⟨.error (.unknownCommand i.name), env.cwd⟩

end Registry

end Showcase
