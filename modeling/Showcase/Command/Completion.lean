import Showcase.Command.Resolve

/-!
# Completion

What the tab key offers depends on the shape of the input. One word is the start of a command
name; a command and one argument, which may still be empty, are the start of an entry's name in
the directory that the argument has reached so far. More words, or an argument that climbs with
`..`, are left alone.

A single match replaces the input: a command gets a space behind it, a directory a slash.
-/

namespace Showcase

/-- An entry that the input may stand for. -/
structure Candidate where
  name : Text
  isDirectory : Bool
  deriving DecidableEq, Repr

inductive Completion where
  | noMatch
  /-- The only match, as the whole input. -/
  | replace (input : Text)
  | commands (names : List Text)
  | entries (candidates : List Candidate)
  deriving DecidableEq, Repr

namespace Completion

/-- The input with its last part, which is only a start, exchanged. -/
def exchange (input start replacement : Text) : Text :=
  input.take (input.length - start.length) ++ replacement

/-- Completes a command name. -/
def ofCommand (input start : Text) (commands : List Text) : Completion :=
  match commands.filter fun name => start.isPrefixOf name with
  | [] => .noMatch
  | [name] => .replace (exchange input start (name ++ [' ']))
  | names => .commands names

/-- The directory after one segment of an argument; climbing is not followed. -/
def descend? (tree : Directory) (base : Path) (segment : Text) : Option Path :=
  if segment = "..".toList then none else Path.step? tree base segment

/-- The directory that the finished segments of an argument reach, and the start of a name. -/
def base? (tree : Directory) (cwd : Path) (argument : Text) : Option (Path × Text) :=
  match Text.cutLast? '/' argument with
  | none => some (cwd, argument)
  | some (parents, start) =>
    ((parents.splitOn '/').foldlM (descend? tree) cwd).map fun base => (base, start)

/-- The entries whose names start so; hidden ones only if a full stop was typed. -/
def candidates (d : Directory) (start : Text) : List Candidate :=
  ((d.listing (isHidden start)).filter fun entry => start.isPrefixOf entry.1).map fun entry =>
    { name := entry.1, isDirectory := entry.2.isDirectory }

/-- Completes the name of an entry. -/
def ofArgument (input argument : Text) (cwd : Path) (tree : Directory) : Completion :=
  match base? tree cwd argument with
  | none => .noMatch
  | some (base, start) =>
    match tree.directory? base with
    | none => .noMatch
    | some d =>
      match candidates d start with
      | [] => .noMatch
      | [c] => .replace (exchange input start (if c.isDirectory then c.name ++ ['/'] else c.name))
      | cs => .entries cs

/-- Completes the input at a directory of the tree. -/
def complete (input : Text) (cwd : Path) (tree : Directory) (commands : List Text) : Completion :=
  let typed := input.trimStart
  if typed.isEmpty then .noMatch
  else
    match typed.cutBlank? with
    | none => ofCommand input typed commands
    | some (_, rest) =>
      let argument := rest.trimStart
      if argument.hasBlank then .noMatch else ofArgument input argument cwd tree

end Completion

end Showcase
