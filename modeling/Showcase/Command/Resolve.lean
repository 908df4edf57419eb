import Showcase.Command.Error
import Showcase.Tree.Walk

/-!
# Resolving typed paths

An argument names a directory relative to the current one: its segments between slashes are
taken one after the other. An empty segment and `.` stay, `..` goes to the parent, and a name
enters the directory of that name. The empty argument and `~` always mean the root.
-/

namespace Showcase.Path

/-- The path after one segment, if there is such a directory. -/
def step? (tree : Directory) (working : Path) (segment : Text) : Option Path :=
  if segment = "".toList ∨ segment = ".".toList then some working
  else if segment = "..".toList then some working.parent
  else if ((tree.directory? working).bind fun d => d.childDir? segment).isSome then
    some (working.push segment)
  else none

/-- The directory that an argument names from the current one. -/
def resolve (tree : Directory) (current : Path) (argument : Text) : Except CommandError Path :=
  if argument = "".toList ∨ argument = "~".toList then .ok root
  else
    match (argument.splitOn '/').foldlM (step? tree) current with
    | some p => .ok p
    | none => .error (.pathNotFound argument)

end Showcase.Path
