import Showcase.Text.Basic

/-!
# History

The lines that were entered before, the latest of them up to a limit, and the entry that is shown
while walking through them. Entering a line ends the walk. Walking back starts at the newest entry
and stays at the oldest; walking forward past the newest ends the walk with an empty text.
-/

namespace Showcase

structure History where
  /-- The lines that are kept, oldest first. -/
  entries : List Text := []
  /-- The position of the entry that is shown, during a walk. -/
  cursor : Option Nat := none
  limit : Nat
  deriving DecidableEq, Repr

namespace History

/-- A history without entries; it keeps at least one. -/
def start (limit : Nat) : History := { limit := max limit 1 }

/-- Enters a line, unless it is blank; the oldest entry makes room for it. -/
def commit (h : History) (line : Text) : History :=
  if line.trim.isEmpty then { h with cursor := none }
  else
    let kept := if h.limit ≤ h.entries.length then h.entries.drop 1 else h.entries
    { h with entries := kept ++ [line], cursor := none }

/-- The position to which a step back leads. -/
def previousPosition (h : History) : Nat :=
  match h.cursor with
  | none => h.entries.length - 1
  | some position => position - 1

/-- A step back, if there are entries at all: the entry to show, if it is there. -/
def back (h : History) : Option (Option Text × History) :=
  if h.entries.isEmpty then none
  else some (h.entries[h.previousPosition]?, { h with cursor := some h.previousPosition })

/-- A step forward, if there is a walk to go on with: the entry to show, if it is there, or the
empty text at the end of the walk. -/
def forward (h : History) : Option (Option Text × History) :=
  h.cursor.map fun position =>
    if h.entries.length ≤ position + 1 then (some [], { h with cursor := none })
    else (h.entries[position + 1]?, { h with cursor := some (position + 1) })

end History

end Showcase
