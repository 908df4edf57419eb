import Showcase.Tree.Path
import Showcase.Tree.Basic

/-!
# Walking a tree

Three questions to a tree about a path: which directory it leads to, which entry, and whether it
leads anywhere at all. The root is a directory but not an entry of any.
-/

namespace Showcase.Directory

/-- The directory that the path leads to. -/
def directory? (tree : Directory) (p : Path) : Option Directory :=
  p.segments.foldlM childDir? tree

theorem directory?_root (tree : Directory) : tree.directory? .root = some tree := rfl

theorem directory?_push (tree : Directory) (p : Path) (name : Text) :
    tree.directory? (p.push name) = (tree.directory? p).bind fun d => d.childDir? name := by
  rw [directory?, Path.segments_push, List.foldlM_append]
  cases h : p.segments.foldlM childDir? tree <;> simp [directory?, h]

/-- The entry at the end of a list of names. -/
def entryAt? : Directory → List Text → Option Entry
  | _, [] => none
  | d, [name] => d.get? name
  | d, name :: rest => (d.childDir? name).bind fun child => entryAt? child rest

/-- The entry that the path leads to; the root is not an entry. -/
def lookup? (tree : Directory) (p : Path) : Option Entry := entryAt? tree p.segments

theorem lookup?_root (tree : Directory) : tree.lookup? .root = none := rfl

/-- The path is the root or leads to an entry. -/
def isValid (tree : Directory) (p : Path) : Bool :=
  match p.segments.getLast? with
  | none => true
  | some name =>
    match tree.directory? p.parent with
    | none => false
    | some d => (d.get? name).isSome

end Showcase.Directory
