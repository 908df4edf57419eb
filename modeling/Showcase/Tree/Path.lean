import Showcase.Text.Basic

/-!
# Paths

A path is the list of names from the root of a tree; the root is the empty list. Paths are
addresses only: whether one leads anywhere is a question to a tree.

`Path.text` is the form that `pwd` prints (`/`, `/info/projects`) and `Path.homeText` the one in
the prompt (`~`, `~/info/projects`).
-/

namespace Showcase

/-- The names on the way from the root. -/
@[ext]
structure Path where
  segments : List Text
  deriving DecidableEq, Repr

namespace Path

def root : Path := ⟨[]⟩

def isRoot (p : Path) : Bool := p.segments.isEmpty

def depth (p : Path) : Nat := p.segments.length

/-- The path one name further down. -/
def push (p : Path) (name : Text) : Path := ⟨p.segments ++ [name]⟩

/-- The path without its last name; the root is its own parent. -/
def parent (p : Path) : Path := ⟨p.segments.dropLast⟩

@[simp] theorem segments_root : root.segments = [] := rfl

@[simp] theorem segments_push (p : Path) (name : Text) :
    (p.push name).segments = p.segments ++ [name] := rfl

@[simp] theorem segments_parent (p : Path) : p.parent.segments = p.segments.dropLast := rfl

@[simp] theorem parent_push (p : Path) (name : Text) : (p.push name).parent = p := by
  simp [push, parent]

theorem push_ne_root (p : Path) (name : Text) : p.push name ≠ .root := by
  simp [Path.ext_iff]

/-- Each name after a slash. -/
def slashed (p : Path) : Text := p.segments.flatMap fun name => '/' :: name

theorem slashed_push (p : Path) (name : Text) :
    (p.push name).slashed = p.slashed ++ '/' :: name := by
  simp [slashed, push]

/-- The form anchored at the root. -/
def text (p : Path) : Text := if p.isRoot then "/" else p.slashed

theorem text_push (p : Path) (name : Text) : (p.push name).text = (p.push name).slashed := by
  rw [text, if_neg]
  simp [isRoot]

/-- The form relative to home, which is the root. -/
def homeText (p : Path) : Text := '~' :: p.slashed

end Path

end Showcase
