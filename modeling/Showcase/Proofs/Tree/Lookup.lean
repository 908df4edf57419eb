import Showcase.Proofs.Tree.Resolve

/-!
# Three questions about a path

A tree can be asked which directory a path leads to, which entry, and whether it leads anywhere.
Each question has a walk of its own, and the root is special to each of them: it is a directory and
valid, but no entry.

**One name more** (`lookup?_push`). The entry at a path is looked up in the directory above it, as
the path grows at its end and the walk starts at its front. The other two answers are read off the
entry: there is one (`isValid_push`), and it is a directory (`directory?_push_eq_bind`).

**On the way** (`isSome_directory?_of_prefix`). What leads to a directory passes directories only,
and what is valid passes directories up to its last name.

Main result: `walks_agree`.
-/

namespace Showcase.Directory

variable {tree d : Directory} {p q : Path}

/-! ## One name more -/

theorem entryAt?_cons {rest : List Text} (hrest : rest ≠ []) (d : Directory) (name : Text) :
    d.entryAt? (name :: rest) = (d.childDir? name).bind fun child => child.entryAt? rest := by
  cases rest with
  | nil => exact absurd rfl hrest
  | cons next rest => rfl

theorem entryAt?_concat (d : Directory) (names : List Text) (name : Text) :
    d.entryAt? (names ++ [name]) =
      (names.foldlM childDir? d).bind fun last => last.get? name := by
  -- The walk takes the first name, so the induction is on the names in front of the last.
  induction names generalizing d with
  | nil => rfl
  | cons first names ih =>
    have hrest : names ++ [name] ≠ [] := by simp
    rw [List.cons_append, entryAt?_cons hrest, List.foldlM_cons]
    cases d.childDir? first with
    | none => rfl
    | some child => exact ih child

theorem lookup?_push (tree : Directory) (p : Path) (name : Text) :
    tree.lookup? (p.push name) = (tree.directory? p).bind fun d => d.get? name :=
  entryAt?_concat tree p.segments name

theorem isValid_push (tree : Directory) (p : Path) (name : Text) :
    tree.isValid (p.push name) = (tree.lookup? (p.push name)).isSome := by
  rw [isValid, Path.segments_push, List.getLast?_concat, Path.parent_push, lookup?_push]
  cases tree.directory? p <;> rfl

theorem directory?_push_eq_bind (tree : Directory) (p : Path) (name : Text) :
    tree.directory? (p.push name) = (tree.lookup? (p.push name)).bind Entry.asDirectory? := by
  rw [directory?_push, lookup?_push, Option.bind_assoc]
  rfl

theorem isValid_iff : tree.isValid p = true ↔ p = .root ∨ (tree.lookup? p).isSome := by
  cases p using Path.induction_push with
  | root => exact iff_of_true rfl (.inl rfl)
  | push p name => rw [or_iff_right (p.push_ne_root name), isValid_push]

theorem directory?_eq_some_iff :
    tree.directory? p = some d ↔ p = .root ∧ d = tree ∨ tree.lookup? p = some (.directory d) := by
  cases p using Path.induction_push with
  | root => simp [directory?_root, lookup?_root, eq_comm]
  | push p name =>
    rw [or_iff_right fun h => p.push_ne_root name h.1, directory?_push_eq_bind,
      Option.bind_eq_some_iff]
    simp only [Entry.asDirectory?_eq_some_iff, exists_eq_right]

/-! ## On the way -/

theorem isSome_directory?_of_prefix (h : (tree.directory? p).isSome)
    (hq : q.segments <+: p.segments) : (tree.directory? q).isSome := by
  obtain ⟨rest, hrest⟩ := hq
  rw [directory?, ← hrest, List.foldlM_append] at h
  exact Option.isSome_of_isSome_bind h

theorem isSome_directory?_of_isValid (h : tree.isValid p = true) (hq : q.segments <+: p.segments)
    (hne : q ≠ p) : (tree.directory? q).isSome := by
  cases p using Path.induction_push with
  | root => exact absurd (Path.ext (List.prefix_nil.1 hq)) hne
  | push p name =>
    rw [isValid_push, lookup?_push] at h
    refine isSome_directory?_of_prefix (Option.isSome_of_isSome_bind h) ?_
    rw [Path.segments_push, List.prefix_concat_iff] at hq
    exact hq.resolve_left fun hwhole => hne (Path.ext hwhole)

/-- **The three walks agree** on every path, whether or not it leads anywhere. A path is valid if it
is the root or leads to an entry; it leads to a directory if it is the root or that is the entry; the
entry one name further down is in that directory. And what a valid path passes before its last name
are directories, and no files. -/
theorem walks_agree (tree : Directory) (p : Path) :
    (tree.isValid p = true ↔ p = .root ∨ (tree.lookup? p).isSome) ∧
      (∀ d, tree.directory? p = some d ↔
        p = .root ∧ d = tree ∨ tree.lookup? p = some (.directory d)) ∧
      (∀ name, tree.lookup? (p.push name) = (tree.directory? p).bind fun d => d.get? name) ∧
      (tree.isValid p = true → ∀ q : Path, q.segments <+: p.segments → q ≠ p →
        (∃ d, tree.directory? q = some d) ∧ ∀ content, tree.lookup? q ≠ some (.file content)) := by
  refine ⟨isValid_iff, fun d => directory?_eq_some_iff, lookup?_push tree p, ?_⟩
  intro hvalid q hq hne
  obtain ⟨d, hd⟩ := Option.isSome_iff_exists.1 (isSome_directory?_of_isValid hvalid hq hne)
  refine ⟨⟨d, hd⟩, fun content hfile => ?_⟩
  rcases directory?_eq_some_iff.1 hd with ⟨rfl, -⟩ | hentry
  · cases hfile
  · rw [hentry] at hfile
    cases hfile

/-- A file ends the way: there is a directory above it and nothing below. -/
theorem walks_agree_file :
    let tree : Directory := [("a", .directory [("f", .file "1")])]
    let file : Path := ⟨["a", "f"]⟩
    tree.isValid file = true ∧ (∃ d, tree.directory? file.parent = some d) ∧
      tree.lookup? (file.push "g") = none := by
  intro tree file
  obtain ⟨hvalid, -, hbelow, habove⟩ := walks_agree tree file
  have hfile : tree.isValid file = true := hvalid.2 (.inr rfl)
  exact ⟨hfile, (habove hfile file.parent ⟨["f".toList], rfl⟩ (by decide)).1, hbelow "g"⟩

end Showcase.Directory
