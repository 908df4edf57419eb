import Showcase.Proofs.Shell.Frame
import Showcase.Proofs.Text.Spacing

/-!
# The working directory

A shell starts at the root and moves only where an answer leads it. Answers given from a directory
lead to a directory (`Registry.movesWithin_execute`), so no run ever leaves the tree, and the two
guards against having left it (the refusal to enter an invalid path and the error of `ls` about
its own directory) never fire.

**Names on the way.** A directory is entered by a `cd`, and the argument of a `cd` has its words one
space apart. So no name on the way to the working directory has any other blank in it, a newline
for one, whatever names there are in the tree (`isSpaced_run`).

Main results: `InDirectory.run` and `isSpaced_run`.
-/

namespace Showcase

namespace Path

variable {tree : Directory} {p q : Path} {argument : Text}

/-- No name on the path has a blank other than the space. -/
def IsSpaced (p : Path) : Prop := ∀ name ∈ p.segments, Text.IsSpaced name

theorem IsSpaced.resolve (hp : p.IsSpaced) (ha : Text.IsSpaced argument)
    (h : resolve tree p argument = .ok q) : q.IsSpaced := by
  by_cases hhome : IsHome argument
  · rw [resolve_of_isHome hhome] at h
    cases h
    exact List.forall_mem_nil _
  · intro name hname
    rcases mem_segments_of_foldlM ((resolve_eq_ok_iff hhome).1 h) hname with hold | hsegment
    · exact hp name hold
    · rw [List.splitOn_eq_splitOnP] at hsegment
      exact fun c hc => ha c (Text.of_mem_splitOnP hsegment hc).1

end Path

theorem Invocation.isSpaced_argString {line : Text} {i : Invocation} (h : parse? line = some i) :
    i.argString.IsSpaced := by
  refine Text.isSpaced_join fun w hw => Text.hasBlank_of_mem_words (s := line) ?_
  rw [words_of_parse? h]
  exact List.mem_cons_of_mem i.name hw

namespace Shell

variable {s : Shell}

/-- The working directory is a directory of the tree. -/
def InDirectory (s : Shell) : Prop := (s.tree.directory? s.session.cwd).isSome

theorem inDirectory_start (tree : Directory) (config : Config) (notifier : Notifier) :
    (start tree config notifier).InDirectory := by
  show (tree.directory? .root).isSome
  rw [Directory.directory?_root]
  rfl

theorem InDirectory.answer (h : s.InDirectory) (line : Text) :
    (s.answer line).MovesWithin s.environment := by
  refine Registry.movesWithin_execute ?_ line
  exact h

/-- An operation goes where the answer to its line leads, if it has one, and nowhere else. -/
theorem InDirectory.cwd_apply (h : s.InDirectory) (op : Operation) :
    (s.apply op).session.cwd =
      match s.lineOf? op with
      | some line => (s.answer line).cwd
      | none => s.session.cwd := by
  cases hline : s.lineOf? op with
  | none =>
    obtain ⟨session, outbox, hs, hcwd, -⟩ := apply_of_no_line hline
    rw [hs]
    exact hcwd
  | some line =>
    obtain ⟨session, hcwd, -, hs⟩ := apply_of_line hline
    have henv : environment { s with session } = s.environment := by
      simp only [environment, hcwd]
    have hsession : InDirectory { s with session } := by
      show (s.tree.directory? session.cwd).isSome
      rw [hcwd]
      exact h
    rw [hs, cwd_execute hsession, Shell.answer, henv]
    rfl

theorem InDirectory.apply (h : s.InDirectory) (op : Operation) : (s.apply op).InDirectory := by
  have htree : (s.apply op).tree = s.tree := congrArg Setting.tree (setting_apply s op)
  rw [InDirectory, htree, h.cwd_apply]
  cases s.lineOf? op with
  | none => exact h
  | some line => exact (h.answer line).directory

theorem InDirectory.run (h : s.InDirectory) (ops : List Operation) : (s.run ops).InDirectory := by
  induction ops generalizing s with
  | nil => exact h
  | cons op ops ih => exact ih (h.apply op)

/-! ## Names on the way -/

theorem isSpaced_answer (h : s.session.cwd.IsSpaced) (line : Text) :
    (s.answer line).cwd.IsSpaced := by
  rcases Registry.cwd_execute_cases line s.environment with hstay | ⟨i, p, hi, hp, ho⟩
  · rw [answer, hstay]
    exact h
  · rw [answer, ho]
    exact h.resolve (Invocation.isSpaced_argString hi) hp

theorem isSpaced_apply (hs : s.InDirectory) (h : s.session.cwd.IsSpaced) (op : Operation) :
    (s.apply op).session.cwd.IsSpaced := by
  rw [hs.cwd_apply]
  cases s.lineOf? op with
  | none => exact h
  | some line => exact isSpaced_answer h line

/-- Only spaces are blanks in the names on the way to the working directory. -/
theorem isSpaced_run (hs : s.InDirectory) (h : s.session.cwd.IsSpaced) (ops : List Operation) :
    (s.run ops).session.cwd.IsSpaced := by
  induction ops generalizing s with
  | nil => exact h
  | cons op ops ih => exact ih (hs.apply op) (isSpaced_apply hs h op)

/-! ## All runs -/

/-- **A shell is always in a directory**, and so is it after whatever line comes next: it enters
the directory that the answer names, and stays where it is when the answer is an error. There `ls`
always has an answer. -/
theorem run_in_directory (tree : Directory) (config : Config) (notifier : Notifier)
    (ops : List Operation) :
    let s := (start tree config notifier).run ops
    (tree.directory? s.session.cwd).isSome ∧
      (∀ line, let o := Registry.builtin.execute line s.environment
        (tree.directory? o.cwd).isSome ∧ tree.isValid o.cwd ∧
          (∀ e, o.result = .error e → o.cwd = s.session.cwd) ∧
          (s.execute line).session.cwd = o.cwd) ∧
      ∀ i, ∃ output, (Command.ls.run i s.environment).result = .ok output := by
  intro s
  have hs : s.InDirectory := (inDirectory_start tree config notifier).run ops
  have htree : s.tree = tree := congrArg Setting.tree (setting_run ..)
  refine ⟨?_, fun line => ⟨?_, ?_, (hs.answer line).stays, cwd_execute hs line⟩, ?_⟩
  · rw [← htree]
    exact hs
  · rw [← htree]
    exact (hs.answer line).directory
  · rw [← htree]
    exact Directory.isValid_of_directory? (hs.answer line).directory
  · intro i
    refine Command.ls_ok ?_ i
    exact hs

end Shell

end Showcase
