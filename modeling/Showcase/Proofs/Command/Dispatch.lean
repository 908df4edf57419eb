import Mathlib.Tactic.FinCases
import Mathlib.Tactic.SplitIfs
import Showcase.Command.Builtin
import Showcase.Proofs.Text.Cutting
import Showcase.Proofs.Tree.Resolve

/-!
# What the built-in commands answer

**Dispatch** (`Registry.execute_cases`). A line is blank, asks for help, names a command of the
registry, or names none. Every fact about the answer to a line is proved along these four cases,
with one look at each built-in command.

**Directories** (`Registry.movesWithin_execute`). Run from a directory, a line ends in a
directory; `cd` alone moves, and nothing moves when there is an error.
-/

namespace Showcase

variable {line : Text} {i : Invocation} {env : Environment}

/-! ## Invocations -/

namespace Invocation

theorem parse?_trim (line : Text) : parse? line.trim = parse? line := by
  simp only [parse?, Text.trim_trim]

theorem words_of_parse? (h : parse? line = some i) : line.words = i.name :: i.args := by
  rw [← Text.words_trim]
  simp only [parse?] at h
  split at h
  · cases h
  · next name args hwords =>
    cases h
    exact hwords

theorem rawArgs_of_parse? (h : parse? line = some i) :
    i.rawArgs = Text.trimStart (line.trim.drop i.name.length) := by
  simp only [parse?] at h
  split at h
  · cases h
  · cases h
    rfl

theorem words_of_parse?_eq_none (h : parse? line = none) : line.words = [] := by
  rw [← Text.words_trim]
  simp only [parse?] at h
  split at h
  · assumption
  · cases h

theorem exists_parse?_of_words {name : Text} {args : List Text} (h : line.words = name :: args) :
    ∃ i, parse? line = some i ∧ i.name = name ∧ i.args = args := by
  cases hi : parse? line with
  | none =>
    rw [words_of_parse?_eq_none hi] at h
    cases h
  | some i =>
    rw [words_of_parse? hi, List.cons.injEq] at h
    exact ⟨i, rfl, h.1, h.2⟩

end Invocation

/-! ## Dispatch -/

namespace Registry

theorem execute_trim (r : Registry) (line : Text) (env : Environment) :
    r.execute line.trim env = r.execute line env := by
  simp only [execute, Invocation.parse?_trim]

theorem mem_commands_of_get? {r : Registry} {name : Text} {c : Command} (h : r.get? name = some c) :
    c ∈ r.commands ∧ c.name = name :=
  ⟨List.mem_of_find?_eq_some h, by simpa using List.find?_some h⟩

theorem execute_of_parse? (r : Registry) (hi : Invocation.parse? line = some i)
    (hhelp : i.name ≠ helpName) (env : Environment) :
    r.execute line env =
      match r.get? i.name with
      | some c => c.run i env
      | none => ⟨.error (.unknownCommand i.name), env.cwd⟩ := by
  rw [execute, hi]
  exact if_neg hhelp

/-- **The answer to a line**: nothing for a blank one, the list of commands, the answer of the
command that the line names, or an error with the name that is not known. -/
theorem execute_cases (r : Registry) (line : Text) (env : Environment) :
    (Invocation.parse? line = none ∧ r.execute line env = ⟨.ok .nothing, env.cwd⟩) ∨
      ∃ i, Invocation.parse? line = some i ∧
        (i.name = helpName ∧ r.execute line env = ⟨.ok (.lines [r.helpLine env.theme]), env.cwd⟩ ∨
          i.name ≠ helpName ∧ (∃ c ∈ r.commands, c.name = i.name ∧
            r.execute line env = c.run i env) ∨
          i.name ≠ helpName ∧ r.get? i.name = none ∧
            r.execute line env = ⟨.error (.unknownCommand i.name), env.cwd⟩) := by
  cases hi : Invocation.parse? line with
  | none => exact .inl ⟨rfl, by simp only [execute, hi]⟩
  | some i =>
    refine .inr ⟨i, rfl, ?_⟩
    by_cases hhelp : i.name = helpName
    · exact .inl ⟨hhelp, by simp only [execute, hi, if_pos hhelp]⟩
    · have hanswer := r.execute_of_parse? hi hhelp env
      cases hc : r.get? i.name with
      | none =>
        rw [hc] at hanswer
        exact .inr (.inr ⟨hhelp, rfl, hanswer⟩)
      | some c =>
        obtain ⟨hmem, hname⟩ := mem_commands_of_get? hc
        rw [hc] at hanswer
        exact .inr (.inl ⟨hhelp, c, hmem, hname, hanswer⟩)

theorem commands_builtin :
    builtin.commands = [.ls, .cd, .cat, .pwd, .clear, .help, .echo] := rfl

/-- A built-in command answers to its name, except `help`, to which the registry answers. -/
theorem execute_builtin {c : Command} (hc : c ∈ builtin.commands) (hhelp : c.name ≠ helpName)
    (hi : Invocation.parse? line = some i) (hname : i.name = c.name) (env : Environment) :
    builtin.execute line env = c.run i env := by
  have hget : builtin.get? c.name = some c := by
    rw [commands_builtin] at hc
    fin_cases hc <;> rfl
  rw [execute_of_parse? _ hi (hname ▸ hhelp), hname, hget]

end Registry

/-! ## Directories -/

namespace Command

theorem ls_cwd (i : Invocation) (env : Environment) : (ls.run i env).cwd = env.cwd := by
  simp only [ls]
  split
  · rfl
  · split_ifs <;> rfl

theorem ls_ok (h : (env.tree.directory? env.cwd).isSome) (i : Invocation) :
    ∃ output, (ls.run i env).result = .ok output := by
  obtain ⟨d, hd⟩ := Option.isSome_iff_exists.1 h
  simp only [ls, hd]
  split_ifs
  · exact ⟨_, rfl⟩
  · exact ⟨_, rfl⟩

theorem cat_cwd (i : Invocation) (env : Environment) : (cat.run i env).cwd = env.cwd := by
  simp only [cat]
  split <;> rfl

theorem echo_cwd (i : Invocation) (env : Environment) : (echo.run i env).cwd = env.cwd := by
  simp only [echo]
  split
  · rfl
  · split_ifs <;> rfl

/-- **Only `cd` moves.** -/
theorem run_cwd {c : Command} (hc : c ∈ Registry.builtin.commands) (hne : c ≠ cd)
    (i : Invocation) (env : Environment) : (c.run i env).cwd = env.cwd := by
  rw [Registry.commands_builtin] at hc
  fin_cases hc
  · exact ls_cwd i env
  · exact absurd rfl hne
  · exact cat_cwd i env
  · rfl
  · rfl
  · rfl
  · exact echo_cwd i env

theorem cd_cases (i : Invocation) (env : Environment) :
    (∃ p, Path.resolve env.tree env.cwd i.argString = .ok p ∧ cd.run i env = ⟨.ok .nothing, p⟩) ∨
      ∃ e, cd.run i env = ⟨.error e, env.cwd⟩ := by
  simp only [cd]
  split
  · next p hp => exact .inl ⟨p, hp, rfl⟩
  · next e he => exact .inr ⟨e, rfl⟩

end Command

/-- A line stays in its directory, or it is a `cd` that goes where its argument leads. -/
theorem Registry.cwd_execute_cases (line : Text) (env : Environment) :
    (builtin.execute line env).cwd = env.cwd ∨
      ∃ i p, Invocation.parse? line = some i ∧ Path.resolve env.tree env.cwd i.argString = .ok p ∧
        builtin.execute line env = ⟨.ok .nothing, p⟩ := by
  rcases execute_cases builtin line env with
    ⟨-, ho⟩ | ⟨i, hi, ⟨-, ho⟩ | ⟨-, c, hc, -, ho⟩ | ⟨-, -, ho⟩⟩ <;> rw [ho]
  · exact .inl rfl
  · exact .inl rfl
  · by_cases hcd : c = .cd
    · rw [hcd]
      rcases Command.cd_cases i env with ⟨p, hp, hrun⟩ | ⟨e, hrun⟩
      · exact .inr ⟨i, p, hi, hp, hrun⟩
      · exact .inl (by rw [hrun])
    · exact .inl (Command.run_cwd hc hcd i env)
  · exact .inl rfl

/-- A move that commands may make: to a directory, and nowhere when there is an error. -/
structure Outcome.MovesWithin (o : Outcome) (env : Environment) : Prop where
  directory : (env.tree.directory? o.cwd).isSome
  stays : ∀ e, o.result = .error e → o.cwd = env.cwd

theorem Outcome.movesWithin_of_stay {o : Outcome} (h : (env.tree.directory? env.cwd).isSome)
    (ho : o.cwd = env.cwd) : o.MovesWithin env :=
  ⟨ho ▸ h, fun _ _ => ho⟩

/-- From a directory every line moves to a directory, and stays when there is an error. -/
theorem Registry.movesWithin_execute (h : (env.tree.directory? env.cwd).isSome) (line : Text) :
    (builtin.execute line env).MovesWithin env := by
  rcases cwd_execute_cases line env with hstay | ⟨i, p, -, hp, ho⟩
  · exact Outcome.movesWithin_of_stay h hstay
  · rw [ho]
    exact ⟨Path.isSome_directory?_of_resolve h hp, fun _ he => nomatch he⟩

end Showcase
