import Mathlib.Data.List.Induction
import Mathlib.Data.List.Nodup
import Showcase.Proofs.Command.Completion
import Showcase.Proofs.Command.Tokens

/-!
# What registering leaves behind

A registry in which commands were registered one after the other keeps a record of them
(`Registry.Records`).

**Names.** Every name that was registered is there once, and the names are in the order in which each
was registered first.

**Commands.** A name leads to the command that was registered last under it (`Command.IsLatest`).

One registration keeps the record (`records_register`): a new name goes behind the others with its
command, and a name that is taken stays where it is while its command changes. So any sequence of
registrations leaves a record of itself (`records_foldl`), whatever names are repeated in it.

The record decides what can be seen of a registry. A line that does not ask for help is answered by
the command that its first word leads to (`Records.execute`), and completion considers the names that
the registry itself offers for a start (`complete_names`).

Main result: `foldl_register_answers`.
-/

namespace Showcase

variable {registered : List Command} {r : Registry} {name start line : Text}

/-! ## The latest command of a name -/

/-- The command was registered under the name, and after it none was. -/
def Command.IsLatest (registered : List Command) (name : Text) (c : Command) : Prop :=
  ∃ before after, registered = before ++ c :: after ∧ c.name = name ∧
    ∀ later ∈ after, later.name ≠ name

theorem Command.isLatest_concat {c c' : Command} :
    IsLatest (registered ++ [c]) name c' ↔
      if c.name = name then c = c' else IsLatest registered name c' := by
  constructor
  · rintro ⟨before, after, hsplit, hname, hafter⟩
    rcases List.eq_nil_or_concat' after with rfl | ⟨after, last, rfl⟩
    · obtain ⟨rfl, rfl⟩ := List.append_singleton_inj.1 hsplit
      rw [if_pos hname]
    · rw [← List.cons_append, ← List.append_assoc] at hsplit
      obtain ⟨rfl, rfl⟩ := List.append_singleton_inj.1 hsplit
      obtain ⟨hold, hlast⟩ := List.forall_mem_append.1 hafter
      rw [if_neg (hlast c List.mem_cons_self)]
      exact ⟨before, after, rfl, hname, hold⟩
  · by_cases hname : c.name = name
    · rw [if_pos hname]
      rintro rfl
      exact ⟨registered, [], rfl, hname, List.forall_mem_nil _⟩
    · rw [if_neg hname]
      rintro ⟨before, after, rfl, hname', hafter⟩
      refine ⟨before, after ++ [c], by simp, hname', ?_⟩
      exact List.forall_mem_append.2 ⟨hafter, by simpa using hname⟩

namespace Registry

/-! ## The record of registrations -/

theorem names_register (r : Registry) (c : Command) :
    (r.register c).names = if c.name ∈ r.names then r.names else r.names ++ [c.name] :=
  names_put c r.commands

theorem get?_register (r : Registry) (c : Command) (name : Text) :
    (r.register c).get? name = if c.name = name then some c else r.get? name :=
  find?_put c r.commands name

theorem get?_eq_none_iff : r.get? name = none ↔ name ∉ r.names := by
  simp [get?, names]

theorem eraseDups_concat (names : List Text) (name : Text) :
    (names ++ [name]).eraseDups =
      if name ∈ names then names.eraseDups else names.eraseDups ++ [name] := by
  rw [List.eraseDups_append, List.cons_removeAll, List.nil_removeAll]
  by_cases h : name ∈ names
  · simp [h]
  · simp [h, List.eraseDups_cons]

/-- What a registry keeps of the commands that were registered in it in this order. -/
structure Records (registered : List Command) (r : Registry) : Prop where
  /-- The names are there in the order in which each was registered first. -/
  names : r.names = (registered.map Command.name).eraseDups
  /-- None of them is there twice. -/
  nodup : r.names.Nodup
  /-- A name leads to the command that was registered last under it. -/
  get?_eq_some_iff : ∀ name c, r.get? name = some c ↔ c.IsLatest registered name

theorem records_empty : Records [] {} where
  names := rfl
  nodup := List.nodup_nil
  get?_eq_some_iff := by simp [get?, Command.IsLatest]

/-- **One registration keeps the record.** -/
theorem records_register (h : r.Records registered) (c : Command) :
    (r.register c).Records (registered ++ [c]) := by
  have hmem : c.name ∈ registered.map Command.name ↔ c.name ∈ r.names := by
    rw [h.names, List.mem_eraseDups]
  refine ⟨?_, ?_, fun name c' => ?_⟩
  · rw [names_register, List.map_append, List.map_singleton, eraseDups_concat, ← h.names]
    simp only [hmem]
  · rw [names_register]
    by_cases hc : c.name ∈ r.names
    · rw [if_pos hc]
      exact h.nodup
    · rw [if_neg hc, ← List.concat_eq_append]
      exact h.nodup.concat hc
  · rw [get?_register, Command.isLatest_concat]
    by_cases hname : c.name = name
    · rw [if_pos hname, if_pos hname, Option.some.injEq]
    · rw [if_neg hname, if_neg hname, h.get?_eq_some_iff]

/-- **Any sequence of registrations leaves a record of itself.** -/
theorem records_foldl (registered : List Command) :
    (registered.foldl register {}).Records registered := by
  induction registered using List.reverseRecOn with
  | nil => exact records_empty
  | append_singleton registered c ih =>
    rw [List.foldl_concat]
    exact records_register ih c

theorem Records.get?_eq_none_iff (h : r.Records registered) (name : Text) :
    r.get? name = none ↔ ∀ c ∈ registered, c.name ≠ name := by
  rw [Registry.get?_eq_none_iff, h.names, List.mem_eraseDups]
  simp

/-! ## What can be seen of a registry -/

/-- **A line that does not ask for help** is run by the latest command of its first word, which gets
the line as it is read; if there is none, the word is not known and nothing moves. -/
theorem Records.execute (h : r.Records registered) {args : List Text}
    (hline : line.Runs (name :: args)) (hhelp : name ≠ helpName) (env : Environment) :
    ∃ i : Invocation, i.Reads line ∧ i.name = name ∧ i.args = args ∧
      ((∃ c : Command, c.IsLatest registered name ∧ r.execute line env = c.run i env) ∨
        (∀ c ∈ registered, c.name ≠ name) ∧
          r.execute line env = ⟨.error (.unknownCommand name), env.cwd⟩) := by
  obtain ⟨i, hi, rfl, rfl⟩ :=
    Invocation.exists_parse?_of_words (Text.words_eq_iff_runs.2 hline)
  have hanswer := r.execute_of_parse? hi hhelp env
  refine ⟨i, Invocation.reads_of_parse? hi, rfl, rfl, ?_⟩
  cases hc : r.get? i.name with
  | none =>
    rw [hc] at hanswer
    exact .inr ⟨(h.get?_eq_none_iff i.name).1 hc, hanswer⟩
  | some c =>
    rw [hc] at hanswer
    exact .inl ⟨c, (h.get?_eq_some_iff i.name c).1 hc, hanswer⟩

theorem completions_eq (r : Registry) (start : Text) :
    r.completions start = r.names.filter fun name => start <+: name := by
  refine List.filter_congr fun name _ => ?_
  rw [Bool.eq_iff_iff, List.isPrefixOf_iff_prefix, decide_eq_true_iff]

theorem complete_names (r : Registry) {lead : Text} (hlead : lead.IsBlank) (hstart : start.IsWord)
    (cwd : Path) (tree : Directory) :
    Completion.complete (lead ++ start) cwd tree r.names =
      Completion.choose (fun name => .replace (lead ++ name ++ [' '])) .commands
        (r.completions start) := by
  rw [Completion.complete_of_isWord hlead hstart, Completion.ofCommand_append, completions_eq]

/-- **After any sequence of registrations** a registry has the registered names, each once and in
the order in which it came first. A name leads to the command that was registered last under it, and
nowhere when it was never registered. A line whose first word is not `help` is run by just that
command, or fails with the word, and then nothing moves. For the start of a name completion considers
the names that start so, which are those that the registry offers itself. -/
theorem foldl_register_answers (registered : List Command) :
    let r := registered.foldl register {}
    r.Records registered ∧
      (∀ name, r.get? name = none ↔ ∀ c ∈ registered, c.name ≠ name) ∧
      (∀ line name args, Text.Runs line (name :: args) → name ≠ helpName → ∀ env,
        ∃ i : Invocation, i.Reads line ∧ i.name = name ∧ i.args = args ∧
          ((∃ c : Command, c.IsLatest registered name ∧ r.execute line env = c.run i env) ∨
            (∀ c ∈ registered, c.name ≠ name) ∧
              r.execute line env = ⟨.error (.unknownCommand name), env.cwd⟩)) ∧
      ∀ lead start, Text.IsBlank lead → Text.IsWord start →
        r.completions start = r.names.filter (fun name => start <+: name) ∧
          ∀ cwd tree, Completion.complete (lead ++ start) cwd tree r.names =
            Completion.choose (fun name => .replace (lead ++ name ++ [' '])) .commands
              (r.completions start) := by
  intro r
  have h : r.Records registered := records_foldl registered
  refine ⟨h, h.get?_eq_none_iff, ?_, ?_⟩
  · intro line name args hline hhelp env
    exact h.execute hline hhelp env
  · intro lead start hlead hstart
    exact ⟨r.completions_eq start, r.complete_names hlead hstart⟩

/-- A second `ls` takes the place of the first. -/
example :
    let ls' : Command := { Command.pwd with name := "ls" }
    let r := [Command.ls, .cd, ls'].foldl register {}
    r.names = ["ls".toList, "cd".toList] ∧ r.get? "ls" = some ls' := ⟨by decide, rfl⟩

end Registry

end Showcase
