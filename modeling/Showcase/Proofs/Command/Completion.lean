import Mathlib.Tactic.SplitIfs
import Showcase.Command.Completion
import Showcase.Proofs.Text.Cutting
import Showcase.Proofs.Tree.Resolve

/-!
# What completion offers

**The rules** (`Completion.Offers`). What is offered depends on the shape of the input: blanks, the
start of a command name, or a command and an argument. An argument without a blank reaches a
directory, the one to which its part up to the last slash resolves, and starts a name there
(`Completion.Reaches`); the matches are the entries of that directory with such a name, hidden ones
only if the start is hidden itself.

**Walking and resolving agree** (`foldlM_descend?`). The segments of an argument are followed one by
one, in a walk that stops at `..`; as long as there is none, it is the walk of `Path.resolve`.

Main result: `complete_eq_iff`, completion offers exactly what the rules say.
-/

namespace Showcase.Completion

variable {tree : Directory} {cwd base : Path} {commands : List Text}
variable {input argument start parents : Text}

/-! ## The rules -/

/-- Nothing for no match, the one match, or a choice of several. -/
def choose {α : Type} (one : α → Completion) (several : List α → Completion) :
    List α → Completion
  | [] => .noMatch
  | [a] => one a
  | as => several as

/-- The input is a word and a blank behind it, and the argument is what comes after all blanks. -/
inductive HasArgument : Text → Text → Prop
  | intro {lead name rest : Text} {blank : Char} (hlead : lead.IsBlank) (hname : name.IsWord)
      (hblank : isBlank blank = true) :
      HasArgument (lead ++ (name ++ blank :: rest)) (Text.trimStart (blank :: rest))

/-- The directory that an argument reaches, and the start of a name in it. -/
inductive Reaches (tree : Directory) (cwd : Path) : Text → Path → Text → Prop
  | here {start : Text} (hstart : '/' ∉ start) : Reaches tree cwd start cwd start
  | below {parents start : Text} {base : Path} (hstart : '/' ∉ start)
      (hclimb : "..".toList ∉ parents.splitOn '/')
      (hbase : Path.resolve tree cwd (parents ++ ['/']) = .ok base) :
      Reaches tree cwd (parents ++ '/' :: start) base start

/-- The argument climbs, or a part of it names no directory. -/
inductive Strays (tree : Directory) (cwd : Path) : Text → Prop
  | climb {parents start : Text} (hstart : '/' ∉ start)
      (hclimb : "..".toList ∈ parents.splitOn '/') : Strays tree cwd (parents ++ '/' :: start)
  | lost {parents start : Text} {e : CommandError} (hstart : '/' ∉ start)
      (hlost : Path.resolve tree cwd (parents ++ ['/']) = .error e) :
      Strays tree cwd (parents ++ '/' :: start)

/-- The entries that the start of a name may stand for, in order. -/
def matching (d : Directory) (start : Text) : List (Text × Entry) :=
  d.filter fun entry => start <+: entry.1 ∧ (".".toList <+: entry.1 → ".".toList <+: start)

theorem of_filter_eq_singleton {α : Type} {p : α → Bool} {as : List α} {a : α}
    (h : as.filter p = [a]) : a ∈ as ∧ p a = true := by
  have hmem : a ∈ as.filter p := h ▸ List.mem_singleton_self a
  exact List.mem_filter.1 hmem

theorem choose_of_two_le {α : Type} {one : α → Completion} {several : List α → Completion}
    {as : List α} (h : 2 ≤ as.length) : choose one several as = several as := by
  rcases as with _ | ⟨a, _ | ⟨a', as⟩⟩
  · simp at h
  · simp at h
  · rfl

/-- While no name is started the entries that are not hidden match. -/
theorem matching_nil (d : Directory) : matching d [] = d.listing false := by
  rw [Directory.listing_false, Directory.listing_true, matching]
  exact List.filter_congr fun entry _ => by simp

/-- What is offered for an input. -/
inductive Offers (tree : Directory) (cwd : Path) (commands : List Text) : Text → Completion → Prop
  | blank {input : Text} (hinput : input.IsBlank) : Offers tree cwd commands input .noMatch
  | command {lead start : Text} (hlead : lead.IsBlank) (hstart : start.IsWord) :
      Offers tree cwd commands (lead ++ start)
        (choose (fun name => .replace (lead ++ name ++ [' '])) .commands
          (commands.filter fun name => start <+: name))
  | words {input argument : Text} (hargument : HasArgument input argument)
      (hwords : argument.hasBlank = true) : Offers tree cwd commands input .noMatch
  | nowhere {input argument : Text} (hargument : HasArgument input argument)
      (hword : argument.hasBlank = false) (hstrays : Strays tree cwd argument) :
      Offers tree cwd commands input .noMatch
  | entry {front argument start : Text} {base : Path} {d : Directory}
      (hargument : HasArgument (front ++ start) argument) (hword : argument.hasBlank = false)
      (hreaches : Reaches tree cwd argument base start) (hbase : tree.directory? base = some d) :
      Offers tree cwd commands (front ++ start)
        (choose (fun e => .replace (front ++ e.1 ++ if e.2.isDirectory then ['/'] else []))
          (fun es => .entries (es.map fun e => { name := e.1, isDirectory := e.2.isDirectory }))
          (matching d start))

/-! ## Walking and resolving -/

/-- Without `..` following an argument is resolving it. -/
theorem foldlM_descend? (segments : List Text) (cwd : Path) :
    segments.foldlM (descend? tree) cwd =
      if "..".toList ∈ segments then none else segments.foldlM (Path.step? tree) cwd := by
  induction segments generalizing cwd with
  | nil => rfl
  | cons segment segments ih =>
    rw [List.foldlM_cons, List.foldlM_cons, descend?]
    by_cases hclimb : segment = "..".toList
    · rw [if_pos hclimb, if_pos (hclimb ▸ List.mem_cons_self)]
      rfl
    · have hmem : "..".toList ∈ segment :: segments ↔ "..".toList ∈ segments := by
        rw [List.mem_cons, or_iff_right (Ne.symm hclimb)]
      rw [if_neg hclimb]
      simp only [hmem, ih]
      cases Path.step? tree cwd segment with
      | none => split_ifs <;> rfl
      | some p => rfl

/-- A slash at the end changes nothing, except that it is not home. -/
theorem resolve_slash (tree : Directory) (cwd : Path) (parents : Text) :
    Path.resolve tree cwd (parents ++ ['/']) =
      match (parents.splitOn '/').foldlM (Path.step? tree) cwd with
      | some p => .ok p
      | none => .error (.pathNotFound (parents ++ ['/'])) := by
  have hsplit : (parents ++ ['/']).splitOn '/' = parents.splitOn '/' ++ [[]] :=
    List.splitOn_append_cons_self parents []
  have hstay (p : Path) : [([] : Text)].foldlM (Path.step? tree) p = some p := rfl
  rw [Path.resolve_of_not_isHome (Path.not_isHome_of_mem (by simp)), hsplit, List.foldlM_append]
  cases (parents.splitOn '/').foldlM (Path.step? tree) cwd with
  | none => rfl
  | some p => rw [Option.bind_eq_bind, Option.bind_some, hstay]

theorem base?_of_reaches (h : Reaches tree cwd argument base start) :
    base? tree cwd argument = some (base, start) := by
  cases h with
  | here hstart => rw [base?, Text.cutLast?_eq_none_iff.2 hstart]
  | below hstart hclimb hbase =>
    rw [resolve_slash] at hbase
    rw [base?, Text.cutLast?_append hstart]
    simp only [foldlM_descend?, if_neg hclimb]
    split at hbase
    · next p hp =>
      cases hbase
      rw [hp]
      rfl
    · cases hbase

theorem base?_of_strays (h : Strays tree cwd argument) : base? tree cwd argument = none := by
  cases h with
  | climb hstart hclimb =>
    rw [base?, Text.cutLast?_append hstart]
    simp only [foldlM_descend?, if_pos hclimb]
    rfl
  | lost hstart hlost =>
    rw [resolve_slash] at hlost
    rw [base?, Text.cutLast?_append hstart]
    simp only [foldlM_descend?]
    split at hlost
    · cases hlost
    · next hnone =>
      rw [hnone]
      split_ifs <;> rfl

theorem strays_or_reaches (hcwd : (tree.directory? cwd).isSome) (argument : Text) :
    Strays tree cwd argument ∨ ∃ front start base d, argument = front ++ start ∧
      Reaches tree cwd argument base start ∧ tree.directory? base = some d := by
  cases hcut : Text.cutLast? '/' argument with
  | none =>
    obtain ⟨d, hd⟩ := Option.isSome_iff_exists.1 hcwd
    exact .inr ⟨[], argument, cwd, d, rfl, .here (Text.cutLast?_eq_none_iff.1 hcut), hd⟩
  | some parts =>
    obtain ⟨parents, start⟩ := parts
    obtain rfl := Text.cutLast?_eq_some hcut
    have hstart := Text.not_mem_of_cutLast? hcut
    by_cases hclimb : "..".toList ∈ parents.splitOn '/'
    · exact .inl (.climb hstart hclimb)
    · cases hbase : Path.resolve tree cwd (parents ++ ['/']) with
      | error e => exact .inl (.lost hstart hbase)
      | ok base =>
        obtain ⟨d, hd⟩ :=
          Option.isSome_iff_exists.1 (Path.isSome_directory?_of_resolve hcwd hbase)
        exact .inr ⟨parents ++ ['/'], start, base, d, by simp, .below hstart hclimb hbase, hd⟩

/-! ## The offer -/

theorem candidates_eq (d : Directory) (start : Text) :
    candidates d start =
      (matching d start).map fun e => { name := e.1, isDirectory := e.2.isDirectory } := by
  rw [candidates, Directory.listing, matching, List.filter_filter]
  congr 2
  funext entry
  have hhidden : (isHidden start || !isHidden entry.1) = true ↔
      (".".toList <+: entry.1 → ".".toList <+: start) := by
    rw [← isHidden_iff, ← isHidden_iff]
    cases isHidden start <;> simp
  rw [Bool.eq_iff_iff, Bool.and_eq_true, List.isPrefixOf_iff_prefix, hhidden, decide_eq_true_iff]

theorem exchange_append (front start replacement : Text) :
    exchange (front ++ start) start replacement = front ++ replacement := by
  simp [exchange]

theorem ofCommand_append (front start : Text) (commands : List Text) :
    ofCommand (front ++ start) start commands =
      choose (fun name => .replace (front ++ name ++ [' '])) .commands
        (commands.filter fun name => start <+: name) := by
  have hprefix (name : Text) : start.isPrefixOf name = decide (start <+: name) := by
    rw [Bool.eq_iff_iff, List.isPrefixOf_iff_prefix, decide_eq_true_iff]
  simp only [ofCommand, hprefix, exchange_append]
  rcases commands.filter fun name => start <+: name with _ | ⟨name, _ | ⟨name', names⟩⟩
  · rfl
  · simp [choose]
  · rfl

theorem ofArgument_append {d : Directory} (front : Text)
    (hreaches : Reaches tree cwd argument base start) (hbase : tree.directory? base = some d) :
    ofArgument (front ++ start) argument cwd tree =
      choose (fun e => .replace (front ++ e.1 ++ if e.2.isDirectory then ['/'] else []))
        (fun es => .entries (es.map fun e => { name := e.1, isDirectory := e.2.isDirectory }))
        (matching d start) := by
  simp only [ofArgument, base?_of_reaches hreaches, hbase, candidates_eq]
  rcases matching d start with _ | ⟨⟨name, entry⟩, _ | ⟨entry', entries⟩⟩
  · rfl
  · simp only [List.map_cons, List.map_nil, choose, exchange_append]
    cases entry.isDirectory <;> simp
  · rfl

theorem complete_of_isBlank (hinput : input.IsBlank) :
    complete input cwd tree commands = .noMatch := by
  simp [complete, Text.trimStart_eq_nil_iff.2 hinput]

theorem complete_of_isWord {lead : Text} (hlead : lead.IsBlank) (hstart : start.IsWord) :
    complete (lead ++ start) cwd tree commands = ofCommand (lead ++ start) start commands := by
  have htyped : (lead ++ start).trimStart = start := by
    simpa using Text.trimStart_append_word hlead hstart []
  simp [complete, htyped, Text.cutBlank?_eq_none_iff.2 hstart.2, hstart.1]

theorem complete_of_hasArgument (h : HasArgument input argument) :
    complete input cwd tree commands =
      if argument.hasBlank then .noMatch else ofArgument input argument cwd tree := by
  cases h with
  | intro hlead hname hblank =>
    rename_i lead name rest blank
    have htyped := Text.trimStart_append_word hlead hname (blank :: rest)
    have hrest : Text.trimStart (blank :: rest) = rest.trimStart := by
      simp [Text.trimStart, hblank]
    simp [complete, htyped, Text.cutBlank?_append hname.2 hblank, hrest]

/-- What the rules offer is what completion gives. -/
theorem complete_of_offers {result : Completion} (h : Offers tree cwd commands input result) :
    complete input cwd tree commands = result := by
  cases h with
  | blank hinput => exact complete_of_isBlank hinput
  | command hlead hstart => rw [complete_of_isWord hlead hstart, ofCommand_append]
  | words hargument hwords => rw [complete_of_hasArgument hargument, if_pos hwords]
  | nowhere hargument hword hstrays =>
    rw [complete_of_hasArgument hargument, hword, ofArgument, base?_of_strays hstrays]
    rfl
  | entry hargument hword hreaches hbase =>
    rw [complete_of_hasArgument hargument, hword, ← ofArgument_append _ hreaches hbase]
    rfl

/-- Every input is blank, the start of a command, or a command with an argument. -/
theorem shape_cases (input : Text) :
    input.IsBlank ∨ (∃ lead start, lead.IsBlank ∧ start.IsWord ∧ input = lead ++ start) ∨
      ∃ front argument, HasArgument input argument ∧ input = front ++ argument := by
  obtain ⟨lead, hlead, hinput⟩ := Text.exists_eq_trimStart input
  cases htyped : input.trimStart with
  | nil =>
    rw [htyped, List.append_nil] at hinput
    exact .inl (hinput ▸ hlead)
  | cons c typed =>
    have hc := Text.isBlank_of_trimStart_eq_cons htyped
    rw [htyped] at hinput
    cases hcut : Text.cutBlank? (c :: typed) with
    | none =>
      have hword : Text.IsWord (c :: typed) :=
        ⟨List.cons_ne_nil c typed, Text.cutBlank?_eq_none_iff.1 hcut⟩
      exact .inr (.inl ⟨lead, c :: typed, hlead, hword, hinput⟩)
    | some parts =>
      obtain ⟨name, rest⟩ := parts
      obtain ⟨blank, hblank, hparts⟩ := Text.cutBlank?_eq_some hcut
      have hname : Text.IsWord name := by
        refine ⟨?_, Text.hasBlank_of_cutBlank? hcut⟩
        rintro rfl
        cases hparts
        simp [hc] at hblank
      obtain ⟨gap, -, hrest⟩ := Text.exists_eq_trimStart (blank :: rest)
      have hargument : HasArgument (lead ++ (name ++ blank :: rest))
          (Text.trimStart (blank :: rest)) := .intro hlead hname hblank
      rw [← hparts, ← hinput] at hargument
      refine .inr (.inr ⟨lead ++ (name ++ gap), _, hargument, ?_⟩)
      rw [List.append_assoc, List.append_assoc, ← hrest, ← hparts, ← hinput]

theorem exists_offers (hcwd : (tree.directory? cwd).isSome) (commands : List Text) (input : Text) :
    ∃ result, Offers tree cwd commands input result := by
  rcases shape_cases input with
    hblank | ⟨lead, start, hlead, hstart, rfl⟩ | ⟨front, argument, h, hinput⟩
  · exact ⟨_, .blank hblank⟩
  · exact ⟨_, .command hlead hstart⟩
  · cases hword : argument.hasBlank with
    | true => exact ⟨_, .words h hword⟩
    | false =>
      rcases strays_or_reaches hcwd argument with
        hstrays | ⟨parents, start, base, d, hparts, hreaches, hd⟩
      · exact ⟨_, .nowhere h hword hstrays⟩
      · rw [hparts, ← List.append_assoc] at hinput
        subst hinput
        exact ⟨_, .entry h hword hreaches hd⟩

/-- **Completion offers what the rules say, and nothing else.** -/
theorem complete_eq_iff (hcwd : (tree.directory? cwd).isSome) (commands : List Text) (input : Text)
    (result : Completion) :
    complete input cwd tree commands = result ↔ Offers tree cwd commands input result := by
  refine ⟨?_, complete_of_offers⟩
  rintro rfl
  obtain ⟨result, h⟩ := exists_offers hcwd commands input
  rwa [complete_of_offers h]

/-- The hidden entry of a directory is offered once a full stop is typed, and left out before. -/
theorem complete_eq_iff_hidden :
    let tree : Directory :=
      [("a".toList, .directory [(".b".toList, .directory []), ("c".toList, .file [])])]
    (tree.directory? .root).isSome ∧
      Offers tree .root ["cd".toList] "\tcd ./a/." (.replace "\tcd ./a/.b/") ∧
      Offers tree .root ["cd".toList] "\tcd ./a/" (.replace "\tcd ./a/c") := by
  intro tree
  have hroot : (tree.directory? .root).isSome := rfl
  exact ⟨hroot, (complete_eq_iff hroot ["cd".toList] "\tcd ./a/." _).1 rfl,
    (complete_eq_iff hroot ["cd".toList] "\tcd ./a/" _).1 rfl⟩

end Showcase.Completion
