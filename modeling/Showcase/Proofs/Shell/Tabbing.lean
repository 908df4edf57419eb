import Mathlib.Logic.Function.Iterate
import Showcase.Proofs.Shell.Entering
import Showcase.Proofs.Tree.Height

/-!
# Pressing the tab key again and again

Every press completes what the press before it has put into the input: first the name of the
command, then the entries of one directory after the other.

**Going down** (`settlesIn_of_reaches`). An argument that is not empty has reached a directory. A
press changes nothing, or puts in a file, after which nothing more is found, or puts in a directory
and a slash, so that the next press looks into that directory. As the directories get lower and
lower this ends (`SettlesIn`), after no more presses than the first of them is high.

**Starting** (`settlesIn_of_not_endless`). The name of the command takes one press, and the first
name of an argument may take another, because the next press skips the blanks in front of it.

**Going on for ever** (`Endless`). If there is nothing but blanks in the name, then the next press
finds the argument as empty as before and puts the name in again. This happens just when the only
entry of the working directory that is not hidden is a file with a blank name.

Main result: `iterate_complete`.
-/

namespace Showcase

/-! ## Coming to rest -/

/-- A function comes to rest at `x` within `n` steps. -/
inductive SettlesIn {α : Type} (f : α → α) : Nat → α → Prop
  | rest {n : Nat} {x : α} (h : f x = x) : SettlesIn f n x
  | step {n : Nat} {x : α} (h : SettlesIn f n (f x)) : SettlesIn f (n + 1) x

section

variable {α : Type} {f : α → α} {m n : Nat} {x : α}

theorem SettlesIn.mono (h : SettlesIn f m x) (hmn : m ≤ n) : SettlesIn f n x := by
  induction h generalizing n with
  | rest h => exact .rest h
  | step h ih =>
    obtain ⟨n, rfl⟩ : ∃ k, n = k + 1 := ⟨n - 1, by omega⟩
    exact .step (ih (by omega))

theorem SettlesIn.iterate_eq (h : SettlesIn f n x) (hnm : n ≤ m) : f^[m] x = f^[n] x := by
  induction h generalizing m with
  | rest h => rw [Function.iterate_fixed h, Function.iterate_fixed h]
  | step h ih =>
    obtain ⟨m, rfl⟩ : ∃ k, m = k + 1 := ⟨m - 1, by omega⟩
    rw [Function.iterate_succ_apply, Function.iterate_succ_apply, ih (by omega)]

end

/-- All that is not hidden in the directory is one file, and its name is blank. -/
def Directory.OnlyBlank (d : Directory) : Prop :=
  ∃ name content, d.listing false = [(name, .file content)] ∧ Text.IsBlank name

namespace Completion

variable {tree d sub : Directory} {cwd base : Path} {commands : List Text}
variable {input argument front parents lead start name n : Text}

/-! ## Going down -/

theorem Reaches.restart (h : Reaches tree cwd (parents ++ start) base start) (hn : '/' ∉ n) :
    Reaches tree cwd (parents ++ n) base n := by
  rcases h.cases_parents with ⟨rfl, rfl⟩ | ⟨above, rfl, hclimb, hbase⟩
  · exact .here hn
  · rw [List.append_assoc, List.singleton_append]
    exact .below hn hclimb hbase

theorem Reaches.enter (h : Reaches tree cwd (parents ++ start) base start) (htree : tree.Built)
    (hbase : tree.directory? base = some d) (hchild : d.childDir? name = some sub)
    (hname : '/' ∉ name) : Reaches tree cwd (parents ++ name ++ ['/']) (base.push name) [] := by
  have hclimb : "..".toList ∉ (parents ++ name).splitOn '/' := by
    have hreserved := ((htree.directory? hbase).of_mem (Directory.mem_of_childDir? hchild)).1
    have hdots : "..".toList ≠ name := fun hdots => hreserved (.inr (.inr hdots.symm))
    have hone : name.splitOn '/' = [name] := List.splitOn_eq_singleton hname
    rcases h.cases_parents with ⟨rfl, -⟩ | ⟨above, rfl, hclimb, -⟩
    · rw [List.nil_append, hone]
      exact List.mem_singleton.not.2 hdots
    · rw [List.append_assoc, List.singleton_append, List.splitOn_append_cons_self, hone]
      exact List.mem_append.not.2 (not_or.2 ⟨hclimb, List.mem_singleton.not.2 hdots⟩)
  refine .below List.not_mem_nil hclimb ?_
  rw [List.append_assoc, h.resolve_append_iff hname]
  exact htree.step?_eq_some hbase hchild

theorem Reaches.height_le {e : Directory} (h : Reaches tree cwd argument base start)
    (hcwd : tree.directory? cwd = some d) (hbase : tree.directory? base = some e) :
    e.height ≤ d.height := by
  have hkept : ∃ e, tree.directory? base = some e ∧ e.height ≤ d.height := by
    cases h with
    | here hstart => exact ⟨d, hcwd, le_rfl⟩
    | below hstart hclimb hresolve =>
      exact Directory.exists_height_le_of_foldlM hcwd hclimb (resolve_slash_eq_ok_iff.1 hresolve)
  obtain ⟨e', he', hle⟩ := hkept
  rw [hbase] at he'
  cases he'
  exact hle

/-! ## One press -/

/-- The input after a completion of it. -/
def after (input : Text) : Completion → Text
  | .replace text => text
  | _ => input

/-- The input after the tab key. -/
def tab (tree : Directory) (cwd : Path) (commands : List Text) (input : Text) : Text :=
  (complete input cwd tree commands).after input

theorem after_choose {α : Type} (input : Text) (exchanged : α → Text)
    (several : List α → Completion) (hseveral : ∀ as, (several as).after input = input)
    (as : List α) :
    (∃ a, as = [a] ∧
        (choose (fun a => .replace (exchanged a)) several as).after input = exchanged a) ∨
      (choose (fun a => .replace (exchanged a)) several as).after input = input := by
  rcases as with _ | ⟨a, _ | ⟨a', as⟩⟩
  · exact .inr rfl
  · exact .inl ⟨a, rfl, rfl⟩
  · exact .inr (hseveral _)

theorem of_matching {entry : Entry} (h : matching d start = [(name, entry)]) :
    (name, entry) ∈ d ∧ start <+: name := by
  obtain ⟨hin, hfits⟩ := of_filter_eq_singleton h
  exact ⟨hin, (of_decide_eq_true hfits).1⟩

theorem matching_of_matching {entry : Entry} (h : matching d start = [(name, entry)]) :
    matching d name = [(name, entry)] := by
  obtain ⟨hin, hfits⟩ := of_filter_eq_singleton h
  obtain ⟨hstart, hhidden⟩ := of_decide_eq_true hfits
  have hsub : (matching d name).Sublist (matching d start) := by
    refine List.monotone_filter_right d fun other hother => ?_
    obtain ⟨hname, hhide⟩ := of_decide_eq_true hother
    exact decide_eq_true ⟨hstart.trans hname, fun h => hhidden (hhide h)⟩
  have hself : (name, entry) ∈ matching d name :=
    List.mem_filter.2 ⟨hin, decide_eq_true ⟨List.prefix_rfl, id⟩⟩
  rw [h] at hsub
  rcases List.sublist_singleton.1 hsub with hnone | hone
  · rw [hnone] at hself
    cases hself
  · exact hone

theorem tab_of_hasBlank (hargument : HasArgument input argument)
    (hblank : argument.hasBlank = true) : tab tree cwd commands input = input := by
  rw [tab, complete_of_offers (.words hargument hblank)]
  rfl

theorem tab_of_strays (hargument : HasArgument input argument) (hword : argument.hasBlank = false)
    (hstrays : Strays tree cwd argument) : tab tree cwd commands input = input := by
  rw [tab, complete_of_offers (.nowhere hargument hword hstrays)]
  rfl

/-- One press at the start of a name: the only match is put in, or nothing happens. -/
theorem tab_entry (commands : List Text)
    (hargument : HasArgument (front ++ start) argument) (hword : argument.hasBlank = false)
    (hreaches : Reaches tree cwd argument base start) (hbase : tree.directory? base = some d) :
    (∃ name content, matching d start = [(name, .file content)] ∧
        tab tree cwd commands (front ++ start) = front ++ name) ∨
      (∃ name sub, matching d start = [(name, .directory sub)] ∧
        tab tree cwd commands (front ++ start) = front ++ name ++ ['/']) ∨
      tab tree cwd commands (front ++ start) = front ++ start := by
  have hoffers : Offers tree cwd commands _ _ := .entry hargument hword hreaches hbase
  rw [tab, complete_of_offers hoffers]
  rcases after_choose (front ++ start)
    (fun e => front ++ e.1 ++ if e.2.isDirectory then ['/'] else [])
    (fun es => .entries (es.map fun e => { name := e.1, isDirectory := e.2.isDirectory }))
    (fun _ => rfl) (matching d start) with ⟨⟨name, entry⟩, hone, hafter⟩ | hafter
  · cases entry with
    | file content => exact .inl ⟨name, content, hone, hafter.trans (List.append_nil _)⟩
    | directory sub => exact .inr (.inl ⟨name, sub, hone, hafter⟩)
  · exact .inr (.inr hafter)

/-- One press at the start of a command: the only match is put in, or nothing happens. -/
theorem tab_command (tree : Directory) (cwd : Path) (commands : List Text) (hlead : lead.IsBlank)
    (hstart : start.IsWord) :
    (∃ name, (commands.filter fun name => start <+: name) = [name] ∧
        tab tree cwd commands (lead ++ start) = lead ++ name ++ [' ']) ∨
      tab tree cwd commands (lead ++ start) = lead ++ start := by
  have hoffers : Offers tree cwd commands _ _ := .command hlead hstart
  rw [tab, complete_of_offers hoffers]
  exact after_choose (lead ++ start) (fun name => lead ++ name ++ [' ']) .commands (fun _ => rfl) _

/-- A press extends the input, if it does anything. -/
theorem prefix_tab (hcwd : (tree.directory? cwd).isSome) (commands : List Text) (input : Text) :
    input <+: tab tree cwd commands input := by
  rcases shape_cases input with
    hblank | ⟨lead, start, hlead, hstart, rfl⟩ | ⟨front, argument, hargument, rfl⟩
  · rw [tab, complete_of_isBlank hblank]
    exact List.prefix_rfl
  · rcases tab_command tree cwd commands hlead hstart with ⟨name, hone, htab⟩ | htab
    · obtain ⟨more, rfl⟩ := of_decide_eq_true (of_filter_eq_singleton hone).2
      rw [htab]
      exact ⟨more ++ [' '], by simp⟩
    · rw [htab]
  · cases hword : argument.hasBlank with
    | true => rw [tab_of_hasBlank hargument hword]
    | false =>
      rcases strays_or_reaches hcwd argument with
        hstrays | ⟨parents, start, base, d, rfl, hreaches, hd⟩
      · rw [tab_of_strays hargument hword hstrays]
      · rw [← List.append_assoc] at hargument ⊢
        rcases tab_entry commands hargument hword hreaches hd with
          ⟨name, content, hone, htab⟩ | ⟨name, sub, hone, htab⟩ | htab
        · obtain ⟨more, rfl⟩ := (of_matching hone).2
          rw [htab]
          exact ⟨more, by simp⟩
        · obtain ⟨more, rfl⟩ := (of_matching hone).2
          rw [htab]
          exact ⟨more ++ ['/'], by simp⟩
        · rw [htab]

/-! ## Presses -/

theorem tab_of_file {content : Text} (commands : List Text)
    (hargument : HasArgument (front ++ name) argument)
    (hreaches : Reaches tree cwd argument base name) (hbase : tree.directory? base = some d)
    (hone : matching d name = [(name, .file content)]) :
    tab tree cwd commands (front ++ name) = front ++ name := by
  cases hword : argument.hasBlank with
  | true => exact tab_of_hasBlank hargument hword
  | false =>
    rcases tab_entry commands hargument hword hreaches hbase with
      ⟨name', content', hone', htab⟩ | ⟨name', sub, hone', -⟩ | htab
    · rw [hone] at hone'
      cases hone'
      exact htab
    · rw [hone] at hone'
      cases hone'
    · exact htab

theorem hasArgument_append {word : Text} (hfront : ∀ a, HasArgument (front ++ a) a.trimStart)
    (hword : word.IsWord) (more : Text) :
    HasArgument (front ++ (word ++ more)) (word ++ more) := by
  have htrim : Text.trimStart (word ++ more) = word ++ more :=
    Text.trimStart_word_append hword more
  have hargument := hfront (word ++ more)
  rwa [htrim] at hargument

/-- Below a directory every press but the last goes one directory down. -/
theorem settlesIn_of_reaches (commands : List Text) (htree : tree.Built) (hslash : tree.SlashFree)
    (hfront : ∀ a, HasArgument (front ++ a) a.trimStart) (hword : Text.IsWord (parents ++ start))
    (hreaches : Reaches tree cwd (parents ++ start) base start)
    (hbase : tree.directory? base = some d) :
    SettlesIn (tab tree cwd commands) d.height (front ++ parents ++ start) := by
  induction hheight : d.height using Nat.strong_induction_on generalizing parents start base d with
  | _ height ih =>
    -- The argument starts with no blank, and so does whatever it is completed to.
    have hargument (more : Text) :
        HasArgument (front ++ parents ++ (start ++ more)) (parents ++ (start ++ more)) := by
      simpa only [List.append_assoc] using hasArgument_append hfront hword more
    have hnow : HasArgument (front ++ parents ++ start) (parents ++ start) := by
      simpa using hargument []
    rcases tab_entry commands hnow hword.2 hreaches hbase with
      ⟨name, content, hone, htab⟩ | ⟨name, sub, hone, htab⟩ | htab
    · obtain ⟨hin, more, rfl⟩ := of_matching hone
      have hlower := Directory.height_lt_of_mem hin
      have hname : '/' ∉ start ++ more := (hslash.directory? hbase).not_mem hin
      refine SettlesIn.mono (.step ?_) (show 0 + 1 ≤ height by omega)
      rw [htab]
      exact .rest (tab_of_file commands (hargument more) (hreaches.restart hname) hbase
        (matching_of_matching hone))
    · obtain ⟨hin, more, rfl⟩ := of_matching hone
      have hname : '/' ∉ start ++ more := (hslash.directory? hbase).not_mem hin
      have hchild := childDir?_of_matching hone
      have hlower := Directory.height_lt_of_childDir? hchild
      have hnext : front ++ parents ++ (start ++ more) ++ ['/'] =
          front ++ (parents ++ (start ++ more) ++ ['/']) ++ [] := by simp
      rw [hheight] at hlower
      refine SettlesIn.mono (.step ?_) (show Directory.height sub + 1 ≤ height by omega)
      rw [htab]
      cases hblank : Text.hasBlank (parents ++ (start ++ more) ++ ['/']) with
      | true =>
        have hslashed := hargument (more ++ ['/'])
        refine .rest (tab_of_hasBlank ?_ hblank)
        simpa using hslashed
      | false =>
        have hsub : tree.directory? (base.push (start ++ more)) = some sub := by
          rw [Directory.directory?_push, hbase]
          exact hchild
        have hbelow := hreaches.enter htree hbase hchild hname
        rw [← List.append_nil (parents ++ (start ++ more) ++ ['/'])] at hblank hbelow
        rw [hnext]
        exact ih (Directory.height sub) hlower ⟨by simp, hblank⟩ hbelow hsub rfl
    · exact .rest htab

/-- With an argument that is not empty there are no more presses than the directory is high. -/
theorem settlesIn_of_hasArgument (commands : List Text) (htree : tree.Built)
    (hslash : tree.SlashFree) (hcwd : tree.directory? cwd = some d)
    (hargument : HasArgument input argument) (hne : argument ≠ []) :
    SettlesIn (tab tree cwd commands) d.height input := by
  obtain ⟨front, word, rfl, hfront⟩ := hargument.exists_front
  cases hword : argument.hasBlank with
  | true => exact .rest (tab_of_hasBlank hargument hword)
  | false =>
    have hsome : (tree.directory? cwd).isSome := Option.isSome_of_eq_some hcwd
    rcases strays_or_reaches hsome argument with
      hstrays | ⟨parents, start, base, e, rfl, hreaches, hbase⟩
    · exact .rest (tab_of_strays hargument hword hstrays)
    · have hsettles := settlesIn_of_reaches commands htree hslash (fun a => (hfront a).2)
        ⟨hne, hword⟩ hreaches hbase
      rw [List.append_assoc] at hsettles
      exact hsettles.mono (hreaches.height_le hcwd hbase)

/-- **With an empty argument** there is one press more, as a name may start with blanks; but it must
not be a file with nothing else in its name. -/
theorem settlesIn_of_hasArgument_nil (commands : List Text) (htree : tree.Built)
    (hslash : tree.SlashFree) (hcwd : tree.directory? cwd = some d)
    (hargument : HasArgument input []) (hblank : ¬ d.OnlyBlank) :
    SettlesIn (tab tree cwd commands) (d.height + 1) input := by
  obtain ⟨front, word, rfl, hfront⟩ := hargument.exists_front
  rcases tab_entry commands hargument rfl (.here List.not_mem_nil) hcwd with
    ⟨name, content, hone, htab⟩ | ⟨name, sub, hone, htab⟩ | htab
  · have hname : Text.trimStart name ≠ [] := by
      intro hnil
      have hlisting : d.listing false = [(name, .file content)] := (matching_nil d).symm.trans hone
      exact hblank ⟨name, content, hlisting, Text.trimStart_eq_nil_iff.1 hnil⟩
    refine .step ?_
    rw [htab]
    exact settlesIn_of_hasArgument commands htree hslash hcwd (hfront name).2 hname
  · have hname : Text.trimStart (name ++ ['/']) ≠ [] := by
      intro hnil
      have hblanks : isBlank '/' = true := Text.trimStart_eq_nil_iff.1 hnil '/' (by simp)
      exact absurd hblanks (by decide)
    refine .step ?_
    rw [htab, List.append_assoc]
    exact settlesIn_of_hasArgument commands htree hslash hcwd (hfront _).2 hname
  · exact .rest htab

/-! ## Presses without end -/

/-- Every press puts the same blank name in: the input is a word with blanks behind it, or becomes
that by the first press. -/
def Endless (d : Directory) (commands : List Text) (input : Text) : Prop :=
  d.OnlyBlank ∧ (HasArgument input [] ∨
    ∃ lead start name, input = lead ++ start ∧ lead.IsBlank ∧ start.IsWord ∧
      (commands.filter fun name => start <+: name) = [name])

theorem hasArgument_command (hlead : lead.IsBlank) (hname : name.IsWord) :
    HasArgument (lead ++ name ++ [' ']) [] := by
  rw [List.append_assoc]
  exact .intro hlead hname rfl

/-- **Otherwise the presses come to rest**, one for the command, one for blanks in front of a name,
and one for every directory below. -/
theorem settlesIn_of_not_endless (hcommands : ∀ name ∈ commands, Text.IsWord name)
    (htree : tree.Built) (hslash : tree.SlashFree) (hcwd : tree.directory? cwd = some d)
    (h : ¬ Endless d commands input) :
    SettlesIn (tab tree cwd commands) (d.height + 2) input := by
  rcases shape_cases input with
    hblank | ⟨lead, start, hlead, hstart, rfl⟩ | ⟨front, argument, hargument, -⟩
  · refine .rest ?_
    rw [tab, complete_of_isBlank hblank]
    rfl
  · rcases tab_command tree cwd commands hlead hstart with ⟨name, hone, htab⟩ | htab
    · have hname : Text.IsWord name := hcommands name (of_filter_eq_singleton hone).1
      have honly : ¬ d.OnlyBlank := by
        intro honly
        exact h ⟨honly, .inr ⟨lead, start, name, rfl, hlead, hstart, hone⟩⟩
      refine .step ?_
      rw [htab]
      exact settlesIn_of_hasArgument_nil commands htree hslash hcwd
        (hasArgument_command hlead hname) honly
    · exact .rest htab
  · by_cases hne : argument = []
    · subst hne
      have honly : ¬ d.OnlyBlank := fun honly => h ⟨honly, .inl hargument⟩
      exact (settlesIn_of_hasArgument_nil commands htree hslash hcwd hargument honly).mono
        (by omega)
    · exact (settlesIn_of_hasArgument commands htree hslash hcwd hargument hne).mono (by omega)

/-- Without end every press puts something in, and the next one does too. -/
theorem Endless.tab (hcommands : ∀ name ∈ commands, Text.IsWord name) (htree : tree.Built)
    (hcwd : tree.directory? cwd = some d) (h : Endless d commands input) :
    Endless d commands (tab tree cwd commands input) ∧ tab tree cwd commands input ≠ input := by
  obtain ⟨honly, hargument | ⟨lead, start, name, rfl, hlead, hstart, hone⟩⟩ := h
  · obtain ⟨name, content, hlisting, hblank⟩ := honly
    obtain ⟨front, word, rfl, hfront⟩ := hargument.exists_front
    have hone : matching d [] = [(name, .file content)] := (matching_nil d).trans hlisting
    have htab : Completion.tab tree cwd commands (front ++ []) = front ++ name := by
      have hoffers : Offers tree cwd commands _ _ :=
        .entry hargument rfl (.here List.not_mem_nil) hcwd
      rw [Completion.tab, complete_of_offers hoffers, hone]
      exact List.append_nil _
    have hname : name ≠ [] := by
      have hreserved := ((htree.directory? hcwd).of_mem (of_matching hone).1).1
      exact fun hnil => hreserved (.inl hnil)
    have hnext := (hfront name).2
    rw [Text.trimStart_eq_nil_iff.2 hblank] at hnext
    rw [htab]
    refine ⟨⟨⟨name, content, hlisting, hblank⟩, .inl hnext⟩, ?_⟩
    exact fun hsame => hname (List.append_cancel_left hsame)
  · have htab : Completion.tab tree cwd commands (lead ++ start) = lead ++ name ++ [' '] := by
      have hoffers : Offers tree cwd commands _ _ := .command hlead hstart
      rw [Completion.tab, complete_of_offers hoffers, hone]
      rfl
    obtain ⟨hin, hprefix⟩ := of_filter_eq_singleton hone
    have hlonger : start.length < (name ++ [' ']).length := by
      have hle := (of_decide_eq_true hprefix).length_le
      simp
      omega
    rw [htab]
    refine ⟨⟨honly, .inl (hasArgument_command hlead (hcommands name hin))⟩, ?_⟩
    intro hsame
    rw [List.append_assoc] at hsame
    rw [List.append_cancel_left hsame] at hlonger
    exact Nat.lt_irrefl _ hlonger

end Completion

namespace Shell

open Completion

variable {s : Shell} {d : Directory}

/-! ## The key -/

theorem isWord_names_builtin : ∀ name ∈ Registry.builtin.names, Text.IsWord name := by
  have hnames : ∀ name ∈ Registry.builtin.names, name ≠ [] ∧ name.hasBlank = false := by decide
  exact hnames

theorem complete_input (s : Shell) :
    s.complete.tree = s.tree ∧ s.complete.session.cwd = s.session.cwd ∧
      s.complete.session.input =
        tab s.tree s.session.cwd Registry.builtin.names s.session.input := by
  rw [Shell.complete, tab]
  cases Completion.complete s.session.input s.session.cwd s.tree Registry.builtin.names <;>
    exact ⟨rfl, rfl, rfl⟩

theorem input_iterate_complete (s : Shell) (k : Nat) :
    (complete^[k] s).session.input =
      (tab s.tree s.session.cwd Registry.builtin.names)^[k] s.session.input := by
  induction k generalizing s with
  | zero => rfl
  | succ k ih =>
    obtain ⟨htree, hcwd, hinput⟩ := s.complete_input
    rw [Function.iterate_succ_apply, Function.iterate_succ_apply, ih, htree, hcwd, hinput]

theorem input_complete_ne (htree : s.tree.Built)
    (hd : s.tree.directory? s.session.cwd = some d)
    (h : Endless d Registry.builtin.names s.session.input) (k : Nat) :
    (complete^[k + 1] s).session.input ≠ (complete^[k] s).session.input := by
  have hkept : ∀ k, Endless d Registry.builtin.names (complete^[k] s).session.input := by
    intro k
    rw [input_iterate_complete]
    induction k with
    | zero => exact h
    | succ k ih =>
      rw [Function.iterate_succ_apply']
      exact (ih.tab isWord_names_builtin htree hd).1
  have hstep := hkept k
  rw [input_iterate_complete] at hstep ⊢
  rw [input_iterate_complete, Function.iterate_succ_apply']
  exact (hstep.tab isWord_names_builtin htree hd).2

/-- **The tab key again and again.** In a built tree without slashes in names every press extends
the input. After two presses more than the tree is high the input stays as it is; but if the only
entry of the working directory that is not hidden is a file with a blank name, and the input is a
word with blanks behind it or the start of one command only, then every press changes it. -/
theorem iterate_complete (s : Shell) (d : Directory) (htree : s.tree.Built)
    (hslash : s.tree.SlashFree) (hd : s.tree.directory? s.session.cwd = some d) :
    (∀ k, (complete^[k] s).session.input <+: (complete^[k + 1] s).session.input) ∧
      (¬ Endless d Registry.builtin.names s.session.input → ∀ k, s.tree.height + 2 ≤ k →
        (complete^[k] s).session.input = (complete^[s.tree.height + 2] s).session.input) ∧
      (Endless d Registry.builtin.names s.session.input → ∀ k,
        (complete^[k + 1] s).session.input ≠ (complete^[k] s).session.input) := by
  refine ⟨?_, ?_, fun h => input_complete_ne htree hd h⟩
  · intro k
    rw [input_iterate_complete, input_iterate_complete, Function.iterate_succ_apply']
    exact prefix_tab (Option.isSome_of_eq_some hd) _ _
  · intro h k hk
    have hsettles := settlesIn_of_not_endless isWord_names_builtin htree hslash hd h
    have hlower := Directory.height_le_of_directory? hd
    rw [input_iterate_complete, input_iterate_complete]
    exact (hsettles.mono (by omega)).iterate_eq hk

/-- The name of a command, a directory and a file, one after the other. -/
theorem iterate_complete_below :
    let tree : Directory := [("a", .directory [("b", .file [])])]
    let s := (Shell.start tree {} .disabled).run [.setInput "l"]
    s.tree.Built ∧ s.tree.SlashFree ∧ s.tree.directory? s.session.cwd = some tree ∧
      s.tree.height = 2 ∧ ¬ Endless tree Registry.builtin.names s.session.input ∧
      ∀ k, 4 ≤ k → (complete^[k] s).session.input = "ls a/b".toList := by
  intro tree s
  have hfile : Directory.insert [] "b" (.file []) = .ok [("b", .file [])] := rfl
  have hdirectory : Directory.insert [] "a" (.directory [("b", .file [])]) = .ok tree := rfl
  have htree : tree.Built :=
    Directory.Built.empty.insert_directory (Directory.Built.empty.insert_file hfile) hdirectory
  have hslash : tree.SlashFree := by
    refine .intro (by decide) ?_
    intro name sub hmem
    cases List.mem_singleton.1 hmem
    refine .intro (by decide) ?_
    intro name' sub' hmem'
    cases List.mem_singleton.1 hmem'
  have hrests : ¬ Endless tree Registry.builtin.names s.session.input := by
    rintro ⟨⟨name, content, hlisting, -⟩, -⟩
    cases hlisting
  have hfour : (complete^[4] s).session.input = "ls a/b".toList := by decide +kernel
  refine ⟨htree, hslash, rfl, rfl, hrests, ?_⟩
  intro k hk
  have hheight : s.tree.height + 2 = 4 := rfl
  have hsettled := (iterate_complete s tree htree hslash rfl).2.1 hrests k (hheight ▸ hk)
  rw [hheight, hfour] at hsettled
  exact hsettled

/-- A blank name goes into the input with every press. -/
theorem complete_blank_ne :
    let tree : Directory := [(" ", .file "x")]
    let s := (Shell.start tree {} .disabled).run [.setInput "ls "]
    s.tree.Built ∧ s.tree.SlashFree ∧ s.tree.directory? s.session.cwd = some tree ∧
      s.tree.height = 1 ∧
      (complete^[3] s).session.input = "ls    ".toList ∧
      (complete^[4] s).session.input = "ls     ".toList ∧
      ∀ k, (complete^[k + 1] s).session.input ≠ (complete^[k] s).session.input := by
  intro tree s
  have hfile : Directory.insert [] " " (.file "x") = .ok tree := rfl
  have htree : tree.Built := Directory.Built.empty.insert_file hfile
  have hslash : tree.SlashFree := by
    refine .intro (by decide) ?_
    intro name sub hmem
    cases List.mem_singleton.1 hmem
  have hblank : Text.IsBlank [' '] := List.forall_mem_singleton.2 (by decide)
  have hargument : HasArgument s.session.input [] :=
    .intro (List.forall_mem_nil _) ⟨List.cons_ne_nil 'l' ['s'], by decide⟩ (by decide)
  have hendless : Endless tree Registry.builtin.names s.session.input :=
    ⟨⟨" ", "x", rfl, hblank⟩, .inl hargument⟩
  refine ⟨htree, hslash, rfl, rfl, ?_, ?_, input_complete_ne htree rfl hendless⟩
  · decide +kernel
  · decide +kernel

end Shell

end Showcase
