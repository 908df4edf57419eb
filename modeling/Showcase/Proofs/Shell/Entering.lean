import Showcase.Proofs.Command.Completion
import Showcase.Proofs.Shell.Scrollback
import Showcase.Proofs.Shell.WorkingDirectory
import Showcase.Proofs.Text.Spacing
import Showcase.Proofs.Tree.Built

/-!
# Entering a completed directory

When the tab key has found the one directory that was meant, the enter key should go there. In
between stands the text of the input: it is cut into words, the words are put together again with
one space between neighbours, and what comes out is cut at its slashes.

**The argument** (`Reaches.resolve_respaced_iff`). The part up to the last slash was typed without
blanks, so it comes through; and in a built tree no name means anything else. Hence a name without
a slash is reached exactly if the respacing leaves the completed argument as it is.

**The keys.** The completed input is a `cd` with that argument (`Completes.complete`), and to enter
a `cd` is to go where its argument resolves to, with the prompt line alone, or to stay with an error
(`submit_cd`).

Main result: `run_complete_submit`. Names with several blanks in a row or with a slash are completed
all the same, and then not entered (`complete_submit_stays`).
-/

namespace Showcase

/-! ## Arguments -/

theorem Path.eq_of_step?_eq_push {tree : Directory} {p : Path} {segment name : Text}
    (h : step? tree p segment = some (p.push name)) : segment = name := by
  rcases step?_cases h with hstay | ⟨-, hup⟩ | ⟨hpush, -⟩
  · have hlength := congrArg (List.length ∘ segments) hstay
    simp at hlength
  · have hlength := congrArg (List.length ∘ segments) hup
    simp only [Function.comp_apply, segments_parent, segments_push, List.length_dropLast,
      List.length_append, List.length_singleton] at hlength
    omega
  · simpa [push] using hpush.symm

namespace Completion

variable {tree d sub : Directory} {cwd base : Path} {input argument parents start name n : Text}

theorem Reaches.cases_parents (h : Reaches tree cwd (parents ++ start) base start) :
    parents = [] ∧ base = cwd ∨
      ∃ above, parents = above ++ ['/'] ∧ "..".toList ∉ above.splitOn '/' ∧
        Path.resolve tree cwd (above ++ ['/']) = .ok base := by
  generalize hargument : parents ++ start = argument at h
  cases h with
  | here hstart => exact .inl ⟨List.append_left_eq_self.1 hargument, rfl⟩
  | @below above _ _ hstart hclimb hbase =>
    rw [List.append_cons] at hargument
    exact .inr ⟨above, List.append_cancel_right hargument, hclimb, hbase⟩

theorem resolve_slash_eq_ok_iff {p : Path} :
    Path.resolve tree cwd (parents ++ ['/']) = .ok p ↔
      (parents.splitOn '/').foldlM (Path.step? tree) cwd = some p := by
  rw [resolve_slash]
  cases (parents.splitOn '/').foldlM (Path.step? tree) cwd with
  | none => simp
  | some q => simp

theorem Reaches.resolve_append_iff (h : Reaches tree cwd (parents ++ start) base start)
    (hn : '/' ∉ n) {p : Path} :
    Path.resolve tree cwd (parents ++ (n ++ ['/'])) = .ok p ↔ Path.step? tree base n = some p := by
  have hsplit : n.splitOn '/' = [n] := List.splitOn_eq_singleton hn
  have hone (p : Path) : [n].foldlM (Path.step? tree) p = Path.step? tree p n := by
    rw [List.foldlM_cons]
    cases Path.step? tree p n <;> rfl
  rcases h.cases_parents with ⟨rfl, rfl⟩ | ⟨above, rfl, -, hbase⟩
  · rw [List.nil_append, resolve_slash_eq_ok_iff, hsplit, hone]
  · have hsegments : (above ++ '/' :: n).splitOn '/' = above.splitOn '/' ++ [n] := by
      rw [List.splitOn_append_cons_self, hsplit]
    have happend : above ++ ['/'] ++ (n ++ ['/']) = above ++ '/' :: n ++ ['/'] := by simp
    rw [happend, resolve_slash_eq_ok_iff, hsegments, List.foldlM_append,
      resolve_slash_eq_ok_iff.1 hbase, Option.bind_eq_bind, Option.bind_some, hone]

/-- **A directory is reached by its completed argument** exactly if the argument is left as it
is. -/
theorem Reaches.resolve_respaced_iff (h : Reaches tree cwd (parents ++ start) base start)
    (htree : tree.Built) (hbase : tree.directory? base = some d)
    (hchild : d.childDir? name = some sub) (hparents : parents.hasBlank = false)
    (hname : '/' ∉ name) :
    Path.resolve tree cwd (Text.respaced (parents ++ (name ++ ['/']))) = .ok (base.push name) ↔
      Text.respaced (parents ++ (name ++ ['/'])) = parents ++ (name ++ ['/']) := by
  constructor
  · intro hresolve
    -- Whatever it becomes, there is one segment behind the parents, and it leads to the name.
    obtain ⟨n, hn, hrespaced⟩ := Text.respaced_append_slash hparents hname
    rw [hrespaced, h.resolve_append_iff hn] at hresolve
    rw [hrespaced, Path.eq_of_step?_eq_push hresolve]
  · intro hrespaced
    rw [hrespaced, h.resolve_append_iff hname]
    exact htree.step?_eq_some hbase hchild

theorem childDir?_of_matching (h : matching d start = [(name, .directory sub)]) :
    d.childDir? name = some sub := by
  obtain ⟨hin, hfits⟩ := of_filter_eq_singleton h
  have hsome : (d.get? name).isSome :=
    Directory.get?_isSome_iff.2 (List.mem_map_of_mem (f := Prod.fst) hin)
  obtain ⟨entry, hget⟩ := Option.isSome_iff_exists.1 hsome
  -- The first entry of that name matches too, so it is that one.
  have hother : (name, entry) ∈ matching d start :=
    List.mem_filter.2 ⟨Directory.mem_of_get? hget, hfits⟩
  rw [h] at hother
  cases List.mem_singleton.1 hother
  rw [Directory.childDir?, hget]
  rfl

/-- What stands before the argument is a word of its own, whatever the argument is. -/
theorem HasArgument.exists_front (h : HasArgument input argument) :
    ∃ front word, input = front ++ argument ∧ ∀ a,
      Text.words (front ++ a) = word :: a.words ∧ HasArgument (front ++ a) a.trimStart := by
  cases h with
  | @intro lead word rest blank hlead hword hblank =>
    obtain ⟨gap, hgap, hrest⟩ := Text.exists_eq_trimStart (blank :: rest)
    obtain ⟨b, gap, rfl⟩ : ∃ b gap', gap = b :: gap' := by
      cases gap with
      | nil =>
        rw [Text.isBlank_of_trimStart_eq_cons hrest.symm] at hblank
        cases hblank
      | cons b gap => exact ⟨b, gap, rfl⟩
    have hb : isBlank b = true := hgap b List.mem_cons_self
    refine ⟨lead ++ (word ++ b :: gap), word, ?_, ?_⟩
    · conv_lhs => rw [hrest]
      simp
    · intro a
      have happend : lead ++ (word ++ b :: gap) ++ a = lead ++ (word ++ b :: (gap ++ a)) := by simp
      rw [happend]
      constructor
      · rw [Text.words_append_left hlead, Text.words_append_cons hb,
          Text.words_eq_singleton hword.1 hword.2,
          Text.words_append_left fun c hc => hgap c (List.mem_cons_of_mem b hc)]
        rfl
      · have htrim : Text.trimStart (b :: (gap ++ a)) = a.trimStart := Text.trimStart_append hgap a
        rw [← htrim]
        exact .intro hlead hword hb

end Completion

namespace Shell

open Completion

variable {s : Shell} {parents start name : Text} {base : Path}

/-! ## Keys -/

/-- The input is a `cd`, its argument has come as far as `base`, and of the entries there only the
directory `name` may be meant. -/
structure Completes (s : Shell) (parents start : Text) (base : Path) (name : Text) : Prop where
  command : s.session.input.words.head? = some Command.cd.name
  argument : HasArgument s.session.input (parents ++ start)
  word : (parents ++ start).hasBlank = false
  reaches : Reaches s.tree s.session.cwd (parents ++ start) base start
  only : ∃ d sub, s.tree.directory? base = some d ∧
    matching d start = [(name, .directory sub)]

/-- The tab key puts the name into the input, with a slash behind it. -/
theorem Completes.complete (h : s.Completes parents start base name) :
    ∃ front, s.session.input = front ++ (parents ++ start) ∧
      s.complete =
        { s with session := s.session.setInput (front ++ (parents ++ (name ++ ['/']))) } ∧
      Text.words (front ++ (parents ++ (name ++ ['/']))) =
        Command.cd.name :: Text.words (parents ++ (name ++ ['/'])) := by
  obtain ⟨front, word, hinput, hfront⟩ := h.argument.exists_front
  have hwords (a : Text) : Text.words (front ++ a) = word :: a.words := (hfront a).1
  have hword : word = Command.cd.name := by
    have hhead := h.command
    rw [hinput, hwords, List.head?_cons] at hhead
    exact Option.some.inj hhead
  obtain ⟨d, sub, hbase, honly⟩ := h.only
  have hargument := h.argument
  rw [hinput, ← List.append_assoc] at hargument
  have hoffers : Offers s.tree s.session.cwd Registry.builtin.names _ _ :=
    .entry hargument h.word h.reaches hbase
  rw [honly, List.append_assoc, ← hinput] at hoffers
  refine ⟨front, hinput, ?_, by rw [hwords, hword]⟩
  rw [Shell.complete, complete_of_offers hoffers]
  simp [choose, Entry.isDirectory]

theorem answer_cd {line : Text} {args : List Text} (h : line.words = Command.cd.name :: args) :
    s.answer line =
      match Path.resolve s.tree s.session.cwd (Text.join [' '] args) with
      | .ok p => ⟨.ok .nothing, p⟩
      | .error e => ⟨.error e, s.session.cwd⟩ := by
  have hmem : Command.cd ∈ Registry.builtin.commands := by simp [Registry.commands_builtin]
  have hhead : line.words.head? = some Command.cd.name := by rw [h, List.head?_cons]
  obtain ⟨i, hargs, hanswer⟩ := Registry.execute_of_head? hmem (by decide) hhead s.environment
  rw [h, List.tail_cons] at hargs
  rw [answer, hanswer]
  simp only [Command.cd, Invocation.argString, hargs]
  rfl

/-- **The enter key** on a `cd` goes where its argument resolves to and shows no more than the
prompt line, or stays and shows an error below it. -/
theorem submit_cd {args : List Text} (hs : s.InDirectory)
    (h : s.session.input.words = Command.cd.name :: args) :
    (∃ p, Path.resolve s.tree s.session.cwd (Text.join [' '] args) = .ok p ∧
        s.submit.session.cwd = p ∧
        s.submit.session.scrollback =
          s.session.scrollback ++ [s.promptLine s.session.input.trim]) ∨
      ∃ e, Path.resolve s.tree s.session.cwd (Text.join [' '] args) = .error e ∧
        s.submit.session.cwd = s.session.cwd ∧
        s.submit.session.scrollback = s.session.scrollback ++
          [s.promptLine s.session.input.trim, .plain e.message s.theme.error] := by
  have hline : s.session.input.trim ≠ [] :=
    Text.trim_ne_nil_of_head? (congrArg List.head? h)
  obtain ⟨session, hcwd, -, hsubmit⟩ := s.submit_eq
  have hanswer : (answer { s with session } s.session.input) = s.answer s.session.input := by
    rw [answer, environment, answer, environment, hcwd]
  have hinside : InDirectory { s with session } := by
    rw [InDirectory, hcwd]
    exact hs
  have hmoves : s.submit.session.cwd = (s.answer s.session.input).cwd := by
    rw [hsubmit, cwd_execute hinside, hanswer]
  have hshows : s.submit.session.scrollback =
      (s.presentation s.session.input (s.answer s.session.input).result).on
        s.session.scrollback := by
    have hchange := scrollback_apply s .submit
    simp only [change, lineOf?, if_neg hline] at hchange
    exact hchange
  rw [answer_cd h] at hmoves hshows
  cases hresolve : Path.resolve s.tree s.session.cwd (Text.join [' '] args) with
  | ok p =>
    rw [hresolve] at hmoves hshows
    exact .inl ⟨p, rfl, hmoves, hshows⟩
  | error e =>
    rw [hresolve] at hmoves hshows
    exact .inr ⟨e, rfl, hmoves, hshows⟩

/-- What tab and then enter do when the directory `name` of `base` is meant. -/
structure Finishes (s : Shell) (parents start : Text) (base : Path) (name : Text) : Prop where
  completed : ∃ front, s.session.input = front ++ (parents ++ start) ∧
    s.complete =
      { s with session := s.session.setInput (front ++ (parents ++ (name ++ ['/']))) }
  /-- It is entered, and only the prompt line is shown, exactly if the completed argument is left
  as it is by the respacing. -/
  entered :
    s.complete.submit.session.cwd = base.push name ∧
        s.complete.submit.session.scrollback =
          s.session.scrollback ++ [s.promptLine s.complete.session.input.trim] ↔
      Text.respaced (parents ++ (name ++ ['/'])) = parents ++ (name ++ ['/'])
  /-- Names without blanks are always entered. -/
  word : name.hasBlank = false →
    Text.respaced (parents ++ (name ++ ['/'])) = parents ++ (name ++ ['/'])

/-- In a built tree tab and enter finish the way to a name without a slash. -/
theorem Completes.finishes (h : s.Completes parents start base name) (hs : s.InDirectory)
    (htree : s.tree.Built) (hslash : '/' ∉ name) : s.Finishes parents start base name := by
  obtain ⟨front, hinput, hcomplete, hwords⟩ := h.complete
  obtain ⟨d, sub, hbase, honly⟩ := h.only
  have hparents : parents.hasBlank = false := by
    have hword := h.word
    rw [Text.hasBlank_append, Bool.or_eq_false_iff] at hword
    exact hword.1
  refine ⟨⟨front, hinput, hcomplete⟩, ?_, ?_⟩
  · rw [← h.reaches.resolve_respaced_iff htree hbase (childDir?_of_matching honly) hparents hslash,
      hcomplete]
    have hsubmit := submit_cd
      (s := { s with session := s.session.setInput (front ++ (parents ++ (name ++ ['/']))) })
      hs hwords
    rcases hsubmit with ⟨p, hresolve, hcwd, hshown⟩ | ⟨e, hresolve, -, hshown⟩
    · rw [hcwd, hshown]
      constructor
      · rintro ⟨rfl, -⟩
        exact hresolve
      · intro hok
        exact ⟨Except.ok.inj (hresolve.symm.trans hok), rfl⟩
    · constructor
      · rintro ⟨-, hlines⟩
        -- The line of the error is one too many.
        have hlength := congrArg List.length (hshown.symm.trans hlines)
        simp [Session.setInput] at hlength
      · intro hok
        cases hresolve.symm.trans hok
  · intro hname
    refine Text.respaced_of_isWord ⟨by simp, ?_⟩
    rw [Text.hasBlank_append, Text.hasBlank_append, hparents, hname]
    decide

/-- **Tab, then enter.** In a tree that was built or read from TOML the tab key completes a `cd`
with the name of the only directory that fits, and for a name without a slash the enter key goes
there exactly if the name comes through the respacing. -/
theorem run_complete_submit {tree : Directory}
    (htree : tree.Built ∨ ∃ text, Directory.ofToml text = .ok tree) (config : Config)
    (notifier : Notifier) (ops : List Operation) {parents start name : Text} {base : Path}
    (h : ((Shell.start tree config notifier).run ops).Completes parents start base name)
    (hslash : '/' ∉ name) :
    ((Shell.start tree config notifier).run ops).Finishes parents start base name := by
  have hsame : ((Shell.start tree config notifier).run ops).tree = tree :=
    congrArg Setting.tree (setting_run ..)
  have hbuilt : tree.Built := by
    rcases htree with hbuilt | ⟨text, htext⟩
    · exact hbuilt
    · exact Directory.built_of_ofToml htext
  rw [← hsame] at hbuilt
  exact h.finishes ((inDirectory_start tree config notifier).run ops) hbuilt hslash

/-- One space in a name does no harm, nor does a segment that stays. -/
theorem run_complete_submit_spaced :
    let tree : Directory := [("a b", .directory [])]
    let s := (Shell.start tree {} .disabled).run [.setInput " cd ./a"]
    Directory.ofToml "[\"a b\"]" = .ok tree ∧ s.Completes "./" "a" .root "a b" ∧
      '/' ∉ "a b".toList ∧ s.complete.submit.session.cwd = Path.root.push "a b" := by
  intro tree s
  have hrun : (Shell.start tree {} .disabled).run [.setInput " cd ./a"] = s := rfl
  have hparse : Toml.parse? "[\"a b\"]" = some [("a b".toList, .table [])] := by cbv
  have htoml : Directory.ofToml "[\"a b\"]" = .ok tree := by
    rw [Directory.ofToml, hparse]
    rfl
  have hlead : Text.IsBlank [' '] := by
    intro c hc
    rw [List.mem_singleton.1 hc]
    decide
  have hreaches : Reaches tree .root ("." ++ '/' :: "a") .root "a" :=
    .below (by decide) (by decide) rfl
  have hcompletes : s.Completes "./" "a" .root "a b" :=
    { command := by decide
      argument := .intro hlead ⟨List.cons_ne_nil 'c' ['d'], by decide⟩ (by decide)
      word := by decide
      reaches := hreaches
      only := ⟨tree, [], rfl, rfl⟩ }
  have hslash : '/' ∉ "a b".toList := by decide
  have hspaced : Text.respaced ("./".toList ++ ("a b".toList ++ ['/'])) =
      "./".toList ++ ("a b".toList ++ ['/']) := by decide
  have hfinishes :=
    run_complete_submit (.inr ⟨_, htoml⟩) {} .disabled [.setInput " cd ./a"] hcompletes hslash
  have hentered := (hfinishes.entered.2 hspaced).1
  rw [hrun] at hentered
  exact ⟨htoml, hcompletes, hslash, hentered⟩

/-- Tab, then enter, shows an error at a name with two blanks in a row and at one with a slash. -/
theorem complete_submit_stays :
    let tree : Directory := [("a  b", .directory []), ("x/y", .directory [])]
    let s (input : Text) := (Shell.start tree {} .disabled).run [.setInput input]
    Directory.ofToml "[\"a  b\"]\n[\"x/y\"]" = .ok tree ∧
      (s "cd a").Completes [] "a" .root "a  b" ∧
      (s "cd a").complete.submit.session.cwd = .root ∧
      (s "cd a").complete.submit.session.scrollback =
        [(s "cd a").promptLine "cd a  b/",
          .plain "cd: no such directory: a b/" (s "cd a").theme.error] ∧
      (s "cd x").Completes [] "x" .root "x/y" ∧
      (s "cd x").complete.submit.session.cwd = .root ∧
      (s "cd x").complete.submit.session.scrollback =
        [(s "cd x").promptLine "cd x/y/",
          .plain "cd: no such directory: x/y/" (s "cd x").theme.error] := by
  intro tree s
  have hparse : Toml.parse? "[\"a  b\"]\n[\"x/y\"]" =
      some [("a  b".toList, .table []), ("x/y".toList, .table [])] := by cbv
  have htoml : Directory.ofToml "[\"a  b\"]\n[\"x/y\"]" = .ok tree := by
    rw [Directory.ofToml, hparse]
    rfl
  have hcd : Text.IsWord "cd" := ⟨List.cons_ne_nil 'c' ['d'], by decide⟩
  have htwo : (s "cd a").Completes [] "a" .root "a  b" :=
    { command := by decide
      argument := .intro (List.forall_mem_nil _) hcd (by decide)
      word := by decide
      reaches := .here (by decide)
      only := ⟨tree, [], rfl, rfl⟩ }
  have hslash : (s "cd x").Completes [] "x" .root "x/y" :=
    { command := by decide
      argument := .intro (List.forall_mem_nil _) hcd (by decide)
      word := by decide
      reaches := .here (by decide)
      only := ⟨tree, [], rfl, rfl⟩ }
  refine ⟨htoml, htwo, ?_, ?_, hslash, ?_, ?_⟩ <;> decide +kernel

end Shell

end Showcase
