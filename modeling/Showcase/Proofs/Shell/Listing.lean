import Showcase.Proofs.Command.Completion
import Showcase.Proofs.Shell.Scrollback

/-!
# Listings

A directory is listed in two places: `ls` lists the working directory, and the tab key lists the
entries among which it cannot choose. A listing (`Line.IsListing`) has the names in the order of the
directory, each in the color of its kind, and two spaces between neighbours.

**Which entries** (`Directory.shownTo`). Hidden ones are left out unless `ls` is asked for all. While
no name is started every entry that is not hidden may be meant, so the tab key then lists what a
plain `ls` does.

Main result: `execute_ls_and_complete`.
-/

namespace Showcase

/-! ## The line -/

/-- A line with the names of the entries in order, each in the color of its kind, and two spaces
between neighbours. -/
structure Line.IsListing (theme : Theme) (shown : List (Text × Entry)) (line : Line) : Prop where
  length : line.spans.length = 2 * shown.length - 1
  file : ∀ i name content, shown[i]? = some (name, .file content) →
    line.spans[2 * i]? = some { text := name, color := theme.output, bold := false }
  directory : ∀ i name d, shown[i]? = some (name, .directory d) →
    line.spans[2 * i]? = some { text := name, color := theme.directory, bold := false }
  gap : ∀ i, i + 1 < shown.length →
    line.spans[2 * i + 1]? = some { text := "  ", color := theme.output, bold := false }

theorem isListing_listingLine (theme : Theme) (shown : List (Text × Entry)) :
    (listingLine theme (labels shown)).IsListing theme shown where
  length := by simp [listingLine, labels]
  file i name content h := by simp [listingLine, labels, h, Entry.isDirectory]
  directory i name d h := by simp [listingLine, labels, h, Entry.isDirectory]
  gap i h := by
    rw [listingLine, List.getElem?_intersperse_two_mul_add_one]
    simpa [labels] using h

/-! ## The entries -/

/-- The entries that `ls` shows when it is given such words. -/
def Directory.shownTo (d : Directory) (args : List Text) : List (Text × Entry) :=
  if "-a".toList ∈ args ∨ "--all".toList ∈ args then d
  else d.filter fun entry => ¬ ".".toList <+: entry.1

theorem Command.asksForAll_iff (args : List Text) :
    asksForAll args = true ↔ "-a".toList ∈ args ∨ "--all".toList ∈ args := by
  simp only [asksForAll, List.any_eq_true, decide_eq_true_eq]
  constructor
  · rintro ⟨a, ha, rfl | rfl⟩
    · exact .inl ha
    · exact .inr ha
  · rintro (ha | ha)
    · exact ⟨_, ha, .inl rfl⟩
    · exact ⟨_, ha, .inr rfl⟩

theorem Directory.listing_asksForAll (d : Directory) (args : List Text) :
    d.listing (Command.asksForAll args) = d.shownTo args := by
  rw [shownTo]
  split_ifs with hall
  · rw [(Command.asksForAll_iff args).2 hall, listing_true]
  · rw [Bool.eq_false_iff.2 (mt (Command.asksForAll_iff args).1 hall), listing_false, listing_true]

theorem Directory.shownTo_of_not_mem {args : List Text} (d : Directory)
    (hshort : "-a".toList ∉ args) (hlong : "--all".toList ∉ args) :
    d.shownTo args = d.shownTo [] := by
  rw [shownTo, if_neg (not_or.2 ⟨hshort, hlong⟩), shownTo, if_neg (by simp)]

/-- `ls` lists the working directory, and says nothing when there is no entry to show. -/
theorem Registry.execute_ls {env : Environment} {d : Directory} {line : Text}
    (hd : env.tree.directory? env.cwd = some d)
    (hhead : line.words.head? = some Command.ls.name) :
    builtin.execute line env =
      if d.shownTo line.words.tail = [] then ⟨.ok .nothing, env.cwd⟩
      else ⟨.ok (.lines [listingLine env.theme (labels (d.shownTo line.words.tail))]), env.cwd⟩ := by
  have hmem : Command.ls ∈ builtin.commands := by simp [commands_builtin]
  obtain ⟨i, hargs, hanswer⟩ := execute_of_head? hmem (by decide) hhead env
  rw [hanswer, ← hargs, ← Directory.listing_asksForAll]
  simp [Command.ls, hd, labels]

namespace Shell

open Completion

variable {s : Shell} {d : Directory} {line : Text}

/-! ## The keys -/

theorem scrollback_execute_ls (hd : s.tree.directory? s.session.cwd = some d)
    (hhead : line.words.head? = some Command.ls.name) (hne : d.shownTo line.words.tail ≠ []) :
    (s.execute line).session.scrollback = s.session.scrollback ++
      [s.promptLine line.trim, listingLine s.theme (labels (d.shownTo line.words.tail))] := by
  have hline : line.trim ≠ [] := Text.trim_ne_nil_of_head? hhead
  have hanswer : s.answer line = _ := @Registry.execute_ls s.environment d line hd hhead
  rw [if_neg hne] at hanswer
  have hchange : s.change (.execute line) = s.presentation line (s.answer line).result :=
    if_neg hline
  rw [scrollback_execute, hchange, hanswer]
  rfl

/-- The tab key after a command and a blank lists what is not hidden, if that is a choice. -/
theorem scrollback_complete_of_blank (hd : s.tree.directory? s.session.cwd = some d)
    (hargument : HasArgument s.session.input []) (hchoice : 2 ≤ (d.shownTo []).length) :
    s.complete.session.scrollback =
      s.session.scrollback ++ [listingLine s.theme (labels (d.shownTo []))] := by
  have hmatching : matching d [] = d.shownTo [] :=
    (matching_nil d).trans (d.listing_asksForAll [])
  have hinput : HasArgument (s.session.input ++ []) [] := by rwa [List.append_nil]
  have hoffers : Offers s.tree s.session.cwd Registry.builtin.names _ _ :=
    .entry hinput rfl (.here List.not_mem_nil) hd
  rw [hmatching, choose_of_two_le hchoice, List.append_nil] at hoffers
  have hoffered : s.completion = _ := complete_of_offers hoffers
  rw [scrollback_complete, offered, hoffered]
  simp [labels, Function.comp_def]

/-- **A directory is listed alike** by `ls` and by the tab key. A line whose first word is `ls` shows
the entries in their order, without the hidden ones unless a word after it asks for all, and shows
nothing when there are none. When the input is one word with blanks behind it and there is a choice
between entries that are not hidden, the tab key adds the very line that a plain `ls` adds below its
prompt line. -/
theorem execute_ls_and_complete (s : Shell) (d : Directory)
    (hd : s.tree.directory? s.session.cwd = some d) :
    (∀ line, line.words.head? = some "ls".toList →
      let shown := d.shownTo line.words.tail
      let o := Registry.builtin.execute line s.environment
      o.cwd = s.session.cwd ∧ (shown = [] → o.result = .ok .nothing) ∧
        (shown ≠ [] → ∃ l, o.result = .ok (.lines [l]) ∧ l.IsListing s.theme shown)) ∧
      ∀ lead word gap, s.session.input = lead ++ (word ++ gap) → lead.IsBlank → word.IsWord →
        gap.IsBlank → gap ≠ [] → 2 ≤ (d.shownTo []).length →
        ∃ l, s.complete.session.scrollback = s.session.scrollback ++ [l] ∧
          l.IsListing s.theme (d.shownTo []) ∧
          ∀ line, line.words.head? = some "ls".toList →
            "-a".toList ∉ line.words.tail → "--all".toList ∉ line.words.tail →
            (s.execute line).session.scrollback =
              s.session.scrollback ++ [s.promptLine line.trim, l] := by
  constructor
  · intro line hhead shown o
    have ho : o = _ := @Registry.execute_ls s.environment d line hd hhead
    rw [ho]
    by_cases hshown : shown = []
    · rw [if_pos hshown]
      exact ⟨rfl, fun _ => rfl, fun hne => absurd hshown hne⟩
    · rw [if_neg hshown]
      exact ⟨rfl, fun hnil => absurd hnil hshown, fun _ => ⟨_, rfl, isListing_listingLine ..⟩⟩
  · intro lead word gap hinput hlead hword hgap hne hchoice
    obtain ⟨b, gap, rfl⟩ := List.exists_cons_of_ne_nil hne
    have hargument : HasArgument s.session.input [] := by
      rw [hinput, ← Text.trimStart_eq_nil_iff.2 hgap]
      exact .intro hlead hword (hgap b List.mem_cons_self)
    refine ⟨_, scrollback_complete_of_blank hd hargument hchoice, isListing_listingLine .., ?_⟩
    intro line hhead hshort hlong
    have hplain := d.shownTo_of_not_mem hshort hlong
    have hshown : d.shownTo line.words.tail ≠ [] := by
      intro hnil
      rw [← hplain, hnil] at hchoice
      cases hchoice
    rw [scrollback_execute_ls hd hhead hshown, hplain]

/-- The tab key lists a directory in blue and a file in white, with white blanks between them, and
leaves out what is hidden, as `ls` does. -/
theorem execute_ls_and_complete_hidden :
    let tree : Directory := [(".a", .file []), ("b", .directory []), ("c", .file [])]
    let s := (Shell.start tree {} .disabled).run [.setInput "\tcat "]
    s.tree.directory? s.session.cwd = some tree ∧
      ∃ l, s.complete.session.scrollback = [l] ∧
        l.spans = [⟨"b", .pathBlue, false⟩, ⟨"  ", .white, false⟩, ⟨"c", .white, false⟩] ∧
        (s.execute " ls b").session.scrollback = [s.promptLine "ls b", l] := by
  intro tree s
  have hd : s.tree.directory? s.session.cwd = some tree := rfl
  have hblank {c : Char} (hc : isBlank c = true) : Text.IsBlank [c] :=
    List.forall_mem_singleton.2 hc
  obtain ⟨l, hcomplete, -, hls⟩ := (execute_ls_and_complete s tree hd).2 "\t" "cat" " " rfl
    (hblank (by decide)) ⟨List.cons_ne_nil 'c' ['a', 't'], by decide⟩ (hblank (by decide))
    (List.cons_ne_nil ' ' []) (by decide)
  have hspans : s.complete.session.scrollback.map Line.spans =
      [[⟨"b", .pathBlue, false⟩, ⟨"  ", .white, false⟩, ⟨"c", .white, false⟩]] := by
    decide +kernel
  rw [hcomplete] at hspans
  exact ⟨hd, l, hcomplete, List.singleton_inj.1 hspans,
    hls " ls b" (by decide) (by decide) (by decide)⟩

end Shell

end Showcase
