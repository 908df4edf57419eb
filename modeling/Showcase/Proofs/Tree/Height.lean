import Showcase.Proofs.Tree.Built

/-!
# Heights of trees

The *height* of an entry counts the entries that are below each other in it. A directory is higher
than all that is in it (`height_lt_of_mem`), so a walk that never goes up loses height with every
directory that it enters (`exists_height_le_of_foldlM`).

A name with a slash cannot be typed as one segment; `Directory.SlashFree` says that there is none, at
any depth.
-/

namespace Showcase

mutual

/-- How many entries are below each other, at most. -/
def Entry.height : Entry → Nat
  | .file _ => 0
  | .directory entries => Directory.height entries
termination_by structural entry => entry

/-- How many entries are below each other in a directory, at most. -/
def Directory.height : Directory → Nat
  | [] => 0
  | (_, entry) :: rest => max (Entry.height entry + 1) (Directory.height rest)
termination_by structural entries => entries

end

namespace Directory

variable {tree d sub : Directory} {p : Path} {name : Text} {entry : Entry}

/-- A directory is higher than what is in it. -/
theorem height_lt_of_mem (h : (name, entry) ∈ d) : entry.height < d.height := by
  induction d with
  | nil => cases h
  | cons first rest ih =>
    obtain ⟨name', entry'⟩ := first
    rw [height]
    rcases List.mem_cons.1 h with heq | hmem
    · cases heq
      omega
    · have hrest := ih hmem
      omega

theorem height_lt_of_childDir? (h : d.childDir? name = some sub) : sub.height < d.height := by
  have hlower := height_lt_of_mem (mem_of_childDir? h)
  rwa [Entry.height] at hlower

theorem height_le_of_directory? (h : tree.directory? p = some d) : d.height ≤ tree.height := by
  refine of_foldlM_eq_some (P := fun e => height e ≤ height tree) p.segments ?_ (Nat.le_refl _) h
  intro e name _ sub hle hchild
  exact Nat.le_trans (Nat.le_of_lt (height_lt_of_childDir? hchild)) hle

/-- Without going up a walk leads to a directory that is no higher. -/
theorem exists_height_le_of_foldlM {segments : List Text} {q : Path}
    (hd : tree.directory? p = some d) (hclimb : "..".toList ∉ segments)
    (h : segments.foldlM (Path.step? tree) p = some q) :
    ∃ e, tree.directory? q = some e ∧ e.height ≤ d.height := by
  refine of_foldlM_eq_some
    (P := fun r => ∃ e, tree.directory? r = some e ∧ Directory.height e ≤ d.height)
    segments ?_ ⟨d, hd, Nat.le_refl _⟩ h
  rintro r segment hsegment r' ⟨e, he, hle⟩ hstep
  rcases Path.step?_cases hstep with rfl | ⟨rfl, -⟩ | ⟨rfl, e', sub, he', hsub⟩
  · exact ⟨e, he, hle⟩
  · exact absurd hsegment hclimb
  · rw [he] at he'
    cases he'
    refine ⟨sub, ?_, Nat.le_trans (Nat.le_of_lt (height_lt_of_childDir? hsub)) hle⟩
    rw [directory?_push, he]
    exact hsub

/-- In no directory of the tree there is a slash in a name. -/
inductive SlashFree : Directory → Prop
  | intro {d : Directory} (free : ∀ name ∈ d.map Prod.fst, '/' ∉ name)
      (inside : ∀ name, ∀ sub : Directory, (name, .directory sub) ∈ d → SlashFree sub) :
      SlashFree d

theorem SlashFree.not_mem (hd : d.SlashFree) (h : (name, entry) ∈ d) : '/' ∉ name := by
  cases hd with
  | intro free _ => exact free name (List.mem_map_of_mem h)

theorem SlashFree.directory? (htree : tree.SlashFree) (h : tree.directory? p = some d) :
    d.SlashFree := by
  refine of_foldlM_eq_some p.segments (fun d name _ sub hd hchild => ?_) htree h
  cases hd with
  | intro _ inside => exact inside name sub (mem_of_childDir? hchild)

end Directory

end Showcase
