import Mathlib.Data.List.Induction
import Mathlib.Tactic.SplitIfs
import Showcase.Command.Resolve

/-!
# Paths to directories

A path leads to a directory only if each path above it does, so a walk that starts at a directory
and goes up, stays or enters a child never leaves the directories of the tree.

**Resolving** (`isSome_directory?_of_resolve`). An argument is resolved segment by segment, and
each segment is such a move. The path that comes out leads to a directory, and by
`isValid_of_directory?` the tree also calls it valid.
-/

namespace Showcase

/-- What each step of a walk keeps, the walk keeps. -/
theorem of_foldlM_eq_some {α β : Type} {P : β → Prop} {step : β → α → Option β}
    (as : List α) (hstep : ∀ b, ∀ a ∈ as, ∀ b', P b → step b a = some b' → P b') {b b' : β}
    (hb : P b) (h : as.foldlM step b = some b') : P b' := by
  induction as generalizing b with
  | nil =>
    cases h
    exact hb
  | cons a as ih =>
    rw [List.foldlM_cons] at h
    obtain ⟨c, hc, hrest⟩ := Option.bind_eq_some_iff.1 h
    exact ih (fun b a ha => hstep b a (List.mem_cons_of_mem _ ha))
      (hstep b a List.mem_cons_self c hb hc) hrest

theorem mem_of_find?_fst {α β : Type} [DecidableEq α] {pairs : List (α × β)} {a : α} {b : β}
    (h : (pairs.find? fun pair => pair.1 = a).map Prod.snd = some b) : (a, b) ∈ pairs := by
  obtain ⟨⟨a', b'⟩, hfind, rfl⟩ := Option.map_eq_some_iff.1 h
  have ha : a' = a := by simpa using List.find?_some hfind
  rw [← ha]
  exact List.mem_of_find?_eq_some hfind

variable {tree : Directory} {p q : Path}

/-- A path grows from the root name by name. -/
@[elab_as_elim]
theorem Path.induction_push {motive : Path → Prop} (root : motive .root)
    (push : ∀ p name, motive p → motive (p.push name)) (p : Path) : motive p := by
  obtain ⟨segments⟩ := p
  induction segments using List.reverseRecOn with
  | nil => exact root
  | append_singleton segments name ih => exact push ⟨segments⟩ name ih

namespace Directory

theorem isSome_directory?_parent (h : (tree.directory? p).isSome) :
    (tree.directory? p.parent).isSome := by
  cases p using Path.induction_push with
  | root => exact h
  | push p name =>
    rw [directory?_push] at h
    rw [Path.parent_push]
    exact Option.isSome_of_isSome_bind h

theorem isSome_get?_of_childDir? {d : Directory} {name : Text} (h : (d.childDir? name).isSome) :
    (d.get? name).isSome :=
  Option.isSome_of_isSome_bind h

theorem isValid_of_directory? (h : (tree.directory? p).isSome) : tree.isValid p = true := by
  cases p using Path.induction_push with
  | root => rfl
  | push p name =>
    rw [directory?_push] at h
    obtain ⟨d, hd⟩ := Option.isSome_iff_exists.1 (Option.isSome_of_isSome_bind h)
    rw [hd] at h
    rw [isValid, Path.segments_push, List.getLast?_concat]
    simpa [hd] using isSome_get?_of_childDir? h

end Directory

namespace Path

variable {segment argument name : Text}

/-- **One segment** stays, goes up, or enters the directory of its name. -/
theorem step?_cases (h : step? tree p segment = some q) :
    q = p ∨ segment = "..".toList ∧ q = p.parent ∨
      q = p.push segment ∧ ∃ d sub, tree.directory? p = some d ∧ d.childDir? segment = some sub := by
  unfold step? at h
  split_ifs at h with hstay hup hchild
  · exact .inl (Option.some.inj h).symm
  · exact .inr (.inl ⟨hup, (Option.some.inj h).symm⟩)
  · obtain ⟨sub, hsub⟩ := Option.isSome_iff_exists.1 hchild
    obtain ⟨d, hd, hsub⟩ := Option.bind_eq_some_iff.1 hsub
    exact .inr (.inr ⟨(Option.some.inj h).symm, d, sub, hd, hsub⟩)

theorem isSome_directory?_of_step? (hp : (tree.directory? p).isSome)
    (h : step? tree p segment = some q) : (tree.directory? q).isSome := by
  rcases step?_cases h with rfl | ⟨-, rfl⟩ | ⟨rfl, d, sub, hd, hsub⟩
  · exact hp
  · exact Directory.isSome_directory?_parent hp
  · rw [Directory.directory?_push, hd]
    exact Option.isSome_of_eq_some hsub

theorem mem_segments_of_step? (h : step? tree p segment = some q) (hname : name ∈ q.segments) :
    name ∈ p.segments ∨ name = segment := by
  rcases step?_cases h with rfl | ⟨-, rfl⟩ | ⟨rfl, -⟩
  · exact .inl hname
  · exact .inl (List.dropLast_subset _ hname)
  · simpa using hname

theorem mem_segments_of_foldlM {segments : List Text}
    (h : segments.foldlM (step? tree) p = some q) (hname : name ∈ q.segments) :
    name ∈ p.segments ∨ name ∈ segments := by
  refine of_foldlM_eq_some (P := fun r => ∀ name ∈ r.segments, name ∈ p.segments ∨ name ∈ segments)
    segments (fun r segment hsegment r' hr hstep name hname => ?_) (fun _ => .inl) h name hname
  rcases mem_segments_of_step? hstep hname with hold | rfl
  · exact hr name hold
  · exact .inr hsegment

/-! ## Arguments -/

/-- The arguments that mean the root, wherever they are given. -/
def IsHome (argument : Text) : Prop := argument = "".toList ∨ argument = "~".toList

theorem not_isHome_of_mem (h : '/' ∈ argument) : ¬ IsHome argument := by
  rintro (rfl | rfl) <;> simp at h

theorem resolve_of_isHome (h : IsHome argument) (tree : Directory) (p : Path) :
    resolve tree p argument = .ok root :=
  if_pos h

theorem resolve_of_not_isHome (h : ¬ IsHome argument) (tree : Directory) (p : Path) :
    resolve tree p argument =
      match (argument.splitOn '/').foldlM (step? tree) p with
      | some q => .ok q
      | none => .error (.pathNotFound argument) :=
  if_neg h

theorem resolve_eq_ok_iff (h : ¬ IsHome argument) :
    resolve tree p argument = .ok q ↔ (argument.splitOn '/').foldlM (step? tree) p = some q := by
  rw [resolve_of_not_isHome h]
  cases (argument.splitOn '/').foldlM (step? tree) p <;> simp

theorem resolve_eq_error_iff (h : ¬ IsHome argument) {e : CommandError} :
    resolve tree p argument = .error e ↔
      (argument.splitOn '/').foldlM (step? tree) p = none ∧ e = .pathNotFound argument := by
  rw [resolve_of_not_isHome h]
  cases (argument.splitOn '/').foldlM (step? tree) p <;> simp [eq_comm]

/-- A resolved argument names a directory, whatever its segments are. -/
theorem isSome_directory?_of_resolve (hp : (tree.directory? p).isSome)
    (h : resolve tree p argument = .ok q) : (tree.directory? q).isSome := by
  by_cases hhome : IsHome argument
  · rw [resolve_of_isHome hhome] at h
    cases h
    rfl
  · exact of_foldlM_eq_some (argument.splitOn '/') (fun _ _ _ _ => isSome_directory?_of_step?) hp
      ((resolve_eq_ok_iff hhome).1 h)

end Path

end Showcase
