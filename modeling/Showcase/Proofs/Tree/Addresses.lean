import Showcase.Proofs.Text.Cutting
import Showcase.Proofs.Tree.Built

/-!
# Arguments as addresses

**In two parts** (`resolve_append_slash`). An argument is followed segment by segment, so two of them
with a slash in between are followed one after the other. The empty argument and `~` are the
exceptions, as they go to the root only when they stand alone.

**Up and down again** (`Path.route`). From anywhere as many `..` as there are names on the path lead
to the root, and from there the printed form of a path goes down name by name. In a built tree no
name means anything else, so the way ends where the path does, if only every name comes through as
one segment: a name with a slash is cut in two, and no segment gives it back.

Main results: `resolve_append_slash` and `resolve_route_iff`.
-/

namespace Showcase

theorem Text.slash_not_mem_of_mem_splitOn {s part : Text} (h : part ∈ s.splitOn '/') :
    '/' ∉ part := by
  rw [List.splitOn_eq_splitOnP] at h
  intro hslash
  simpa using (of_mem_splitOnP h hslash).2

namespace Path

variable {tree : Directory} {q : Path} {a b : Text}

/-! ## In two parts -/

/-- **Two arguments with a slash in between** lead where the second one leads from where the first
one does. If either fails the whole argument fails, and is what the error shows. -/
theorem resolve_append_slash (ha : ¬ IsHome a) (hb : ¬ IsHome b) (tree : Directory) (c : Path) :
    (∀ p, resolve tree c (a ++ '/' :: b) = .ok p ↔
        ∃ q, resolve tree c a = .ok q ∧ resolve tree q b = .ok p) ∧
      ∀ e, resolve tree c (a ++ '/' :: b) = .error e ↔
        ((∃ e', resolve tree c a = .error e') ∨
            ∃ q e', resolve tree c a = .ok q ∧ resolve tree q b = .error e') ∧
          e = .pathNotFound (a ++ '/' :: b) := by
  have hab : ¬ IsHome (a ++ '/' :: b) := not_isHome_of_mem (by simp)
  constructor
  · intro p
    rw [resolve_eq_ok_iff hab, List.splitOn_append_cons_self, List.foldlM_append,
      Option.bind_eq_bind, Option.bind_eq_some_iff]
    simp only [resolve_eq_ok_iff ha, resolve_eq_ok_iff hb]
  · intro e
    rw [resolve_eq_error_iff hab, List.splitOn_append_cons_self, List.foldlM_append,
      Option.bind_eq_bind]
    simp only [resolve_eq_ok_iff ha, resolve_eq_error_iff ha, resolve_eq_error_iff hb]
    -- The way ends in the first part, or it goes on from where that leads.
    cases (a.splitOn '/').foldlM (step? tree) c with
    | none => simp
    | some q => simp

/-- Up past the root in the first part; and a file in the second one, for which the whole argument is
reported. -/
theorem resolve_append_slash_file :
    let tree : Directory := [("a", .directory [("b", .directory []), ("f", .file "1")])]
    let c : Path := ⟨["a", "b"]⟩
    ¬ IsHome "../../..//a" ∧ ¬ IsHome "./b" ∧ ¬ IsHome "f/.." ∧
      resolve tree c "../../..//a/./b" = .ok c ∧
      resolve tree c "../../..//a/f/.." = .error (.pathNotFound "../../..//a/f/..") := by
  intro tree c
  have hup : ¬ IsHome "../../..//a" := by
    unfold IsHome
    decide
  have hdown : ¬ IsHome "./b" := by
    unfold IsHome
    decide
  have hfile : ¬ IsHome "f/.." := by
    unfold IsHome
    decide
  have ha : resolve tree c "../../..//a" = .ok ⟨["a"]⟩ := rfl
  refine ⟨hup, hdown, hfile, ?_, ?_⟩
  · exact ((resolve_append_slash hup hdown tree c).1 c).2 ⟨_, ha, rfl⟩
  · exact ((resolve_append_slash hup hfile tree c).2 _).2 ⟨.inr ⟨_, _, ha, rfl⟩, rfl⟩

/-- The empty argument goes to the root, but in front of a slash it stays. -/
example :
    let tree : Directory := [("a", .directory []), ("b", .directory [])]
    resolve tree ⟨["a"]⟩ "" = .ok root ∧ resolve tree root "b" = .ok ⟨["b"]⟩ ∧
      resolve tree ⟨["a"]⟩ "/b" = .error (.pathNotFound "/b") := ⟨rfl, rfl, rfl⟩

/-! ## Up and down again -/

/-- The argument that goes up to the root and then down by the printed form of a path. From the root
it is the printed form itself, and to the root it is the way up with a slash behind it. -/
def route (p q : Path) : Text := (List.replicate p.depth "../".toList).flatten ++ q.text

theorem foldlM_step?_up (tree : Directory) (p : Path) :
    (List.replicate p.depth "..".toList).foldlM (step? tree) p = some root := by
  induction p using induction_push with
  | root => rfl
  | push p name ih =>
    have hdepth : (p.push name).depth = p.depth + 1 := by simp [depth]
    have hup : step? tree (p.push name) "..".toList = some p := by simp [step?]
    rw [hdepth, List.replicate_succ, List.foldlM_cons, hup]
    exact ih

theorem splitOn_ups (n : Nat) (s : Text) :
    ((List.replicate n "../".toList).flatten ++ s).splitOn '/' =
      List.replicate n "..".toList ++ s.splitOn '/' := by
  induction n with
  | zero => rfl
  | succ n ih =>
    have hup : "..".toList.splitOn '/' = ["..".toList] := List.splitOn_eq_singleton (by decide)
    have hcons : (List.replicate (n + 1) "../".toList).flatten ++ s =
        "..".toList ++ '/' :: ((List.replicate n "../".toList).flatten ++ s) := by
      simp [List.replicate_succ]
    rw [hcons, List.splitOn_append_cons_self, ih, hup, List.replicate_succ]
    rfl

theorem splitOn_slashed (q : Path) :
    q.slashed.splitOn '/' = [] :: q.segments.flatMap fun name => name.splitOn '/' := by
  induction q using induction_push with
  | root => rfl
  | push q name ih =>
    rw [slashed_push, List.splitOn_append_cons_self, ih]
    simp

/-- The slash in front, and the one that is the root, add nothing to the names. -/
theorem foldlM_step?_text (tree : Directory) (p q : Path) :
    (q.text.splitOn '/').foldlM (step? tree) p =
      (q.segments.flatMap fun name => name.splitOn '/').foldlM (step? tree) p := by
  cases q using induction_push with
  | root => rfl
  | push q name =>
    rw [text_push, splitOn_slashed, List.foldlM_cons]
    rfl

theorem not_isHome_route (p q : Path) : ¬ IsHome (route p q) := by
  refine not_isHome_of_mem (List.mem_append_right _ ?_)
  cases q using induction_push with
  | root => exact List.mem_singleton_self '/'
  | push q name => simp [text_push, slashed_push]

/-- A route is followed from the root, by the parts that its slashes leave of each name. -/
theorem resolve_route_eq_ok_iff (tree : Directory) (p q : Path) {r : Path} :
    resolve tree p (route p q) = .ok r ↔
      (q.segments.flatMap fun name => name.splitOn '/').foldlM (step? tree) root = some r := by
  rw [resolve_eq_ok_iff (not_isHome_route p q), route, splitOn_ups, List.foldlM_append,
    foldlM_step?_up, Option.bind_eq_bind, Option.bind_some, foldlM_step?_text]

theorem foldlM_step?_segments (htree : tree.Built) (hq : (tree.directory? q).isSome) :
    q.segments.foldlM (step? tree) root = some q := by
  induction q using induction_push with
  | root => rfl
  | push q name ih =>
    -- The names above lead to the directory that holds the last one.
    rw [Directory.directory?_push] at hq
    have habove := Option.isSome_of_isSome_bind hq
    obtain ⟨d, hd⟩ := Option.isSome_iff_exists.1 habove
    rw [hd] at hq
    obtain ⟨sub, hsub⟩ := Option.isSome_iff_exists.1 hq
    have hstep : step? tree q name = some (q.push name) := htree.step?_eq_some hd hsub
    rw [segments_push, List.foldlM_append, ih habove, Option.bind_eq_bind, Option.bind_some,
      List.foldlM_cons, hstep]
    rfl

/-- **The printed form of a directory's path is its address**, from anywhere in a built tree, just
when no name on the path has a slash in it. -/
theorem resolve_route_iff (htree : tree.Built) (hq : (tree.directory? q).isSome) (p : Path) :
    resolve tree p (route p q) = .ok q ↔ ∀ name ∈ q.segments, '/' ∉ name := by
  rw [resolve_route_eq_ok_iff]
  constructor
  · intro h name hname
    -- Every name was entered as a part between slashes.
    rcases mem_segments_of_foldlM h hname with hroot | hpart
    · cases hroot
    · obtain ⟨whole, -, hpart⟩ := List.mem_flatMap.1 hpart
      exact Text.slash_not_mem_of_mem_splitOn hpart
  · intro hnames
    have hwhole : (q.segments.flatMap fun name => name.splitOn '/') = q.segments := by
      rw [List.flatMap_congr fun name hname => List.splitOn_eq_singleton (hnames name hname),
        List.flatMap_singleton']
    rw [hwhole]
    exact foldlM_step?_segments htree hq

/-- A directory named `~` is found again. One named `a/b` is not, as there is a directory `b` in
another one named `a`. -/
theorem resolve_route_iff_slash :
    let tree : Directory :=
      [("a", .directory [("b", .directory [])]), ("a/b", .directory []), ("~", .directory [])]
    let p : Path := ⟨["a", "b"]⟩
    tree.Built ∧
      (tree.directory? ⟨["~"]⟩).isSome ∧ resolve tree p "../..//~" = .ok ⟨["~"]⟩ ∧
      (tree.directory? ⟨["a/b"]⟩).isSome ∧ resolve tree p "../..//a/b" ≠ .ok ⟨["a/b"]⟩ ∧
      resolve tree p "../..//a/b" = .ok p := by
  intro tree p
  have hb : Directory.insert [] "b" (.directory []) = .ok [("b", .directory [])] := rfl
  have ha : Directory.insert [] "a" (.directory [("b", .directory [])]) = .ok (tree.take 1) := rfl
  have hab : Directory.insert (tree.take 1) "a/b" (.directory []) = .ok (tree.take 2) := rfl
  have hhome : Directory.insert (tree.take 2) "~" (.directory []) = .ok tree := rfl
  have htree : tree.Built :=
    ((Directory.Built.empty.insert_directory (.insert_directory .empty .empty hb) ha).insert_directory
      .empty hab).insert_directory .empty hhome
  have hq : (tree.directory? ⟨["~"]⟩).isSome := rfl
  have hslash : (tree.directory? ⟨["a/b"]⟩).isSome := rfl
  refine ⟨htree, hq, ?_, hslash, ?_, rfl⟩
  · exact (resolve_route_iff htree hq p).2 (by decide)
  · exact (resolve_route_iff htree hslash p).not.2 (by decide)

end Path

end Showcase
