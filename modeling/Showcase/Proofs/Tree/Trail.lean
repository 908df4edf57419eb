import Showcase.Proofs.Tree.Resolve

/-!
# Walking with a trail

A path is only the names on the way from the root, so each question about it walks the tree again.
A *trail* is the way itself: the directories from the root down, one on top of the other. To move
along it nothing has to be looked up but the names in the topmost directory.

**The walk** (`Trail.walk?`). An argument is followed segment by segment: up is to drop the topmost
directory, unless it is the root, and down is to enter a directory that it holds.

**Paths and trails agree** (`Path.step?_path`). A trail of a tree leads where its names lead
(`Trail.Within.directory?_path`), so one segment does the same to both, and with it a whole
argument.

Main result: `Path.resolve_eq_walk?`.
-/

namespace Showcase

/-- The directories on the way from the root, each but the root with its name. -/
inductive Trail where
  | root (d : Directory)
  | child (above : Trail) (name : Text) (d : Directory)

namespace Trail

/-! ## Moving -/

/-- The directory to which the trail leads. -/
def top : Trail → Directory
  | root d => d
  | child _ _ d => d

/-- The names on the trail. -/
def path : Trail → Path
  | root _ => .root
  | child above name _ => above.path.push name

/-- Back to the root. -/
def home : Trail → Trail
  | root d => root d
  | child above _ _ => above.home

/-- One directory up, unless only the root is left. -/
def up : Trail → Trail
  | root d => root d
  | child above _ _ => above

/-- Down into a directory that the topmost one holds. -/
def enter? (t : Trail) (name : Text) : Option Trail := (t.top.childDir? name).map (t.child name)

/-- The trail after one segment of an argument. -/
def follow? (t : Trail) (segment : Text) : Option Trail :=
  if segment = "".toList ∨ segment = ".".toList then some t
  else if segment = "..".toList then some t.up
  else t.enter? segment

/-- The trail after an argument. -/
def walk? (t : Trail) (argument : Text) : Option Trail :=
  if argument = "".toList ∨ argument = "~".toList then some t.home
  else (argument.splitOn '/').foldlM follow? t

/-- The trail of a path. -/
def ofPath? (tree : Directory) (p : Path) : Option Trail := p.segments.foldlM enter? (root tree)

/-! ## Trails of a tree -/

/-- Each directory on the trail is the one of its name in the directory below it, and the lowest
one is the tree. -/
inductive Within (tree : Directory) : Trail → Prop
  | root : Within tree (root tree)
  | child {t : Trail} {name : Text} {d : Directory} (above : Within tree t)
      (entry : t.top.childDir? name = some d) : Within tree (child t name d)

variable {tree : Directory} {t t' : Trail} {p : Path} {name segment : Text}

/-- **A trail leads where its names lead.** -/
theorem Within.directory?_path (h : t.Within tree) : tree.directory? t.path = some t.top := by
  induction h with
  | root => rfl
  | child above entry ih =>
    rw [path, Directory.directory?_push, ih]
    exact entry

theorem Within.home_eq (h : t.Within tree) : t.home = .root tree := by
  induction h with
  | root => rfl
  | child above entry ih => exact ih

theorem Within.up (h : t.Within tree) : t.up.Within tree := by
  cases h with
  | root => exact .root
  | child above entry => exact above

theorem Within.enter? (h : t.Within tree) (henter : t.enter? name = some t') :
    t'.Within tree := by
  obtain ⟨d, hd, rfl⟩ := Option.map_eq_some_iff.1 henter
  exact .child h hd

theorem Within.follow? (h : t.Within tree) (hfollow : t.follow? segment = some t') :
    t'.Within tree := by
  unfold Trail.follow? at hfollow
  split_ifs at hfollow with hstay hup
  · cases hfollow
    exact h
  · cases hfollow
    exact h.up
  · exact h.enter? hfollow

theorem path_up (t : Trail) : t.up.path = t.path.parent := by
  cases t with
  | root d => rfl
  | child above name d => exact (Path.parent_push above.path name).symm

theorem ofPath?_push (tree : Directory) (p : Path) (name : Text) :
    ofPath? tree (p.push name) = (ofPath? tree p).bind fun t => t.enter? name := by
  rw [ofPath?, Path.segments_push, List.foldlM_append, ofPath?]
  cases p.segments.foldlM Trail.enter? (Trail.root tree) <;> simp

theorem exists_ofPath? (h : (tree.directory? p).isSome) :
    ∃ t, ofPath? tree p = some t ∧ t.path = p ∧ t.Within tree := by
  induction p using Path.induction_push with
  | root => exact ⟨root tree, rfl, rfl, .root⟩
  | push p name ih =>
    rw [Directory.directory?_push] at h
    obtain ⟨t, ht, rfl, hwithin⟩ := ih (Option.isSome_of_isSome_bind h)
    -- The directory above is the topmost one of its trail, so the entry is to be found there.
    rw [hwithin.directory?_path] at h
    obtain ⟨d, hd⟩ := Option.isSome_iff_exists.1 h
    have henter : t.enter? name = some (t.child name d) := congrArg (Option.map _) hd
    refine ⟨t.child name d, ?_, rfl, .child hwithin hd⟩
    rw [ofPath?_push, ht]
    exact henter

end Trail

/-! ## Arguments -/

namespace Path

variable {tree : Directory} {current : Path} {t : Trail}

/-- **One segment** moves a path as it moves the trail. -/
theorem step?_path (h : t.Within tree) (segment : Text) :
    step? tree t.path segment = (t.follow? segment).map Trail.path := by
  unfold step? Trail.follow?
  split_ifs with hstay hup hchild
  · rfl
  · rw [Option.map_some, Trail.path_up]
  · rw [h.directory?_path] at hchild
    obtain ⟨d, hd⟩ := Option.isSome_iff_exists.1 hchild
    have hentry : t.top.childDir? segment = some d := hd
    rw [Trail.enter?, hentry]
    rfl
  · rw [h.directory?_path] at hchild
    have hentry : t.top.childDir? segment = none := by simpa using hchild
    rw [Trail.enter?, hentry]
    rfl

/-- The segments of an argument move a path as they move the trail. -/
theorem foldlM_step?_path (h : t.Within tree) (segments : List Text) :
    segments.foldlM (step? tree) t.path = (segments.foldlM Trail.follow? t).map Trail.path := by
  induction segments generalizing t with
  | nil => rfl
  | cons segment segments ih =>
    rw [List.foldlM_cons, List.foldlM_cons, step?_path h]
    cases hfollow : t.follow? segment with
    | none => rfl
    | some t' => exact ih (h.follow? hfollow)

theorem within_of_walk? {t' : Trail} {argument : Text} (h : t.Within tree)
    (hwalk : t.walk? argument = some t') : t'.Within tree := by
  unfold Trail.walk? at hwalk
  split_ifs at hwalk with hhome
  · cases hwalk
    rw [h.home_eq]
    exact .root
  · exact of_foldlM_eq_some (argument.splitOn '/') (fun _ _ _ _ => Trail.Within.follow?) h hwalk

/-- **Resolving is walking.** From a directory an argument resolves to the names on the trail after
it, and what they lead to is the topmost directory of the trail; there is an error, which carries
the argument, just when the walk comes to an end before the argument does. -/
theorem resolve_eq_walk? (hcurrent : (tree.directory? current).isSome) (argument : Text) :
    ∃ start, Trail.ofPath? tree current = some start ∧ start.path = current ∧
      tree.directory? current = some start.top ∧
      (∀ p, resolve tree current argument = .ok p ↔
        ∃ t, start.walk? argument = some t ∧ t.path = p ∧ tree.directory? p = some t.top) ∧
      (∀ e, resolve tree current argument = .error e ↔
        start.walk? argument = none ∧ e = .pathNotFound argument) := by
  obtain ⟨start, hstart, hpath, hwithin⟩ := Trail.exists_ofPath? hcurrent
  have hresolve : resolve tree current argument =
      match start.walk? argument with
      | some t => .ok t.path
      | none => .error (.pathNotFound argument) := by
    unfold resolve Trail.walk?
    split_ifs with hhome
    · rw [hwithin.home_eq]
      rfl
    · rw [← hpath, foldlM_step?_path hwithin]
      cases (argument.splitOn '/').foldlM Trail.follow? start <;> rfl
  refine ⟨start, hstart, hpath, ?_, ?_, ?_⟩
  · rw [← hpath]
    exact hwithin.directory?_path
  · intro p
    rw [hresolve]
    cases hwalk : start.walk? argument with
    | none => simp
    | some t =>
      have hdirectory := (within_of_walk? hwithin hwalk).directory?_path
      constructor
      · intro hp
        cases hp
        exact ⟨t, rfl, rfl, hdirectory⟩
      · rintro ⟨t', ht', rfl, -⟩
        cases ht'
        rfl
  · intro e
    rw [hresolve]
    cases hwalk : start.walk? argument with
    | none => simp [eq_comm]
    | some t => simp

/-- Up past the root and down again, over segments that stay; and a file on the way. -/
theorem resolve_eq_walk?_climb :
    let tree : Directory :=
      [("a".toList, .directory [("b".toList, .directory []), ("f".toList, .file [])])]
    let current : Path := ⟨["a".toList, "b".toList]⟩
    (tree.directory? current).isSome ∧
      resolve tree current "../../../a/./b//.." = .ok ⟨["a".toList]⟩ ∧
      resolve tree current "../f/.." = .error (.pathNotFound "../f/..") := by
  intro tree current
  have hcurrent : (tree.directory? current).isSome := rfl
  refine ⟨hcurrent, ?_, ?_⟩
  · obtain ⟨start, hstart, -, -, hok, -⟩ := resolve_eq_walk? hcurrent "../../../a/./b//.."
    cases hstart
    exact (hok _).2 ⟨_, rfl, rfl, rfl⟩
  · obtain ⟨start, hstart, -, -, -, herror⟩ := resolve_eq_walk? hcurrent "../f/.."
    cases hstart
    exact (herror _).2 ⟨rfl, rfl⟩

end Path

end Showcase
