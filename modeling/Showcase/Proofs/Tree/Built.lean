import Showcase.Proofs.Tree.Resolve
import Showcase.Tree.Decode

/-!
# Built trees

A directory is *built* when all that it holds, at any depth, was put there by `Directory.insert`.
What a TOML text describes is built, and so is every directory that a path of a built tree leads to.

As `insert` refuses the empty name, `.` and `..`, no entry of a built tree has a name that means
something else as a segment of an argument: it is entered by its name (`Built.step?_eq_some`).
-/

namespace Showcase

namespace Directory

/-- Everything in the directory was put there by insertion, and what is inside an entry before the
entry itself. -/
inductive Built : Directory → Prop
  | empty : Built []
  | insert {d d' : Directory} {name : Text} {entry : Entry} (old : Built d)
      (inside : ∀ sub : Directory, entry = .directory sub → Built sub)
      (new : d.insert name entry = .ok d') : Built d'

variable {tree d d' sub : Directory} {name : Text} {entry : Entry} {p : Path}

/-- The names that stand for directories already, and the empty one. -/
def IsReserved (name : Text) : Prop := name = "".toList ∨ name = ".".toList ∨ name = "..".toList

/-- **Insertion succeeds** just for a name that is neither reserved nor taken, and appends. -/
theorem insert_eq_ok_iff :
    d.insert name entry = .ok d' ↔
      ¬ IsReserved name ∧ name ∉ d.map Prod.fst ∧ d' = d ++ [(name, entry)] := by
  unfold insert IsReserved
  rw [← get?_isSome_iff]
  split_ifs with hempty hdots htaken
  · exact iff_of_false nofun fun h => h.1 (.inl hempty)
  · exact iff_of_false nofun fun h => h.1 (.inr hdots)
  · exact iff_of_false nofun fun h => h.2.1 htaken
  · rw [Except.ok.injEq, eq_comm, and_iff_right (not_or.2 ⟨hempty, hdots⟩), and_iff_right htaken]

theorem Built.insert_file {content : Text} (old : Built d)
    (new : d.insert name (.file content) = .ok d') : d'.Built := by
  refine .insert old ?_ new
  nofun

theorem Built.insert_directory (old : Built d) (inside : Built sub)
    (new : d.insert name (.directory sub) = .ok d') : d'.Built := by
  refine .insert old ?_ new
  rintro _ ⟨⟩
  exact inside

/-! ## What is in a built directory -/

theorem Built.of_mem (hd : d.Built) (h : (name, entry) ∈ d) :
    ¬ IsReserved name ∧ ∀ sub : Directory, entry = .directory sub → sub.Built := by
  induction hd with
  | empty => cases h
  | insert old inside new ih _ =>
    obtain ⟨hname, -, rfl⟩ := insert_eq_ok_iff.1 new
    rcases List.mem_append.1 h with hold | hnew
    · exact ih hold
    · cases List.mem_singleton.1 hnew
      exact ⟨hname, inside⟩

theorem mem_of_get? (h : d.get? name = some entry) : (name, entry) ∈ d := mem_of_find?_fst h

theorem mem_of_childDir? (h : d.childDir? name = some sub) : (name, .directory sub) ∈ d := by
  obtain ⟨entry, hget, hdir⟩ := Option.bind_eq_some_iff.1 h
  rw [Entry.asDirectory?_eq_some_iff.1 hdir] at hget
  exact mem_of_get? hget

/-- A path of a built tree leads to a built directory. -/
theorem Built.directory? (htree : tree.Built) (h : tree.directory? p = some d) : d.Built :=
  of_foldlM_eq_some p.segments
    (fun _ _ _ _ hbuilt hchild => (hbuilt.of_mem (mem_of_childDir? hchild)).2 _ rfl) htree h

/-! ## Trees from TOML -/

mutual

theorem built_entryOfToml : ∀ (v : Toml.Value) {sub : Directory},
    entryOfToml v = .ok (.directory sub) → sub.Built
  | .table fields, sub, h => by
    rcases entryOfToml_eq_directory_iff.1 h with ⟨_, hv, hfields⟩ | ⟨_, hv, -⟩
    · cases hv
      exact built_insertToml fields .empty hfields
    · cases hv
  | .dateTime date, sub, h => by
    rcases entryOfToml_eq_directory_iff.1 h with ⟨_, hv, -⟩ | ⟨_, hv, hsub⟩
    · cases hv
    · cases hv
      have hnew : Directory.insert [] dateFileName (.file date.text) =
          .ok [(dateFileName, .file date.text)] := rfl
      rw [hsub]
      exact Built.empty.insert_file hnew
  | .string content, sub, h => by cases h
  | .integer i, sub, h => by cases h
  | .float x, sub, h => by cases h
  | .boolean b, sub, h => by cases h
  | .array items, sub, h => by cases h

theorem built_insertToml : ∀ (fields : List (Text × Toml.Value)) {d d' : Directory}, d.Built →
    insertToml d fields = .ok d' → d'.Built
  | [], d, d', hd, h => by
    rw [insertToml] at h
    cases h
    exact hd
  | (name, v) :: rest, d, d', hd, h => by
    obtain ⟨entry, d₁, hentry, hnew, hrest⟩ := insertToml_cons_eq_ok_iff.1 h
    have hinside : ∀ sub : Directory, entry = .directory sub → sub.Built := by
      rintro sub rfl
      exact built_entryOfToml v hentry
    exact built_insertToml rest (.insert hd hinside hnew) hrest

end

/-- **A TOML text describes a built tree.** -/
theorem built_of_ofToml {text : Text} (h : ofToml text = .ok tree) : tree.Built := by
  rw [ofToml] at h
  split at h
  · cases h
  · exact built_insertToml _ .empty h

end Directory

/-! ## Entering by name -/

theorem Directory.Built.step?_eq_some {tree d sub : Directory} {p : Path} {name : Text}
    (htree : tree.Built) (hd : tree.directory? p = some d) (h : d.childDir? name = some sub) :
    Path.step? tree p name = some (p.push name) := by
  have hname := ((htree.directory? hd).of_mem (mem_of_childDir? h)).1
  obtain ⟨hempty, hdot, hdots⟩ : name ≠ "".toList ∧ name ≠ ".".toList ∧ name ≠ "..".toList := by
    simpa [IsReserved, not_or] using hname
  rw [Path.step?, if_neg (not_or.2 ⟨hempty, hdot⟩), if_neg hdots, hd, if_pos]
  exact Option.isSome_iff_exists.2 ⟨sub, h⟩

end Showcase
