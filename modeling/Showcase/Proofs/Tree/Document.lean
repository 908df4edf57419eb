import Mathlib
import Showcase.Proofs.Toml.Distinct
import Showcase.Proofs.Tree.Built

/-!
# What a document says about its tree

A document is walked field by field, and what is inside a field comes before the field itself. That
is the order in which its faults are found: a value that is no entry, then a name that is reserved.

**Refusing** (`insertToml_eq_error_iff`). A document is refused with the first fault of its walk, and
only if there is one.

**Mirroring** (`get?_insertToml`, `Mirrors`). Otherwise the entries of the tree stand in the order of
the fields, and each is what its value stands for. So it is at every path, in tables of tables.

**Dates** are what the rule about strings and tables misses: a date is read as a table with one
string in it, and becomes a directory with one file.

Main results: `ofTable_mirrors` for documents of tables and strings, `ofToml_eq_ok_iff` for all
documents, and `ofToml_date` for one with a date.
-/

namespace Showcase

namespace Toml

/-! ## Documents -/

mutual

/-- The fields inside a value at any depth, each after those inside it. Items of arrays are none. -/
def Value.walk : Value → List (Text × Value)
  | .table fields => Table.walk fields
  | _ => []
termination_by structural v => v

/-- The fields of a table at any depth, each after those inside it. -/
def Table.walk : Table → List (Text × Value)
  | [] => []
  | (name, v) :: rest => v.walk ++ (name, v) :: Table.walk rest
termination_by structural fields => fields

end

namespace Table

variable {t fields : Table} {name : Text} {v : Value} {path : List Text}

/-- The value of that name. -/
def get? (t : Table) (name : Text) : Option Value :=
  (t.find? fun field => field.1 = name).map Prod.snd

/-- The table of that name. -/
def child? (t : Table) (name : Text) : Option Table :=
  match t.get? name with
  | some (.table fields) => some fields
  | _ => none

/-- The table that a path leads to; the empty path leads to the document. -/
def tableAt? (t : Table) (path : List Text) : Option Table := path.foldlM child? t

/-- The value that a path leads to; the document as a whole is none. -/
def valueAt? : Table → List Text → Option Value
  | _, [] => none
  | t, [name] => t.get? name
  | t, name :: rest => (t.child? name).bind fun fields => valueAt? fields rest

theorem child?_eq_some_iff : t.child? name = some fields ↔ t.get? name = some (.table fields) := by
  rw [child?]
  split
  · next h => rw [h, Option.some.injEq, Option.some.injEq, Value.table.injEq]
  · next h => exact iff_of_false nofun (h fields)

theorem get?_cons (name' : Text) (v : Value) (t : Table) (name : Text) :
    get? ((name', v) :: t) name = if name' = name then some v else get? t name := by
  by_cases h : name' = name <;> simp [get?, h]

theorem mem_of_get? (h : t.get? name = some v) : (name, v) ∈ t := mem_of_find?_fst h

theorem walk_of_mem (h : (name, v) ∈ t) : (name, v) ∈ t.walk ∧ ∀ field ∈ v.walk, field ∈ t.walk := by
  induction t with
  | nil => cases h
  | cons first rest ih =>
    obtain ⟨name', v'⟩ := first
    rw [walk]
    rcases List.mem_cons.1 h with heq | hrest
    · cases heq
      exact ⟨by simp, fun field hfield => List.mem_append_left _ hfield⟩
    · obtain ⟨hmem, hinside⟩ := ih hrest
      exact ⟨List.mem_append_right _ (List.mem_cons_of_mem _ hmem), fun field hfield =>
        List.mem_append_right _ (List.mem_cons_of_mem _ (hinside field hfield))⟩

theorem walk_of_child? (h : t.child? name = some fields) : ∀ field ∈ fields.walk, field ∈ t.walk := by
  have hinside := (walk_of_mem (mem_of_get? (child?_eq_some_iff.1 h))).2
  rwa [Value.walk] at hinside

theorem mem_walk_of_valueAt? (h : t.valueAt? path = some v) : ∃ name, (name, v) ∈ t.walk := by
  induction path generalizing t with
  | nil => cases h
  | cons name rest ih =>
    cases rest with
    | nil => exact ⟨name, (walk_of_mem (mem_of_get? h)).1⟩
    | cons next rest =>
      obtain ⟨fields, hchild, hrest⟩ := Option.bind_eq_some_iff.1 h
      obtain ⟨name', hmem⟩ := ih hrest
      exact ⟨name', walk_of_child? hchild _ hmem⟩

end Table

/-- The value is a string or a table. -/
def Value.isPlain : Value → Bool
  | .string _ | .table _ => true
  | _ => false

/-- All values, at any depth, are strings and tables. -/
def Table.IsPlain (t : Table) : Prop := ∀ field ∈ t.walk, field.2.isPlain = true

theorem Table.IsPlain.child? {t fields : Table} {name : Text} (h : t.IsPlain)
    (hchild : t.child? name = some fields) : fields.IsPlain := fun field hfield =>
  h field (Table.walk_of_child? hchild field hfield)

/-- The value is a string, a table or a date. -/
def Value.isEntry : Value → Bool
  | .string _ | .table _ | .dateTime _ => true
  | _ => false

theorem Value.isEntry_of_isPlain {v : Value} (h : v.isPlain = true) : v.isEntry = true := by
  cases v with
  | string s => rfl
  | table fields => rfl
  | _ => cases h

end Toml

namespace Directory

open Toml (Table Value)

variable {d d' : Directory} {t fields : Table} {name : Text} {v : Value} {e : TreeError}

/-! ## Faults -/

/-- What is wrong with a name, in whatever directory. -/
def nameFault? (name : Text) : Option EntryError :=
  if name = "".toList then some .emptyName
  else if name = ".".toList ∨ name = "..".toList then some (.reservedName name)
  else none

theorem nameFault?_eq_none_iff : nameFault? name = none ↔ ¬ IsReserved name := by
  unfold nameFault? IsReserved
  split_ifs with hempty hdots <;> simp_all

theorem insert_of_new (hnew : name ∉ d.map Prod.fst) (entry : Entry) :
    d.insert name entry =
      match nameFault? name with
      | some cause => .error cause
      | none => .ok (d ++ [(name, entry)]) := by
  have hget : (d.get? name).isSome ≠ true := get?_isSome_iff.not.2 hnew
  unfold insert nameFault?
  split_ifs <;> rfl

/-- What is wrong with a value as such. -/
def shapeFault? (v : Value) : Option TreeError :=
  if v.isEntry then none else some (.shape (.wrongType v entryShape))

/-- What is wrong with a field, its value first. -/
def fieldFault? (field : Text × Value) : Option TreeError :=
  (shapeFault? field.2).or ((nameFault? field.1).map .entry)

theorem fieldFault?_eq_none_iff {field : Text × Value} :
    fieldFault? field = none ↔ field.2.isEntry = true ∧ ¬ IsReserved field.1 := by
  rw [fieldFault?, Option.or_eq_none_iff, Option.map_eq_none_iff, nameFault?_eq_none_iff, shapeFault?]
  simp

theorem findSome?_cons_or {α β : Type} (f : α → Option β) (a : α) (as : List α) :
    (a :: as).findSome? f = (f a).or (as.findSome? f) := by
  cases h : f a <;> simp [h]

mutual

/-- A value is refused with the first fault inside it, or else for its own shape. -/
theorem entryOfToml_eq_error_iff : ∀ {v : Value}, v.Distinct → ∀ e,
    entryOfToml v = .error e ↔ (v.walk.findSome? fieldFault?).or (shapeFault? v) = some e
  | .table fields, hv, e => by
    have hfields : Table.Distinct fields := by
      cases hv with
      | table names values => exact ⟨names, values⟩
      | other h => exact absurd rfl (h fields)
    have hinsert := insertToml_eq_error_iff (d := []) hfields.names hfields.values (by simp) e
    have hshape : shapeFault? (.table fields) = none := rfl
    rw [Value.walk, hshape, Option.or_none, ← hinsert, entryOfToml]
    cases insertToml [] fields <;> simp [Except.map]
  | .string _, _, _ | .dateTime _, _, _ | .integer _, _, _ | .float _, _, _ | .boolean _, _, _
  | .array _, _, _ => by simp [entryOfToml, Value.walk, shapeFault?, Value.isEntry]

/-- Fields are refused with the first fault of their walk. -/
theorem insertToml_eq_error_iff : ∀ {fields : List (Text × Value)} {d : Directory},
    (fields.map Prod.fst).Nodup → (∀ field ∈ fields, field.2.Distinct) →
    (∀ name ∈ fields.map Prod.fst, name ∉ d.map Prod.fst) → ∀ e,
    insertToml d fields = .error e ↔ (Table.walk fields).findSome? fieldFault? = some e
  | [], d, _, _, _, e => by simp [insertToml, Table.walk]
  | (name, v) :: rest, d, hnames, hvalues, hnew, e => by
    obtain ⟨hv, hvalues⟩ := List.forall_mem_cons.1 hvalues
    obtain ⟨hname, hnames⟩ := List.nodup_cons.1 hnames
    obtain ⟨hnewName, hnewRest⟩ := List.forall_mem_cons.1 hnew
    have hinside := entryOfToml_eq_error_iff hv
    rw [Table.walk, List.findSome?_append, findSome?_cons_or, fieldFault?, Option.or_assoc,
      ← Option.or_assoc, insertToml]
    cases hentry : entryOfToml v with
    | error e' =>
      rw [(hinside e').1 hentry]
      simp [bind, Except.bind]
    | ok entry =>
      have hnone : (v.walk.findSome? fieldFault?).or (shapeFault? v) = none :=
        Option.eq_none_iff_forall_ne_some.2 fun e' he => by
          rw [(hinside e').2 he] at hentry
          cases hentry
      rw [hnone, Option.none_or]
      show ((d.insert name entry).mapError TreeError.entry >>= fun d => insertToml d rest) = _ ↔ _
      rw [insert_of_new hnewName]
      cases nameFault? name with
      | some cause =>
        show Except.error (TreeError.entry cause) = .error e ↔ _
        simp
      | none =>
        refine insertToml_eq_error_iff hnames hvalues (fun other hother hmem => ?_) e
        rw [List.map_append, List.mem_append] at hmem
        rcases hmem with hmem | hmem
        · exact hnewRest other hother hmem
        · rw [List.mem_singleton.1 hmem] at hother
          exact hname hother

end

/-- A document is refused with the first fault of its walk. -/
theorem ofTable_eq_error_iff (ht : t.Distinct) (e : TreeError) :
    ofTable t = .error e ↔ t.walk.findSome? fieldFault? = some e :=
  insertToml_eq_error_iff ht.names ht.values (by simp) e

theorem ofTable_eq_ok_iff (ht : t.Distinct) :
    (∃ d, ofTable t = .ok d) ↔
      ∀ field ∈ t.walk, field.2.isEntry = true ∧ ¬ IsReserved field.1 := by
  have hnone : (∀ field ∈ t.walk, field.2.isEntry = true ∧ ¬ IsReserved field.1) ↔
      t.walk.findSome? fieldFault? = none := by
    simp only [List.findSome?_eq_none_iff, fieldFault?_eq_none_iff]
  rw [hnone, Option.eq_none_iff_forall_ne_some]
  constructor
  · rintro ⟨d, hd⟩ e he
    rw [(ofTable_eq_error_iff ht e).2 he] at hd
    cases hd
  · intro hnone
    cases h : ofTable t with
    | error e => exact absurd ((ofTable_eq_error_iff ht e).1 h) (hnone e)
    | ok d => exact ⟨d, rfl⟩

/-! ## Entries -/

theorem names_insertToml (h : insertToml d fields = .ok d') :
    d'.map Prod.fst = d.map Prod.fst ++ fields.map Prod.fst := by
  induction fields generalizing d with
  | nil =>
    rw [insertToml] at h
    cases h
    simp
  | cons field rest ih =>
    obtain ⟨entry, d₁, -, hnew, hrest⟩ := insertToml_cons_eq_ok_iff.1 h
    rw [ih hrest, eq_append_of_insert hnew]
    simp

/-- An entry is what its value stands for, unless it was there before. -/
theorem get?_insertToml (h : insertToml d fields = .ok d') (name : Text) :
    (d'.get? name).map Except.ok =
      ((d.get? name).map Except.ok).or ((Table.get? fields name).map entryOfToml) := by
  induction fields generalizing d with
  | nil =>
    rw [insertToml] at h
    cases h
    exact (Option.or_none).symm
  | cons field rest ih =>
    obtain ⟨name', v⟩ := field
    obtain ⟨entry, d₁, hentry, hnew, hrest⟩ := insertToml_cons_eq_ok_iff.1 h
    rw [ih hrest, eq_append_of_insert hnew, get?_append, get?_cons, get?_nil, Table.get?_cons]
    cases d.get? name with
    | some old => rfl
    | none =>
      by_cases hname : name' = name
      · simp [hname, hentry]
      · simp [hname]

theorem get?_ofTable (h : ofTable t = .ok d) (name : Text) :
    (d.get? name).map Except.ok = (t.get? name).map entryOfToml :=
  get?_insertToml h name

theorem childDir?_of_child? (h : ofTable t = .ok d) (hchild : t.child? name = some fields) :
    ∃ sub, ofTable fields = .ok sub ∧ d.childDir? name = some sub := by
  have hget := get?_ofTable h name
  rw [Table.child?_eq_some_iff.1 hchild] at hget
  obtain ⟨entry, hentry, hok⟩ := Option.map_eq_some_iff.1 hget
  obtain ⟨sub, hsub, rfl⟩ := entryOfToml_table_eq_ok_iff.1 hok.symm
  exact ⟨sub, hsub, by rw [childDir?, hentry]; rfl⟩

/-- What a value at a path stands for is at that path in the tree. -/
theorem entryAt?_of_valueAt? {path : List Text} (h : ofTable t = .ok d)
    (hv : t.valueAt? path = some v) :
    ∃ entry, entryOfToml v = .ok entry ∧ d.entryAt? path = some entry := by
  induction path generalizing t d with
  | nil => cases hv
  | cons name rest ih =>
    cases rest with
    | nil =>
      have hvalue : t.get? name = some v := hv
      have hget := get?_ofTable h name
      rw [hvalue] at hget
      obtain ⟨entry, hentry, hok⟩ := Option.map_eq_some_iff.1 hget
      exact ⟨entry, hok.symm, hentry⟩
    | cons next rest =>
      obtain ⟨fields, hchild, hrest⟩ := Option.bind_eq_some_iff.1 hv
      obtain ⟨sub, hsub, hdir⟩ := childDir?_of_child? h hchild
      obtain ⟨entry, hentry, hat⟩ := ih hsub hrest
      refine ⟨entry, hentry, ?_⟩
      show ((d.childDir? name).bind fun child => entryAt? child (next :: rest)) = some entry
      rw [hdir]
      exact hat

/-! ## Documents of tables and strings -/

theorem childDir?_ofTable (hplain : t.IsPlain) (h : ofTable t = .ok d) (name : Text) :
    (t.child? name = none ∧ d.childDir? name = none) ∨
      ∃ fields sub, t.child? name = some fields ∧ ofTable fields = .ok sub ∧
        d.childDir? name = some sub := by
  cases hchild : t.child? name with
  | some fields =>
    obtain ⟨sub, hsub, hdir⟩ := childDir?_of_child? h hchild
    exact .inr ⟨fields, sub, rfl, hsub, hdir⟩
  | none =>
    refine .inl ⟨rfl, Option.eq_none_iff_forall_ne_some.2 fun sub hsub => ?_⟩
    -- A directory of the tree stands for a value, and as the value is plain, for a table.
    obtain ⟨entry, hentry, hdir⟩ := Option.bind_eq_some_iff.1 hsub
    have hget := get?_ofTable h name
    rw [hentry, eq_comm] at hget
    obtain ⟨v, hv, hok⟩ := Option.map_eq_some_iff.1 hget
    have hvplain := hplain _ (Table.walk_of_mem (Table.mem_of_get? hv)).1
    cases entry with
    | file content => cases hdir
    | directory sub' =>
      rcases entryOfToml_eq_directory_iff.1 hok with ⟨fields, rfl, -⟩ | ⟨date, rfl, -⟩
      · rw [Table.child?_eq_some_iff.2 hv] at hchild
        cases hchild
      · cases hvplain

theorem entryAt?_ofTable (hplain : t.IsPlain) (h : ofTable t = .ok d) (path : List Text) :
    (d.entryAt? path).map Except.ok = (t.valueAt? path).map entryOfToml := by
  induction path generalizing t d with
  | nil => rfl
  | cons name rest ih =>
    cases rest with
    | nil => exact get?_ofTable h name
    | cons next rest =>
      show ((d.childDir? name).bind fun child => entryAt? child (next :: rest)).map Except.ok =
        ((t.child? name).bind fun fields => fields.valueAt? (next :: rest)).map entryOfToml
      rcases childDir?_ofTable hplain h name with ⟨hchild, hdir⟩ | ⟨fields, sub, hchild, hsub, hdir⟩
      · rw [hchild, hdir]
        rfl
      · rw [hchild, hdir]
        exact ih (hplain.child? hchild) hsub

theorem directory?_ofTable (hplain : t.IsPlain) (h : ofTable t = .ok d) (path : List Text) :
    (path.foldlM childDir? d).map Except.ok = (t.tableAt? path).map ofTable := by
  induction path generalizing t d with
  | nil =>
    show some (Except.ok d) = some (ofTable t)
    rw [h]
  | cons name rest ih =>
    rw [Table.tableAt?, List.foldlM_cons, List.foldlM_cons]
    rcases childDir?_ofTable hplain h name with ⟨hchild, hdir⟩ | ⟨fields, sub, hchild, hsub, hdir⟩
    · rw [hchild, hdir]
      rfl
    · rw [hchild, hdir]
      exact ih (hplain.child? hchild) hsub

/-- **The tree mirrors the document**: it has a file where the document has a string and a directory
where the document has a table, and in each directory the entries stand in the order of the
table. -/
structure Mirrors (d : Directory) (t : Table) : Prop where
  file : ∀ p content, d.lookup? p = some (.file content) ↔
    t.valueAt? p.segments = some (.string content)
  directory : ∀ p, (∃ sub, d.lookup? p = some (.directory sub)) ↔
    ∃ fields, t.valueAt? p.segments = some (.table fields)
  order : ∀ p, (d.directory? p).map (List.map Prod.fst) =
    (t.tableAt? p.segments).map (List.map Prod.fst)

theorem mirrors_ofTable (hplain : t.IsPlain) (h : ofTable t = .ok d) : d.Mirrors t where
  file p content := by
    have hat := entryAt?_ofTable hplain h p.segments
    constructor
    · intro hfile
      rw [show d.entryAt? p.segments = some (.file content) from hfile, eq_comm] at hat
      obtain ⟨v, hv, hok⟩ := Option.map_eq_some_iff.1 hat
      rw [hv, entryOfToml_eq_file_iff.1 hok]
    · intro hv
      obtain ⟨entry, hok, hentry⟩ := entryAt?_of_valueAt? h hv
      cases hok
      exact hentry
  directory p := by
    have hat := entryAt?_ofTable hplain h p.segments
    constructor
    · rintro ⟨sub, hsub⟩
      rw [show d.entryAt? p.segments = some (.directory sub) from hsub, eq_comm] at hat
      obtain ⟨v, hv, hok⟩ := Option.map_eq_some_iff.1 hat
      obtain ⟨name, hmem⟩ := Table.mem_walk_of_valueAt? hv
      have hvplain := hplain _ hmem
      rcases entryOfToml_eq_directory_iff.1 hok with ⟨fields, rfl, -⟩ | ⟨date, rfl, -⟩
      · exact ⟨fields, hv⟩
      · cases hvplain
    · rintro ⟨fields, hv⟩
      obtain ⟨entry, hok, hentry⟩ := entryAt?_of_valueAt? h hv
      obtain ⟨sub, -, rfl⟩ := entryOfToml_table_eq_ok_iff.1 hok
      exact ⟨sub, hentry⟩
  order p := by
    have hat := directory?_ofTable hplain h p.segments
    cases htable : t.tableAt? p.segments with
    | none =>
      rw [htable, Option.map_none, Option.map_eq_none_iff] at hat
      rw [directory?, hat]
      rfl
    | some fields =>
      rw [htable] at hat
      obtain ⟨sub, hsub, hok⟩ := Option.map_eq_some_iff.1 hat
      rw [directory?, hsub, Option.map_some, Option.map_some]
      exact congrArg some (names_insertToml hok.symm)

/-! ## All documents -/

theorem findSome?_fieldFault?_of_isPlain {fields : List (Text × Value)}
    (h : ∀ field ∈ fields, field.2.isPlain = true) :
    fields.findSome? fieldFault? =
      ((fields.map Prod.fst).findSome? nameFault?).map TreeError.entry := by
  induction fields with
  | nil => rfl
  | cons field rest ih =>
    obtain ⟨hfield, hrest⟩ := List.forall_mem_cons.1 h
    have hshape : shapeFault? field.2 = none := by
      rw [shapeFault?, if_pos (Value.isEntry_of_isPlain hfield)]
    rw [findSome?_cons_or, List.map_cons, findSome?_cons_or, ih hrest, fieldFault?, hshape,
      Option.none_or]
    cases nameFault? field.1 <;> rfl

/-- **A document of tables and strings** with distinct names in each table gives a tree that mirrors
it, unless some name in it is reserved. Then it is refused for the first such name of its walk, on
which what is inside a table comes before the name of the table. -/
theorem ofTable_mirrors (hkeys : t.Distinct) (hplain : t.IsPlain) :
    ((∃ d, ofTable t = .ok d) ↔ ∀ field ∈ t.walk, ¬ IsReserved field.1) ∧
      (∀ d, ofTable t = .ok d → d.Mirrors t) ∧
      (∀ e, ofTable t = .error e ↔
        ∃ cause, (t.walk.map Prod.fst).findSome? nameFault? = some cause ∧ e = .entry cause) ∧
      ∀ text, Toml.parse? text = some t → ofToml text = ofTable t := by
  refine ⟨?_, fun d => mirrors_ofTable hplain, fun e => ?_, fun text htext => ?_⟩
  · rw [ofTable_eq_ok_iff hkeys]
    exact forall₂_congr fun field hfield =>
      and_iff_right (Value.isEntry_of_isPlain (hplain field hfield))
  · rw [ofTable_eq_error_iff hkeys, findSome?_fieldFault?_of_isPlain hplain, Option.map_eq_some_iff]
    simp only [eq_comm]
  · rw [ofToml, htext]

/-- Hidden names are no reserved ones. Of two reserved names the inner one is reported. -/
theorem ofTable_mirrors_nested :
    let good : Table := [("z", .string "1"), ("m", .table [(".b", .string "2"), ("a", .table [])])]
    let bad : Table := [("..", .table [(".", .string "1")])]
    Toml.parse? "z = \"1\"\n[m]\n\".b\" = \"2\"\n[m.a]" = some good ∧
      good.Distinct ∧ good.IsPlain ∧
      (∃ d, ofToml "z = \"1\"\n[m]\n\".b\" = \"2\"\n[m.a]" = .ok d ∧
        d.lookup? ⟨["m", ".b"]⟩ = some (.file "2")) ∧
      Toml.parse? "[\"..\"]\n\".\" = \"1\"" = some bad ∧ bad.Distinct ∧ bad.IsPlain ∧
      ofToml "[\"..\"]\n\".\" = \"1\"" = .error (.entry (.reservedName ".")) := by
  intro good bad
  have hgood : Toml.parse? "z = \"1\"\n[m]\n\".b\" = \"2\"\n[m.a]" = some good := by cbv
  have hbad : Toml.parse? "[\"..\"]\n\".\" = \"1\"" = some bad := by cbv
  have hgoodKeys : good.Distinct := Toml.distinct_of_parse? hgood
  have hbadKeys : bad.Distinct := Toml.distinct_of_parse? hbad
  have hgoodPlain : good.IsPlain := by
    unfold Table.IsPlain
    decide
  have hbadPlain : bad.IsPlain := by
    unfold Table.IsPlain
    decide
  have hnames : ∀ field ∈ good.walk, ¬ IsReserved field.1 := by
    unfold IsReserved
    decide
  obtain ⟨hok, hmirrors, -, htext⟩ := ofTable_mirrors hgoodKeys hgoodPlain
  obtain ⟨-, -, herror, htext'⟩ := ofTable_mirrors hbadKeys hbadPlain
  obtain ⟨d, hd⟩ := hok.2 hnames
  refine ⟨hgood, hgoodKeys, hgoodPlain, ⟨d, (htext _ hgood).trans hd, ?_⟩, hbad, hbadKeys,
    hbadPlain, (htext' _ hbad).trans ?_⟩
  · exact ((hmirrors d hd).file _ _).2 rfl
  · exact (herror _).2 ⟨.reservedName ".", by decide, rfl⟩

/-- **A document gives a tree** just when all that it holds, at any depth, are strings, tables and
dates under names that are not reserved. Otherwise it is refused with the first fault of its walk.
A date is no file: it becomes a directory with one file, which holds its text. -/
theorem ofToml_eq_ok_iff {text : Text} (h : Toml.parse? text = some t) :
    ((∃ d, ofToml text = .ok d) ↔
        ∀ field ∈ t.walk, field.2.isEntry = true ∧ ¬ IsReserved field.1) ∧
      (∀ e, ofToml text = .error e ↔ t.walk.findSome? fieldFault? = some e) ∧
      ∀ d, ofToml text = .ok d → ∀ p date, t.valueAt? p.segments = some (.dateTime date) →
        d.lookup? p = some (.directory [(dateFileName, .file date.text)]) := by
  have ht : t.Distinct := Toml.distinct_of_parse? h
  have htext : ofToml text = ofTable t := by rw [ofToml, h]
  rw [htext]
  refine ⟨ofTable_eq_ok_iff ht, ofTable_eq_error_iff ht, fun d hd p date hdate => ?_⟩
  obtain ⟨entry, hok, hentry⟩ := entryAt?_of_valueAt? hd hdate
  cases hok
  exact hentry

/-- A number inside a table is reported before the reserved name of the table. -/
theorem ofToml_eq_ok_iff_number :
    let t : Table :=
      [("d", .dateTime (.date ⟨1979, 5, 27⟩)), (".", .table [("n", .integer 3)])]
    Toml.parse? "d = 1979-05-27\n[\".\"]\nn = 3" = some t ∧
      ofToml "d = 1979-05-27\n[\".\"]\nn = 3" =
        .error (.shape (.wrongType (.integer 3) entryShape)) := by
  intro t
  have hparse : Toml.parse? "d = 1979-05-27\n[\".\"]\nn = 3" = some t := by cbv
  exact ⟨hparse, ((ofToml_eq_ok_iff hparse).2.1 _).2 rfl⟩

/-- A date is neither a string nor a table, and is not refused. -/
theorem ofToml_date :
    let t : Table := [("d", .dateTime (.date ⟨1979, 5, 27⟩))]
    Toml.parse? "d = 1979-05-27" = some t ∧ (∃ field ∈ t.walk, field.2.isPlain = false) ∧
      ofToml "d = 1979-05-27" =
        .ok [("d", .directory [(dateFileName, .file "1979-05-27")])] := by
  intro t
  have hparse : Toml.parse? "d = 1979-05-27" = some t := by cbv
  refine ⟨hparse, by decide, ?_⟩
  rw [ofToml, hparse]
  rfl

end Directory

end Showcase
