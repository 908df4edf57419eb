import Mathlib.Data.List.Nodup
import Showcase.Proofs.Tree.Resolve
import Showcase.Toml.Document

/-!
# Names that occur once

A document presents its tables in pieces, and a piece may name what was named before. When all of it
is read, each table has each of its names once (`Table.Distinct`), at the place where the name came
up first.

**Reading.** A reader `Gives` values with a property if every value that it takes off a text has it.
The property of a repetition comes from that of its items, and so on up to whole documents.

**Assembling.** All changes to an unfinished table go through `Fields.alter`, which changes a node
in its place or puts a new name at the end (`names_alter`), except for a table that is stated where
it was implied before: that one is taken out and put at the end.

Main result: `distinct_of_parse?`.
-/

namespace Showcase

/-! ## What readers give -/

namespace Reader

variable {α β : Type} {P : α → Prop} {Q : β → Prop}

/-- Every value that the reader takes off a text has the property. -/
def Gives (r : Reader α) (P : α → Prop) : Prop := ∀ s a rest, r s = some (a, rest) → P a

theorem gives_any (r : Reader α) : Gives r fun _ => True := fun _ _ _ _ => trivial

theorem gives_pure {a : α} (h : P a) : Gives (pure a) P := by
  intro s a' rest hs
  cases hs
  exact h

theorem Gives.bind {r : Reader α} {f : α → Reader β} (hr : Gives r P)
    (hf : ∀ a, P a → Gives (f a) Q) : Gives (r >>= f) Q := by
  intro s b rest hs
  obtain ⟨⟨a, s'⟩, hra, hfb⟩ := Option.bind_eq_some_iff.1 hs
  exact hf a (hr s a s' hra) s' b rest hfb

theorem gives_bind {r : Reader α} {f : α → Reader β} (hf : ∀ a, Gives (f a) Q) :
    Gives (r >>= f) Q :=
  (gives_any r).bind fun a _ => hf a

theorem Gives.map {r : Reader α} {f : α → β} (hr : Gives r P) (hf : ∀ a, P a → Q (f a)) :
    Gives (f <$> r) Q :=
  hr.bind fun a ha => gives_pure (hf a ha)

theorem Gives.seqRight {r : Reader β} {r' : Reader α} (h : Gives r' P) : Gives (r *> r') P := by
  rw [seqRight_eq_bind]
  exact gives_bind fun _ => h

theorem Gives.orElse {r r' : Reader α} (h : Gives r P) (h' : Gives r' P) :
    Gives (r <|> r') P := by
  intro s a rest hs
  cases hr : r s with
  | some first =>
    have heq : (r <|> r') s = some first := by
      show (r s <|> r' s) = some first
      rw [hr]
      rfl
    rw [heq] at hs
    cases hs
    exact h s a rest hr
  | none =>
    have heq : (r <|> r') s = r' s := by
      show (r s <|> r' s) = r' s
      rw [hr]
      rfl
    rw [heq] at hs
    exact h' s a rest hs

theorem Gives.opt {r : Reader α} (h : Gives r P) : Gives (opt r) fun a? => ∀ a ∈ a?, P a :=
  (h.map fun a ha b hb => by
    cases hb
    exact ha).orElse (gives_pure nofun)

theorem Gives.many {r : Reader α} (h : Gives r P) : Gives (many r) fun as => ∀ a ∈ as, P a := by
  have hupTo (bound s : Text) : ∀ a ∈ (upTo r bound s).1, P a := by
    induction bound generalizing s with
    | nil => exact List.forall_mem_nil P
    | cons c bound ih =>
      rw [upTo]
      split
      · exact List.forall_mem_nil P
      · next a rest hr => exact List.forall_mem_cons.2 ⟨h s a rest hr, ih rest⟩
  intro s as rest hs
  have has : upTo r s s = (as, rest) := Option.some.inj hs
  have hall := hupTo s s
  rwa [has] at hall

theorem Gives.separated {r : Reader α} (h : Gives r P) (separator : Reader β) :
    Gives (separated r separator) fun as => ∀ a ∈ as, P a :=
  h.bind fun _ ha => h.seqRight.many.bind fun _ has =>
    gives_pure (List.forall_mem_cons.2 ⟨ha, has⟩)

end Reader

namespace Toml

/-! ## Distinct names -/

/-- In every table that the value is made of, each name occurs once. -/
inductive Value.Distinct : Value → Prop
  | table {fields : List (Text × Value)} (names : (fields.map Prod.fst).Nodup)
      (values : ∀ field ∈ fields, Value.Distinct field.2) : Distinct (.table fields)
  | other {v : Value} (h : ∀ fields, v ≠ .table fields) : Distinct v

/-- Each name occurs once, and so it does in the tables inside. -/
structure Table.Distinct (t : Table) : Prop where
  names : (t.map Prod.fst).Nodup
  values : ∀ field ∈ t, field.2.Distinct

/-- In every unfinished table that values will be made of, each name occurs once. -/
inductive Node.Distinct : Node → Prop
  | value {v : Value} (h : v.Distinct) : Distinct (.value v)
  | table {origin : Origin} {fields : List (Text × Node)} (names : (fields.map Prod.fst).Nodup)
      (nodes : ∀ field ∈ fields, Node.Distinct field.2) : Distinct (.table origin fields)
  | tables {earlier : List (List (Text × Node))} {last : List (Text × Node)} :
      Distinct (.tables earlier last)

structure Fields.Distinct (fields : Fields) : Prop where
  names : (fields.map Prod.fst).Nodup
  nodes : ∀ field ∈ fields, field.2.Distinct

theorem Node.distinct_table {origin : Origin} {fields : Fields} :
    Node.Distinct (.table origin fields) ↔ fields.Distinct :=
  ⟨fun h => by
    cases h with
    | table names nodes => exact ⟨names, nodes⟩, fun h => .table h.names h.nodes⟩

/-! ## Assembling -/

namespace Fields

variable {fields fields' : Fields} {name : Text}

theorem distinct_nil : Distinct [] := ⟨List.nodup_nil, nofun⟩

/-- A change keeps the names, or puts a new one at the end. -/
theorem names_alter {change : Option Node → Option Node} (h : alter name change fields = some fields') :
    fields'.map Prod.fst =
      if name ∈ fields.map Prod.fst then fields.map Prod.fst else fields.map Prod.fst ++ [name] := by
  induction fields generalizing fields' with
  | nil =>
    obtain ⟨node, -, rfl⟩ := Option.map_eq_some_iff.1 h
    rfl
  | cons field rest ih =>
    obtain ⟨other, node⟩ := field
    rw [alter] at h
    split_ifs at h with hother
    · obtain ⟨node', -, rfl⟩ := Option.map_eq_some_iff.1 h
      simp [hother]
    · obtain ⟨rest', hrest, rfl⟩ := Option.map_eq_some_iff.1 h
      simp only [List.map_cons, ih hrest, List.mem_cons, Ne.symm hother, false_or]
      split_ifs <;> rfl

/-- A node after a change is one that was there, or what one that was there, or none, became. -/
theorem mem_alter {change : Option Node → Option Node} (h : alter name change fields = some fields')
    {field : Text × Node} (hfield : field ∈ fields') :
    field ∈ fields ∨ ∃ old, change old = some field.2 ∧ ∀ node ∈ old, (name, node) ∈ fields := by
  induction fields generalizing fields' with
  | nil =>
    obtain ⟨node, hnode, rfl⟩ := Option.map_eq_some_iff.1 h
    cases List.mem_singleton.1 hfield
    exact .inr ⟨none, hnode, nofun⟩
  | cons first rest ih =>
    obtain ⟨other, node⟩ := first
    rw [alter] at h
    split_ifs at h with hother
    · obtain ⟨node', hnode, rfl⟩ := Option.map_eq_some_iff.1 h
      rcases List.mem_cons.1 hfield with rfl | hrest
      · refine .inr ⟨some node, hnode, fun n hn => ?_⟩
        cases hn
        exact hother ▸ List.mem_cons_self
      · exact .inl (List.mem_cons_of_mem _ hrest)
    · obtain ⟨rest', hrest, rfl⟩ := Option.map_eq_some_iff.1 h
      rcases List.mem_cons.1 hfield with rfl | hmem
      · exact .inl List.mem_cons_self
      · rcases ih hrest hmem with hold | ⟨old, hold, hfrom⟩
        · exact .inl (List.mem_cons_of_mem _ hold)
        · exact .inr ⟨old, hold, fun n hn => List.mem_cons_of_mem _ (hfrom n hn)⟩

theorem Distinct.concat (h : fields.Distinct) (hname : name ∉ fields.map Prod.fst) {node : Node}
    (hnode : node.Distinct) : Distinct (fields ++ [(name, node)]) where
  names := by
    rw [List.map_append]
    exact List.nodup_append.2 ⟨h.names, List.nodup_singleton name, fun a ha b hb => by
      rw [List.mem_singleton.1 hb]
      rintro rfl
      exact hname ha⟩
  nodes := List.forall_mem_append.2 ⟨h.nodes, List.forall_mem_singleton.2 hnode⟩

/-- A change leaves names distinct, if what it puts in has distinct names. -/
theorem Distinct.alter {change : Option Node → Option Node} (h : fields.Distinct)
    (hchange : ∀ old node, (∀ n ∈ old, Node.Distinct n) → change old = some node → node.Distinct)
    (halter : alter name change fields = some fields') : fields'.Distinct where
  names := by
    rw [names_alter halter]
    split_ifs with hname
    · exact h.names
    · have hnew : Distinct (fields ++ [(name, .tables [] [])]) := h.concat hname .tables
      simpa using hnew.names
  nodes field hfield := by
    rcases mem_alter halter hfield with hold | ⟨old, hnew, hfrom⟩
    · exact h.nodes field hold
    · exact hchange old field.2 (fun n hn => h.nodes _ (hfrom n hn)) hnew

/-- Inside a table, and on the way to it, a change leaves names distinct. -/
theorem Distinct.within {change : Fields → Option Fields}
    (hchange : ∀ inner inner', Distinct inner → change inner = some inner' → inner'.Distinct)
    (path : List Text) (h : fields.Distinct) (hwithin : within change path fields = some fields') :
    fields'.Distinct := by
  induction path generalizing fields fields' with
  | nil => exact hchange fields fields' h hwithin
  | cons parent path ih =>
    refine h.alter (fun old node hold hnode => ?_) hwithin
    match old with
    | none =>
      obtain ⟨inner, hinner, rfl⟩ := Option.map_eq_some_iff.1 hnode
      exact Node.distinct_table.2 (ih distinct_nil hinner)
    | some (.table origin inner) =>
      obtain ⟨inner', hinner, rfl⟩ := Option.map_eq_some_iff.1 hnode
      exact Node.distinct_table.2 (ih (Node.distinct_table.1 (hold _ rfl)) hinner)
    | some (.tables earlier last) =>
      obtain ⟨last', -, rfl⟩ := Option.map_eq_some_iff.1 hnode
      exact .tables
    | some (.value v) => cases hnode

theorem Distinct.add {v : Value} (hv : v.Distinct) (path : List Text) (h : fields.Distinct)
    (hadd : add name v path fields = some fields') : fields'.Distinct := by
  induction path generalizing fields fields' with
  | nil =>
    refine h.alter (fun old node _ hnode => ?_) hadd
    cases old with
    | none =>
      cases hnode
      exact .value hv
    | some _ => cases hnode
  | cons parent path ih =>
    refine h.alter (fun old node hold hnode => ?_) hadd
    match old with
    | none =>
      obtain ⟨inner, hinner, rfl⟩ := Option.map_eq_some_iff.1 hnode
      exact Node.distinct_table.2 (ih distinct_nil hinner)
    | some (.table .dotted inner) =>
      obtain ⟨inner', hinner, rfl⟩ := Option.map_eq_some_iff.1 hnode
      exact Node.distinct_table.2 (ih (Node.distinct_table.1 (hold _ rfl)) hinner)
    | some (.table .implied inner) =>
      dsimp only at hnode
      split_ifs at hnode
      obtain ⟨inner', hinner, rfl⟩ := Option.map_eq_some_iff.1 hnode
      exact Node.distinct_table.2 (ih (Node.distinct_table.1 (hold _ rfl)) hinner)
    | some (.tables earlier last) =>
      dsimp only at hnode
      split_ifs at hnode
      obtain ⟨last', -, rfl⟩ := Option.map_eq_some_iff.1 hnode
      exact .tables
    | some (.table .stated _) => cases hnode
    | some (.value _) => cases hnode

theorem get?_eq_none_iff : fields.get? name = none ↔ name ∉ fields.map Prod.fst := by
  rw [← Option.not_isSome_iff_eq_none, not_iff_not]
  simp [get?, List.find?_isSome]

theorem mem_of_get? {node : Node} (h : fields.get? name = some node) : (name, node) ∈ fields :=
  mem_of_find?_fst h

theorem Distinct.state (h : fields.Distinct) (hstate : state name fields = some fields') :
    fields'.Distinct := by
  rw [Fields.state] at hstate
  split at hstate
  · next hnone =>
    cases hstate
    exact h.concat (get?_eq_none_iff.1 hnone) (Node.distinct_table.2 distinct_nil)
  · next inner hinner =>
    cases hstate
    have hkept : Distinct (fields.filter fun field => field.1 ≠ name) :=
      ⟨h.names.sublist (List.filter_sublist.map _), fun field hfield =>
        h.nodes field (List.mem_of_mem_filter hfield)⟩
    refine hkept.concat ?_ (Node.distinct_table.2 (Node.distinct_table.1
      (h.nodes _ (mem_of_get? hinner))))
    simp
  · cases hstate

theorem Distinct.extend (h : fields.Distinct) (hextend : extend name fields = some fields') :
    fields'.Distinct := by
  refine h.alter (fun old node _ hnode => ?_) hextend
  match old with
  | none =>
    cases hnode
    exact .tables
  | some (.tables earlier last) =>
    cases hnode
    exact .tables
  | some (.table _ _) => cases hnode
  | some (.value _) => cases hnode

end Fields

/-! ## Finished tables -/

theorem Node.toTable_eq_map (fields : Fields) :
    toTable fields = fields.map fun field => (field.1, field.2.toValue) := by
  induction fields with
  | nil => rfl
  | cons field fields ih => rw [toTable, List.map_cons, ih]

theorem Node.Distinct.toValue {node : Node} (h : node.Distinct) : node.toValue.Distinct := by
  induction h with
  | value h =>
    rw [Node.toValue]
    exact h
  | @table origin fields names nodes ih =>
    rw [Node.toValue, toTable_eq_map]
    refine .table ?_ fun field hfield => ?_
    · rwa [List.map_map]
    · obtain ⟨source, hsource, rfl⟩ := List.mem_map.1 hfield
      exact ih source hsource
  | tables =>
    rw [Node.toValue]
    exact .other nofun

theorem Fields.Distinct.toTable {fields : Fields} (h : fields.Distinct) :
    Table.Distinct (Node.toTable fields) := by
  rw [Node.toTable_eq_map]
  refine ⟨?_, fun field hfield => ?_⟩
  · rw [List.map_map]
    exact h.names
  · obtain ⟨source, hsource, rfl⟩ := List.mem_map.1 hfield
    exact (h.nodes source hsource).toValue

/-- What a statement adds has distinct names. -/
def Statement.Distinct : Statement → Prop
  | .pair _ v => v.Distinct
  | _ => True

theorem distinct_step? {a a' : Assembly} {s : Statement} (hs : s.Distinct) (h : a.root.Distinct)
    (hstep : a.step? s = some a') : a'.root.Distinct := by
  cases s with
  | table key =>
    obtain ⟨root, hroot, hpure⟩ := Option.bind_eq_some_iff.1 hstep
    cases hpure
    exact h.within (fun _ _ hinner => hinner.state) key.parents hroot
  | element key =>
    obtain ⟨root, hroot, hpure⟩ := Option.bind_eq_some_iff.1 hstep
    cases hpure
    exact h.within (fun _ _ hinner => hinner.extend) key.parents hroot
  | pair key v =>
    obtain ⟨root, hroot, hpure⟩ := Option.bind_eq_some_iff.1 hstep
    cases hpure
    exact h.within (fun _ _ hinner => hinner.add hs key.parents) a.header hroot

theorem distinct_assemble? {statements : List Statement} (hs : ∀ s ∈ statements, s.Distinct)
    {t : Table} (h : assemble? statements = some t) : t.Distinct := by
  obtain ⟨a, ha, rfl⟩ := Option.map_eq_some_iff.1 h
  refine Fields.Distinct.toTable ?_
  exact of_foldlM_eq_some (P := fun a : Assembly => a.root.Distinct) statements
    (fun _ s hmem _ hroot => distinct_step? (hs s hmem) hroot) Fields.distinct_nil ha

theorem distinct_inlineTable? {pairs : List (Key × Value)} (hp : ∀ pair ∈ pairs, pair.2.Distinct)
    {t : Table} (h : inlineTable? pairs = some t) : t.Distinct := by
  obtain ⟨fields, hfields, rfl⟩ := Option.map_eq_some_iff.1 h
  refine Fields.Distinct.toTable ?_
  exact of_foldlM_eq_some (P := Fields.Distinct) pairs
    (fun _ pair hmem _ hroot => hroot.add (hp pair hmem) pair.1.parents) Fields.distinct_nil hfields

/-! ## Reading -/

open Reader

theorem gives_distinct_scalar : Gives scalar Value.Distinct := by
  have hother {α : Type} (r : Reader α) (f : α → Value) (hf : ∀ a fields, f a ≠ .table fields) :
      Gives (f <$> r) Value.Distinct := (gives_any r).map fun a _ => .other (hf a)
  exact (hother _ _ nofun).orElse <| (hother _ _ nofun).orElse <| (hother _ _ nofun).orElse <|
    (hother _ _ nofun).orElse (hother _ _ nofun)

theorem gives_distinct_inlineTable {item : Reader Value} (h : Gives item Value.Distinct) :
    Gives (inlineTable item) Table.Distinct := by
  have hpair : Gives (do
      let k ← key
      exactly "="
      spaces
      let v ← item
      spaces
      pure (k, v)) fun pair : Key × Value => pair.2.Distinct :=
    gives_bind fun _ => gives_bind fun _ => gives_bind fun _ => h.bind fun _ hv =>
      gives_bind fun _ => gives_pure hv
  refine gives_bind fun _ => (hpair.separated (exactly ",")).opt.bind fun pairs hpairs =>
    gives_bind fun _ => gives_bind fun _ => ?_
  intro s t rest hs
  obtain ⟨t', ht, hpure⟩ := Option.bind_eq_some_iff.1 hs
  cases hpure
  refine distinct_inlineTable? ?_ ht
  cases pairs with
  | none => exact nofun
  | some pairs => exact hpairs pairs rfl

theorem gives_distinct_value (depth : Nat) : Gives (value depth) Value.Distinct := by
  induction depth with
  | zero => exact gives_distinct_scalar
  | succ depth ih =>
    have harray : Gives (Value.array <$> array (value depth)) Value.Distinct :=
      (gives_any _).map fun _ _ => .other nofun
    have htable : Gives (Value.table <$> inlineTable (value depth)) Value.Distinct :=
      (gives_distinct_inlineTable ih).map fun _ ht => .table ht.names ht.values
    exact gives_distinct_scalar.orElse (harray.orElse htable)

theorem gives_distinct_line : Gives line fun s? => ∀ s ∈ s?, Statement.Distinct s := by
  have helement : Gives elementHeader Statement.Distinct :=
    gives_bind fun _ => gives_bind fun _ => gives_bind fun _ => gives_pure trivial
  have htable : Gives tableHeader Statement.Distinct :=
    gives_bind fun _ => gives_bind fun _ => gives_bind fun _ => gives_pure trivial
  have hpair : Gives pair Statement.Distinct :=
    gives_bind fun _ => gives_bind fun _ => gives_bind fun _ =>
      (gives_distinct_value _).bind fun _ hv => gives_pure hv
  exact gives_bind fun _ => (helement.orElse (htable.orElse hpair)).opt.bind fun _ hs =>
    gives_bind fun _ => gives_bind fun _ => gives_pure hs

theorem gives_distinct_statements : Gives statements fun ss => ∀ s ∈ ss, s.Distinct := by
  have hline : Gives (do let s ← line; newline; pure s) fun s? => ∀ s ∈ s?, Statement.Distinct s :=
    gives_distinct_line.bind fun _ hs => gives_bind fun _ => gives_pure hs
  refine gives_bind fun _ => hline.many.bind fun lines hlines =>
    gives_distinct_line.bind fun last hlast => gives_pure fun s hs => ?_
  obtain ⟨s?, hmem, hsome⟩ := List.mem_filterMap.1 hs
  rcases List.mem_append.1 hmem with hmem | hmem
  · exact hlines s? hmem s hsome
  · rw [List.mem_singleton.1 hmem] at hsome
    exact hlast s hsome

/-- In a document that was read, each table has each of its names once. -/
theorem distinct_of_parse? {text : Text} {t : Table} (h : parse? text = some t) : t.Distinct := by
  obtain ⟨ss, hread, hassemble⟩ := Option.bind_eq_some_iff.1 h
  refine distinct_assemble? ?_ hassemble
  rw [readAll?] at hread
  split at hread
  · next ss' hss =>
    cases hread
    exact gives_distinct_statements text ss [] hss
  · cases hread

end Toml

end Showcase
