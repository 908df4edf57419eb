import Mathlib.Data.List.Nodup
import Showcase.Proofs.Tree.Built

/-!
# The names in a directory

**What can be made** (`Grown`). A directory is made entry by entry, in place or as a new value, or
read from a text, and so is each directory that is put into it. At every level the names are then
distinct and none of them is reserved (`WellNamed`), and there is no other restriction: whatever has
such names can be made.

**What an insertion does** (`Inserts`). It is refused for a reserved or a taken name, and only then,
and leaves the directory as it was. Otherwise there is one entry more, at the end of the listing.

Main result: `grown_iff_wellNamed_and_inserts`.
-/

namespace Showcase.Directory

variable {d d' : Directory} {name : Text} {entry : Entry}

/-! ## What can be made -/

/-- The directories that can be made. In place it does not matter whether an entry was refused. -/
inductive Grown : Directory → Prop
  | empty : Grown []
  | grow {d : Directory} {name : Text} {entry : Entry} (old : Grown d)
      (inside : ∀ sub : Directory, entry = .directory sub → Grown sub) :
      Grown (d.grow name entry).2
  | withFile {d d' : Directory} {name content : Text} (old : Grown d)
      (new : d.withFile name content = .ok d') : Grown d'
  | withDirectory {d d' sub : Directory} {name : Text} (old : Grown d) (inside : Grown sub)
      (new : d.withDirectory name sub = .ok d') : Grown d'
  | read {d : Directory} {text : Text} (h : ofToml text = .ok d) : Grown d

/-- At every level the names are distinct and none of them is reserved. -/
inductive WellNamed : Directory → Prop
  | intro {d : Directory} (distinct : (d.map Prod.fst).Nodup)
      (free : ∀ name ∈ d.map Prod.fst, ¬ IsReserved name)
      (inside : ∀ name, ∀ sub : Directory, (name, .directory sub) ∈ d → WellNamed sub) :
      WellNamed d

theorem Grown.built (h : d.Grown) : d.Built := by
  induction h with
  | empty => exact .empty
  | @grow d name entry _ _ hold hinside =>
    rw [grow_eq]
    cases hnew : d.insert name entry with
    | error e => exact hold
    | ok d' => exact .insert hold hinside hnew
  | withFile _ new hold => exact hold.insert_file new
  | withDirectory _ _ new hold hinside => exact hold.insert_directory hinside new
  | read h => exact built_of_ofToml h

theorem nodup_names_concat_iff :
    ((d ++ [(name, entry)]).map Prod.fst).Nodup ↔
      name ∉ d.map Prod.fst ∧ (d.map Prod.fst).Nodup := by
  rw [List.map_append, ← List.nodup_concat, List.concat_eq_append]
  rfl

/-- One insertion keeps the names distinct and free at every level. -/
theorem WellNamed.insert (hd : d.WellNamed)
    (hinside : ∀ sub : Directory, entry = .directory sub → sub.WellNamed)
    (new : d.insert name entry = .ok d') : d'.WellNamed := by
  obtain ⟨hname, hnew, rfl⟩ := insert_eq_ok_iff.1 new
  obtain ⟨distinct, free, inside⟩ := hd
  refine .intro (nodup_names_concat_iff.2 ⟨hnew, distinct⟩) ?_ ?_
  · rw [List.map_append]
    exact List.forall_mem_append.2 ⟨free, List.forall_mem_singleton.2 hname⟩
  · intro name' sub hmem
    rcases List.mem_append.1 hmem with hold | hlast
    · exact inside name' sub hold
    · cases List.mem_singleton.1 hlast
      exact hinside sub rfl

theorem Built.wellNamed (h : d.Built) : d.WellNamed := by
  induction h with
  | empty => exact .intro List.nodup_nil (List.forall_mem_nil _) nofun
  | insert _ _ new hold hinside => exact hold.insert hinside new

theorem grow_of_new (hname : ¬ IsReserved name) (hnew : name ∉ d.map Prod.fst) (entry : Entry) :
    d.grow name entry = (.ok (), d ++ [(name, entry)]) := by
  rw [grow_eq, insert_eq_ok_iff.2 ⟨hname, hnew, rfl⟩]

/-- Entries with distinct and free names are put in one after the other. -/
theorem grown_of_names (distinct : (d.map Prod.fst).Nodup)
    (free : ∀ name ∈ d.map Prod.fst, ¬ IsReserved name)
    (inside : ∀ name, ∀ sub : Directory, (name, .directory sub) ∈ d → Grown sub) : d.Grown := by
  -- An entry is put in when those in front of it are there already.
  induction d using List.reverseRecOn with
  | nil => exact .empty
  | append_singleton d last ih =>
    obtain ⟨name, entry⟩ := last
    obtain ⟨hnew, distinct⟩ := nodup_names_concat_iff.1 distinct
    rw [List.map_append] at free
    obtain ⟨free, hname⟩ := List.forall_mem_append.1 free
    have hold : Grown d :=
      ih distinct free fun name' sub hmem => inside name' sub (List.mem_append_left _ hmem)
    have hinside : ∀ sub : Directory, entry = .directory sub → sub.Grown := by
      rintro sub rfl
      exact inside name sub (List.mem_append_right _ (List.mem_singleton_self _))
    have hgrown : Grown (grow d name entry).2 := hold.grow hinside
    rwa [grow_of_new (hname name (List.mem_singleton_self _)) hnew] at hgrown

/-- Whatever has such names is made from the inside. -/
theorem WellNamed.grown (h : d.WellNamed) : d.Grown := by
  induction h with
  | intro distinct free _ hinside => exact grown_of_names distinct free hinside

/-! ## What an insertion does -/

/-- What an insertion answers, and what the directory is after it. -/
structure Inserts (d : Directory) (name : Text) (entry : Entry) (answer : Except EntryError Unit)
    (after : Directory) : Prop where
  refused_iff : (∃ e, answer = .error e) ↔ IsReserved name ∨ name ∈ d.map Prod.fst
  kept : (∃ e, answer = .error e) → after = d
  found : answer = .ok () → after.get? name = some entry
  others : ∀ other, other ≠ name → after.get? other = d.get? other
  listed : answer = .ok () → after.listing true = d.listing true ++ [(name, entry)]

theorem inserts_of_error (hname : IsReserved name ∨ name ∈ d.map Prod.fst) (e : EntryError) :
    d.Inserts name entry (.error e) d where
  refused_iff := iff_of_true ⟨e, rfl⟩ hname
  kept _ := rfl
  found := nofun
  others _ _ := rfl
  listed := nofun

theorem inserts_concat (hname : ¬ IsReserved name) (hnew : name ∉ d.map Prod.fst) :
    d.Inserts name entry (.ok ()) (d ++ [(name, entry)]) where
  refused_iff := iff_of_false nofun (not_or.2 ⟨hname, hnew⟩)
  kept := nofun
  found _ := by
    have hnone : d.get? name = none := Option.not_isSome_iff_eq_none.1 (get?_isSome_iff.not.2 hnew)
    rw [get?_append, hnone, Option.none_or, get?_cons, if_pos rfl]
  others other hother := by
    rw [get?_append, get?_cons, if_neg (Ne.symm hother), get?_nil, Option.or_none]
  listed _ := by rw [listing_true, listing_true]

/-- An insertion in place is refused for its name only. -/
theorem inserts_grow (d : Directory) (name : Text) (entry : Entry) :
    d.Inserts name entry (d.grow name entry).1 (d.grow name entry).2 := by
  by_cases hname : IsReserved name ∨ name ∈ d.map Prod.fst
  · rw [grow_eq]
    cases hnew : d.insert name entry with
    | error e => exact inserts_of_error hname e
    | ok d' =>
      obtain ⟨hfree, hother, -⟩ := insert_eq_ok_iff.1 hnew
      exact absurd hname (not_or.2 ⟨hfree, hother⟩)
  · obtain ⟨hfree, hnew⟩ := not_or.1 hname
    rw [grow_of_new hfree hnew]
    exact inserts_concat hfree hnew

/-- **The directories that can be made** are those with distinct names at every level, none of them
reserved. An insertion is refused for a reserved or a taken name, and then leaves the directory as it
was; otherwise the entry is found under its name and stands at the end of the listing, and nothing
else has changed. A listing without the hidden entries is the full one less the names with a full
stop in front. -/
theorem grown_iff_wellNamed_and_inserts (d : Directory) :
    (d.Grown ↔ d.WellNamed) ∧
      (∀ name entry, d.Inserts name entry (d.grow name entry).1 (d.grow name entry).2) ∧
      d.listing false = (d.listing true).filter fun entry => ¬ ".".toList <+: entry.1 :=
  ⟨⟨fun h => h.built.wellNamed, WellNamed.grown⟩, inserts_grow d, listing_false d⟩

/-- The second file of a name is refused, and the first one stays. -/
example :
    let d : Directory := [("a", .file "1")]
    d.grow "a" (.file "2") = ⟨.error (.duplicate "a"), d⟩ := rfl

end Showcase.Directory
