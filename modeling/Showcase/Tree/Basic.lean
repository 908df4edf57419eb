import Showcase.Text.Basic

/-!
# File trees

A directory is a list of named entries in the order in which they were put in; an entry is a file
with its content or a directory again. A tree is its root directory.

**Building.** `Directory.insert` is the only way to grow a directory: it refuses the empty name,
`.` and `..`, and a name that is taken, and otherwise appends. `Directory.insertAll` builds
whole trees with it. `Directory.grow` does the same to a directory that stays in hand, and keeps it
as it was when it refuses (`Directory.grow_eq`).

**Hiding.** A name that starts with a full stop is hidden from plain listings.
-/

namespace Showcase

/-- A file, or a directory with its entries. -/
inductive Entry where
  | file (content : Text)
  | directory (entries : List (Text × Entry))
  deriving Repr, Inhabited

/-- The named entries of a directory, oldest first. -/
abbrev Directory := List (Text × Entry)

namespace Entry

def isDirectory : Entry → Bool
  | .file _ => false
  | .directory _ => true

def asDirectory? : Entry → Option Directory
  | .file _ => none
  | .directory d => some d

def asFile? : Entry → Option Text
  | .file content => some content
  | .directory _ => none

theorem asDirectory?_eq_some_iff {entry : Entry} {d : Directory} :
    entry.asDirectory? = some d ↔ entry = .directory d := by
  cases entry <;> simp [asDirectory?]

end Entry

/-- Why an entry was not put into a directory. -/
inductive EntryError where
  | emptyName
  /-- The names `.` and `..` stand for directories already. -/
  | reservedName (name : Text)
  | duplicate (name : Text)
  deriving DecidableEq, Repr

def EntryError.message : EntryError → Text
  | .emptyName => "config error: entry name must not be empty"
  | .reservedName name => "config error: reserved entry name: ".toList ++ name
  | .duplicate name => "config error: duplicate entry: ".toList ++ name

/-- A name that plain listings leave out. -/
def isHidden (name : Text) : Bool := name.head? == some '.'

theorem isHidden_iff {name : Text} : isHidden name = true ↔ ".".toList <+: name := by
  cases name with
  | nil => simp [isHidden]
  | cons c rest =>
    show (some c == some '.') = true ↔ ['.'] <+: c :: rest
    rw [beq_iff_eq, Option.some.injEq, List.cons_prefix_cons, and_iff_left List.nil_prefix, eq_comm]

namespace Directory

/-- The entry of that name. -/
def get? (d : Directory) (name : Text) : Option Entry :=
  (d.find? fun entry => entry.1 = name).map Prod.snd

/-- The directory of that name. -/
def childDir? (d : Directory) (name : Text) : Option Directory :=
  (d.get? name).bind Entry.asDirectory?

/-- The content of the file of that name. -/
def file? (d : Directory) (name : Text) : Option Text := (d.get? name).bind Entry.asFile?

/-- The entries in order, without the hidden ones unless asked for. -/
def listing (d : Directory) (showHidden : Bool) : List (Text × Entry) :=
  d.filter fun entry => showHidden || !isHidden entry.1

/-- Puts a new entry at the end, unless its name is reserved or taken. -/
def insert (d : Directory) (name : Text) (entry : Entry) : Except EntryError Directory :=
  if name = "".toList then .error .emptyName
  else if name = ".".toList ∨ name = "..".toList then .error (.reservedName name)
  else if (d.get? name).isSome then .error (.duplicate name)
  else .ok (d ++ [(name, entry)])

/-- Puts a new entry at the end of the directory in hand, unless its name is reserved or taken. -/
def put (name : Text) (entry : Entry) : ExceptT EntryError (StateM Directory) Unit := do
  if name = "".toList then throw .emptyName
  if name = ".".toList ∨ name = "..".toList then throw (.reservedName name)
  if ((← get).get? name).isSome then throw (.duplicate name)
  modify fun d => d ++ [(name, entry)]

/-- The answer to an insertion in place, and the directory after it. -/
def grow (d : Directory) (name : Text) (entry : Entry) : Except EntryError Unit × Directory :=
  (put name entry).run.run d

/-- The directory with one more file in it. -/
def withFile (d : Directory) (name content : Text) : Except EntryError Directory :=
  d.insert name (.file content)

/-- The directory with one more directory in it. -/
def withDirectory (d : Directory) (name : Text) (inside : Directory) :
    Except EntryError Directory :=
  d.insert name (.directory inside)

theorem get?_nil (name : Text) : get? [] name = none := rfl

theorem get?_cons (n : Text) (e : Entry) (d : Directory) (name : Text) :
    get? ((n, e) :: d) name = if n = name then some e else get? d name := by
  by_cases h : n = name <;> simp [get?, h]

theorem get?_append (d d' : Directory) (name : Text) :
    get? (d ++ d') name = (get? d name).or (get? d' name) := by
  induction d with
  | nil => simp [get?_nil]
  | cons entry d ih =>
    obtain ⟨n, e⟩ := entry
    rw [List.cons_append, get?_cons, get?_cons, ih]
    split <;> rfl

theorem get?_isSome_iff {d : Directory} {name : Text} :
    (d.get? name).isSome = true ↔ name ∈ d.map Prod.fst := by
  simp [get?, List.find?_isSome]

theorem listing_true (d : Directory) : d.listing true = d := by simp [listing]

/-- Without the hidden ones the entries keep their order. -/
theorem listing_false (d : Directory) :
    d.listing false = (d.listing true).filter fun entry => ¬ ".".toList <+: entry.1 := by
  rw [listing_true, listing]
  refine List.filter_congr fun entry _ => ?_
  rw [Bool.false_or, Bool.eq_iff_iff, decide_eq_true_iff, ← isHidden_iff, Bool.not_eq_true',
    Bool.not_eq_true]

theorem eq_append_of_insert {d d' : Directory} {name : Text} {entry : Entry}
    (h : d.insert name entry = .ok d') : d' = d ++ [(name, entry)] := by
  unfold insert at h
  split at h
  · cases h
  · split at h
    · cases h
    · split at h
      · cases h
      · exact (Except.ok.inj h).symm

/-- Growing in place is insertion, and what is refused leaves the directory as it was. -/
theorem grow_eq (d : Directory) (name : Text) (entry : Entry) :
    d.grow name entry =
      match d.insert name entry with
      | .ok d' => (.ok (), d')
      | .error e => (.error e, d) := by
  unfold grow put insert
  by_cases hempty : name = "".toList
  · rw [if_pos hempty, if_pos hempty]
    rfl
  by_cases hdots : name = ".".toList ∨ name = "..".toList
  · rw [if_neg hempty, if_neg hempty, if_pos hdots, if_pos hdots]
    rfl
  rw [if_neg hempty, if_neg hempty, if_neg hdots, if_neg hdots]
  -- The name is fine as such, so the directory in hand is asked whether it is taken.
  show (if (d.get? name).isSome then throw (.duplicate name)
    else modify fun d => d ++ [(name, entry)] :
      ExceptT EntryError (StateM Directory) Unit).run.run d = _
  by_cases htaken : (d.get? name).isSome
  · rw [if_pos htaken, if_pos htaken]
    rfl
  · rw [if_neg htaken, if_neg htaken]
    rfl

mutual

/-- The entry with every directory in it built anew by insertion. -/
def rebuild : Entry → Except EntryError Entry
  | .file content => .ok (.file content)
  | .directory entries => (insertAll [] entries).map .directory
termination_by structural entry => entry

/-- Puts entries into a directory one by one, the inside of each before the entry itself. -/
def insertAll (d : Directory) : List (Text × Entry) → Except EntryError Directory
  | [] => .ok d
  | (name, entry) :: rest => do
    let entry ← rebuild entry
    let d ← insert d name entry
    insertAll d rest
termination_by structural entries => entries

end

end Directory

end Showcase
