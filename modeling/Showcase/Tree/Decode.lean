import Showcase.Toml.Document
import Showcase.Toml.Shape
import Showcase.Tree.Basic

/-!
# Trees from TOML

A table is a directory and a string is a file; a date is a directory with one file that holds its
text. Everything else is refused. Entries keep the order of the document, and what is inside an
entry is read before its name is checked.
-/

namespace Showcase

/-- Why a document gives no tree. -/
inductive TreeError where
  /-- The text is not TOML. -/
  | malformed
  | shape (cause : Toml.ShapeError)
  | entry (cause : EntryError)

/-- The name of the file that stands for a date. -/
def dateFileName : Text := "$__toml_private_datetime"

/-- What an entry of a tree has to be. -/
def entryShape : Text := "a string (file) or a table (directory)"

namespace Directory

mutual

/-- The entry that a value stands for. -/
def entryOfToml : Toml.Value → Except TreeError Entry
  | .string content => .ok (.file content)
  | .table fields => (insertToml [] fields).map .directory
  | .dateTime d => .ok (.directory [(dateFileName, .file d.text)])
  | .integer i => .error (.shape (.wrongType (.integer i) entryShape))
  | .float x => .error (.shape (.wrongType (.float x) entryShape))
  | .boolean b => .error (.shape (.wrongType (.boolean b) entryShape))
  | .array items => .error (.shape (.wrongType (.array items) entryShape))
termination_by structural v => v

/-- Puts the entries of a table into a directory one by one. -/
def insertToml (d : Directory) : List (Text × Toml.Value) → Except TreeError Directory
  | [] => .ok d
  | (name, v) :: rest => do
    let entry ← entryOfToml v
    let d ← (d.insert name entry).mapError .entry
    insertToml d rest
termination_by structural fields => fields

end

theorem entryOfToml_eq_file_iff {v : Toml.Value} {content : Text} :
    entryOfToml v = .ok (.file content) ↔ v = .string content := by
  cases v with
  | table fields => cases h : insertToml [] fields <;> simp [entryOfToml, h, Except.map]
  | _ => simp [entryOfToml]

theorem entryOfToml_table_eq_ok_iff {fields : List (Text × Toml.Value)} {entry : Entry} :
    entryOfToml (.table fields) = .ok entry ↔
      ∃ sub, insertToml [] fields = .ok sub ∧ entry = .directory sub := by
  cases h : insertToml [] fields <;> simp [entryOfToml, h, Except.map, eq_comm]

/-- A value stands for a directory if it is a table whose entries can be put into one, or a date. -/
theorem entryOfToml_eq_directory_iff {v : Toml.Value} {sub : Directory} :
    entryOfToml v = .ok (.directory sub) ↔
      (∃ fields, v = .table fields ∧ insertToml [] fields = .ok sub) ∨
        ∃ d, v = .dateTime d ∧ sub = [(dateFileName, .file d.text)] := by
  cases v with
  | table fields => cases h : insertToml [] fields <;> simp [entryOfToml, h, Except.map]
  | dateTime d => simp [entryOfToml, eq_comm]
  | _ => simp [entryOfToml]

theorem insertToml_cons_eq_ok_iff {d d' : Directory} {name : Text} {v : Toml.Value}
    {rest : List (Text × Toml.Value)} :
    insertToml d ((name, v) :: rest) = .ok d' ↔
      ∃ entry d₁, entryOfToml v = .ok entry ∧ d.insert name entry = .ok d₁ ∧
        insertToml d₁ rest = .ok d' := by
  rw [insertToml]
  cases entryOfToml v with
  | error e => simp [bind, Except.bind]
  | ok entry =>
    show ((d.insert name entry).mapError .entry >>= fun d => insertToml d rest) = .ok d' ↔ _
    cases hnew : d.insert name entry with
    | error cause =>
      show Except.error (TreeError.entry cause) = .ok d' ↔ _
      simp [hnew]
    | ok d₁ =>
      show insertToml d₁ rest = .ok d' ↔ _
      simp [hnew]

/-- The directory that a table stands for. -/
def ofTable (t : Toml.Table) : Except TreeError Directory := insertToml [] t

/-- The tree that a TOML text describes. -/
def ofToml (text : Text) : Except TreeError Directory :=
  match Toml.parse? text with
  | none => .error .malformed
  | some t => ofTable t

end Directory

end Showcase
