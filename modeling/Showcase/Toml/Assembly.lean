import Showcase.Toml.Value

/-!
# Assembling tables

A document gives its tables piecemeal: by headers, by headers of array elements and by dotted
keys. How a table came about decides what may still be added to it.

* A table that a header or a pair of braces **stated** takes no dotted keys from outside.
* A table that is only **implied** by the header of a table inside it may still be stated, once;
  it then moves to the end of the table it is in.
* A table that **dotted** keys made takes more of them, but no header of its own.

An array of tables is open at its last element.
-/

namespace Showcase.Toml

/-- How a table came about. -/
inductive Origin where
  | stated
  | implied
  | dotted
  deriving DecidableEq, Repr

/-- A table that is not finished yet, its values, and arrays of such tables. -/
inductive Node where
  | value (v : Value)
  | table (origin : Origin) (fields : List (Text × Node))
  | tables (earlier : List (List (Text × Node))) (last : List (Text × Node))
  deriving Inhabited

/-- The fields of an unfinished table, in order of first appearance. -/
abbrev Fields := List (Text × Node)

/-- A key that may have dots: the tables on the way and the name in the last one. -/
structure Key where
  parents : List Text
  name : Text
  deriving DecidableEq, Repr

/-- The parts of the key in order. -/
def Key.parts (k : Key) : List Text := k.parents ++ [k.name]

/-- The key with these parts. -/
def Key.ofParts (first : Text) (rest : List Text) : Key :=
  { parents := (first :: rest).dropLast, name := rest.getLastD first }

namespace Fields

/-- The node of that name. -/
def get? (fields : Fields) (name : Text) : Option Node :=
  (fields.find? fun field => field.1 = name).map Prod.snd

/-- Changes the node of that name in its place, or puts a new one at the end. -/
def alter (name : Text) (change : Option Node → Option Node) : Fields → Option Fields
  | [] => (change none).map fun node => [(name, node)]
  | (other, node) :: rest =>
    if other = name then (change (some node)).map fun node => (other, node) :: rest
    else (alter name change rest).map fun rest => (other, node) :: rest

/-- Changes the table at the end of a header's path; tables on the way are implied by it. -/
def within (change : Fields → Option Fields) : List Text → Fields → Option Fields
  | [], fields => change fields
  | name :: path, fields =>
    alter name (fun
      | none => (within change path []).map (.table .implied)
      | some (.table origin inner) => (within change path inner).map (.table origin)
      | some (.tables earlier last) => (within change path last).map (.tables earlier)
      | some (.value _) => none) fields

/-- Adds a value under a dotted key. The table it goes into has to be made by dotted keys, unless
the key has no dots. -/
def add (name : Text) (v : Value) : List Text → Fields → Option Fields
  | [], fields => alter name (fun
      | none => some (.value v)
      | some _ => none) fields
  | parent :: path, fields =>
    alter parent (fun
      | none => (add name v path []).map (.table .dotted)
      | some (.table .dotted inner) => (add name v path inner).map (.table .dotted)
      | some (.table .implied inner) =>
        if path.isEmpty then none else (add name v path inner).map (.table .implied)
      | some (.tables earlier last) =>
        if path.isEmpty then none else (add name v path last).map (.tables earlier)
      | some (.table .stated _) => none
      | some (.value _) => none) fields

/-- States the table of that name: a new one, or one that was implied so far. -/
def state (name : Text) (fields : Fields) : Option Fields :=
  match fields.get? name with
  | none => some (fields ++ [(name, .table .stated [])])
  | some (.table .implied inner) =>
    some (fields.filter (fun field => field.1 ≠ name) ++ [(name, .table .stated inner)])
  | some _ => none

/-- Adds an empty element to the array of tables of that name. -/
def extend (name : Text) (fields : Fields) : Option Fields :=
  alter name (fun
    | none => some (.tables [] [])
    | some (.tables earlier last) => some (.tables (earlier ++ [last]) [])
    | some _ => none) fields

end Fields

/-! ## Finished tables -/

namespace Node

mutual

/-- The value that a finished node stands for. -/
def toValue : Node → Value
  | .value v => v
  | .table _ fields => .table (toTable fields)
  | .tables earlier last => .array (toTables earlier ++ [.table (toTable last)])
termination_by structural node => node

def toTable : List (Text × Node) → Table
  | [] => []
  | (name, node) :: rest => (name, node.toValue) :: toTable rest
termination_by structural fields => fields

def toTables : List (List (Text × Node)) → List Value
  | [] => []
  | fields :: rest => .table (toTable fields) :: toTables rest
termination_by structural tables => tables

end

end Node

/-! ## Documents -/

/-- A line of a document that says something. -/
inductive Statement where
  /-- The header of a table. -/
  | table (key : Key)
  /-- The header of an element of an array of tables. -/
  | element (key : Key)
  /-- A key and its value in the table of the last header. -/
  | pair (key : Key) (value : Value)

/-- A document up to some line: the root table, and the path of the last header. -/
structure Assembly where
  root : Fields := []
  header : List Text := []

/-- The document with one more statement, unless that contradicts what came before. -/
def Assembly.step? (a : Assembly) : Statement → Option Assembly
  | .table key => do
    pure { root := ← Fields.within (Fields.state key.name) key.parents a.root, header := key.parts }
  | .element key => do
    pure { root := ← Fields.within (Fields.extend key.name) key.parents a.root, header := key.parts }
  | .pair key v => do
    pure { a with root := ← Fields.within (Fields.add key.name v key.parents) a.header a.root }

/-- The root table of a document. -/
def assemble? (statements : List Statement) : Option Table :=
  (statements.foldlM Assembly.step? {}).map fun a => Node.toTable a.root

/-- The table of the pairs between braces. -/
def inlineTable? (pairs : List (Key × Value)) : Option Table :=
  (pairs.foldlM (fun fields pair => Fields.add pair.1.name pair.2 pair.1.parents fields) []).map
    Node.toTable

end Showcase.Toml
