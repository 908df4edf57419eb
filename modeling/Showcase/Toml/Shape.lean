import Showcase.Text.Quoted
import Showcase.Toml.Value

/-!
# Values of the wrong shape

A well-formed document may still hold other values than are wanted. `ShapeError` says what was
found and what was expected; the readers below take a value of one shape or fail with it.
-/

namespace Showcase.Toml

/-- What was found in place of what was expected. -/
inductive ShapeError where
  | wrongType (found : Value) (expected : Text)
  /-- A negative number where none is allowed. -/
  | negative (found : Int) (expected : Text)

/-- A number as it is shown in messages. -/
private def shownInteger (i : Int) : Text := "integer `".toList ++ signedDecimal i ++ "`".toList

/-- A value as it is shown in messages; a date counts as a table. -/
def Value.shown : Value → Text
  | .string s => "string ".toList ++ quoted s
  | .integer i => shownInteger i
  | .float x => "floating point `".toList ++ x.text ++ "`".toList
  | .boolean b => if b then "boolean `true`" else "boolean `false`"
  | .dateTime _ => "map"
  | .array _ => "sequence"
  | .table _ => "map"

def ShapeError.message : ShapeError → Text
  | .wrongType found expected =>
    "invalid type: ".toList ++ found.shown ++ ", expected ".toList ++ expected
  | .negative found expected =>
    "invalid value: ".toList ++ shownInteger found ++ ", expected ".toList ++ expected

namespace Value

/-- A string, which the message calls by the given words if it is missing. -/
def asString (v : Value) (expected : Text) : Except ShapeError Text :=
  match v with
  | .string s => .ok s
  | other => .error (.wrongType other expected)

/-- A natural number. -/
def asNatural (v : Value) (expected : Text) : Except ShapeError Nat :=
  match v with
  | .integer i => if i < 0 then .error (.negative i expected) else .ok i.toNat
  | other => .error (.wrongType other expected)

/-- Named values: the fields of a table, or the items of an array under the given names in order,
as many as there are of both. A date is a table without any of the names. -/
def asFields (v : Value) (names : List Text) (expected : Text) : Except ShapeError Table :=
  match v with
  | .table fields => .ok fields
  | .array items => .ok (names.zip items)
  | .dateTime _ => .ok []
  | other => .error (.wrongType other expected)

end Value

end Showcase.Toml
