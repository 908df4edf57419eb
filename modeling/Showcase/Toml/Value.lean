import Showcase.Decimal.Shortest
import Showcase.Toml.DateTime

/-!
# TOML values

What a TOML document means: a table of named values. The fields of a table stand in document
order, and each name occurs once.
-/

namespace Showcase.Toml

inductive Value where
  | string (s : Text)
  | integer (i : Int)
  | float (x : Binary64)
  | boolean (b : Bool)
  | dateTime (d : DateTime)
  | array (items : List Value)
  | table (fields : List (Text × Value))
  deriving Repr, Inhabited

/-- The named values of a table, in document order. -/
abbrev Table := List (Text × Value)

end Showcase.Toml
