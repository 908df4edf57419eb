import Showcase.Toml.Assembly
import Showcase.Toml.Scalar

/-!
# Reading documents

A document is read line by line into statements, which are then assembled to its root table.
Values may hold each other 79 deep, and a key may have 79 parts; what goes further is refused.

The depth that is left is the argument on which `value` recurs, so nesting is all that it can run
out of.
-/

namespace Showcase.Toml

open Reader

/-- The depth at which nested values are refused. -/
def nestingLimit : Nat := 80

/-! ## Keys -/

/-- A character of a key that is written without quotes. -/
def isBareKey (c : Char) : Bool := c.isAlphanum || c == '_' || c == '-'

/-- One part of a key, with the spaces around it. -/
def keyPart : Reader Text := do
  spaces
  let name ← quotedString <|> run₁ isBareKey
  spaces
  pure name

/-- A key: its parts with dots between them. -/
def key : Reader Key := do
  let first ← keyPart
  let rest ← many (do exactly "."; keyPart)
  if rest.length + 1 < nestingLimit then pure (Key.ofParts first rest) else failure

/-! ## Values -/

/-- Values in brackets, on any number of lines, with or without a comma after the last one. -/
def array (item : Reader Value) : Reader (List Value) := do
  exactly "["
  let items ← opt do
    let items ← separated (do gap; let v ← item; gap; pure v) (exactly ",")
    let _ ← opt (exactly ",")
    pure items
  gap
  exactly "]"
  pure (items.getD [])

/-- Keys and values in braces, on one line. -/
def inlineTable (item : Reader Value) : Reader Table := do
  exactly "\x7b"
  let pairs ← opt (separated
    (do
      let k ← key
      exactly "="
      spaces
      let v ← item
      spaces
      pure (k, v))
    (exactly ","))
  spaces
  exactly "\x7d"
  StateT.lift (inlineTable? (pairs.getD []))

/-- A value in which others are nested to at most the given depth. -/
def value : Nat → Reader Value
  | 0 => scalar
  | depth + 1 =>
    scalar <|> Value.array <$> array (value depth) <|> Value.table <$> inlineTable (value depth)

/-! ## Lines -/

def tableHeader : Reader Statement := do
  exactly "["
  let k ← key
  exactly "]"
  pure (.table k)

def elementHeader : Reader Statement := do
  exactly "[["
  let k ← key
  exactly "]]"
  pure (.element k)

def pair : Reader Statement := do
  let k ← key
  exactly "="
  spaces
  let v ← value (nestingLimit - 1)
  pure (.pair k v)

/-- A line without its end, which may be blank or a comment. -/
def line : Reader (Option Statement) := do
  spaces
  let s ← opt (elementHeader <|> tableHeader <|> pair)
  spaces
  let _ ← opt comment
  pure s

/-- All statements of a document, after a byte order mark if there is one. -/
def statements : Reader (List Statement) := do
  let _ ← opt (exactly "\uFEFF")
  let lines ← many (do let s ← line; newline; pure s)
  let last ← line
  pure ((lines ++ [last]).filterMap id)

/-- The root table of a document, if its text is well formed. -/
def parse? (text : Text) : Option Table := (readAll? statements text).bind assemble?

end Showcase.Toml
