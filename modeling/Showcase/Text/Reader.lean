import Showcase.Text.Basic

/-!
# Readers

A reader takes a value off the front of a text, or fails and takes nothing. Readers are tried one
after the other with `<|>`, and the next one starts where the first one did.

`Reader.many` repeats a reader for as long as it succeeds, at most once per character of the text.
That is no limit to a reader that takes at least one character each time, as all do here.
-/

namespace Showcase

/-- Takes a value off the front of a text. -/
abbrev Reader := StateT Text Option

namespace Reader

variable {α β : Type}

/-- One character that is accepted. -/
def satisfy (accept : Char → Bool) : Reader Char
  | [] => none
  | c :: rest => if accept c then some (c, rest) else none

/-- Exactly this text. -/
def exactly (t : Text) : Reader Unit := fun s => (Text.stripStart? t s).map fun rest => ((), rest)

/-- The longest run of accepted characters, which may be empty. -/
def run (accept : Char → Bool) : Reader Text := fun s =>
  some (s.takeWhile accept, s.dropWhile accept)

/-- The longest run of accepted characters, of at least one. -/
def run₁ (accept : Char → Bool) : Reader Text := do
  let first ← satisfy accept
  let rest ← run accept
  pure (first :: rest)

/-- The value if there is one; nothing is taken otherwise. -/
def opt (r : Reader α) : Reader (Option α) := (some <$> r) <|> pure none

/-- Values from the front of the second text, at most one per character of the first, and what is
left after the last one. -/
def upTo (r : Reader α) : Text → Text → List α × Text
  | [], s => ([], s)
  | _ :: bound, s =>
    match r s with
    | none => ([], s)
    | some (a, rest) =>
      let (as, rest) := upTo r bound rest
      (a :: as, rest)

/-- As many values as there are. -/
def many (r : Reader α) : Reader (List α) := fun s => some (upTo r s s)

/-- At least one value. -/
def many₁ (r : Reader α) : Reader (List α) := do
  let first ← r
  let rest ← many r
  pure (first :: rest)

/-- At least one value, with a separator between neighbours. -/
def separated (r : Reader α) (separator : Reader β) : Reader (List α) := do
  let first ← r
  let rest ← many (separator *> r)
  pure (first :: rest)

/-- The value of the whole text. -/
def readAll? (r : Reader α) (s : Text) : Option α :=
  match r s with
  | some (a, []) => some a
  | _ => none

end Reader

end Showcase
