import Showcase.Text.Reader
import Showcase.Toml.Value

/-!
# Reading scalars

Readers for the values of TOML that hold no other values: strings in their four notations,
integers, floats, booleans, dates and times; and for the blanks, comments and newlines around
them.

A reader stops where its notation ends. Whatever follows has to be accepted by its surroundings,
so `1979-05` fails as an integer with something left over.
-/

namespace Showcase.Toml

open Reader

/-! ## Around the values -/

/-- A space or a tab. -/
def isSpace (c : Char) : Bool := c == ' ' || c == '\t'

/-- Spaces and tabs, or nothing. -/
def spaces : Reader Unit := do let _ ← run isSpace

/-- A line feed, or a carriage return and a line feed. -/
def newline : Reader Unit := exactly "\n" <|> exactly "\r\n"

/-- A character that may stand in a comment or in a string: a tab, or no control character. -/
def isPlain (c : Char) : Bool := c == '\t' || (0x20 ≤ c.toNat && c.toNat ≠ 0x7F)

/-- A number sign and the rest of the line. -/
def comment : Reader Unit := do
  exactly "#"
  let _ ← run isPlain

/-- Spaces, newlines and whole comments, or nothing. -/
def gap : Reader Unit := do
  let _ ← many ((do let _ ← run₁ isSpace) <|> newline <|> (do comment; newline))

/-! ## Strings -/

/-- The character of a code point in base sixteen, unless it is a surrogate or too large. -/
def codePoint (width : Nat) : Reader Char := fun s =>
  match (s.take width).mapM hexDigit? with
  | none => none
  | some digits =>
    let n := ofDigits 16 digits
    if digits.length = width ∧ n.isValidChar then some (Char.ofNat n, s.drop width) else none

/-- The character that stands for itself after a backslash, or a control character by letter. -/
def escapedLetter? (c : Char) : Option Char :=
  [('b', '\x08'), ('f', '\x0c'), ('n', '\n'), ('r', '\r'), ('t', '\t'), ('"', '"'),
    ('\\', '\\')].lookup c

/-- An escape sequence of a basic string. -/
def escape : Reader Char := do
  exactly "\\"
  let c ← satisfy fun _ => true
  if c = 'u' then codePoint 4
  else if c = 'U' then codePoint 8
  else StateT.lift (escapedLetter? c)

/-- A character of a basic string that stands for itself. -/
def unescaped : Reader Char := satisfy fun c => isPlain c && c != '"' && c != '\\'

def basicString : Reader Text := do
  exactly "\""
  let s ← many (unescaped <|> escape)
  exactly "\""
  pure s

def literalString : Reader Text := do
  exactly "'"
  let s ← run fun c => isPlain c && c != '\''
  exactly "'"
  pure s

/-- A backslash at the end of a line, with all blanks and newlines that follow it. -/
def lineContinuation : Reader Text := do
  exactly "\\"
  spaces
  newline
  let _ ← many ((do let _ ← run₁ isSpace) <|> newline)
  pure []

/-- One or two quotes, which do not end a string on several lines. -/
def fewQuotes (quote : Char) : Reader Text := do
  let quotes ← run (· == quote)
  if quotes.length = 1 ∨ quotes.length = 2 then pure quotes else failure

/-- A string on several lines, from its parts between quotes. Three quotes end it; up to two more
directly before them belong to the string. A newline right after the start does not. -/
def multiline (quote : Char) (part : Reader Text) : Reader Text := do
  exactly [quote, quote, quote]
  let _ ← opt newline
  let parts ← many (part <|> fewQuotes quote)
  let quotes ← run (· == quote)
  if 3 ≤ quotes.length ∧ quotes.length ≤ 5 then pure (parts.flatten ++ quotes.drop 3)
  else failure

/-- A newline inside a string is a line feed. -/
def lineFeed : Reader Text := do
  newline
  pure ['\n']

def multilineBasicString : Reader Text :=
  multiline '"' ((do pure [← unescaped]) <|> lineContinuation <|> (do pure [← escape]) <|> lineFeed)

def multilineLiteralString : Reader Text :=
  multiline '\'' ((do pure [← satisfy fun c => isPlain c && c != '\'']) <|> lineFeed)

/-- A string on one line, as it may also stand for a key. -/
def quotedString : Reader Text := basicString <|> literalString

def string : Reader Text := multilineBasicString <|> multilineLiteralString <|> quotedString

/-! ## Numbers -/

/-- Plus or minus, or nothing; minus is `true`. -/
def sign : Reader Bool := do
  let s ← opt (satisfy fun c => c == '+' || c == '-')
  pure (s == some '-')

/-- The value of a digit below the base. -/
def digitBelow (base : Nat) : Reader Nat := fun s =>
  match s with
  | [] => none
  | c :: rest => (hexDigit? c).bind fun d => if d < base then some (d, rest) else none

/-- Digits, with single underscores between them. -/
def digits (base : Nat) : Reader (List Nat) := do
  let first ← digitBelow base
  let rest ← many (digitBelow base <|> (do exactly "_"; digitBelow base))
  pure (first :: rest)

/-- Decimal digits that do not start with a zero, or a zero alone. -/
def wholeDigits : Reader (List Nat) := (do exactly "0"; pure [0]) <|> digits 10

/-- The integers that a document may hold are those of 64 bits with a sign. -/
def inRange (i : Int) : Reader Int :=
  if -0x8000000000000000 ≤ i ∧ i < 0x8000000000000000 then pure i else failure

def decimalInteger : Reader Int := do
  let negative ← sign
  let n : Int := ofDigits 10 (← wholeDigits)
  inRange (if negative then -n else n)

def basedInteger (start : Text) (base : Nat) : Reader Int := do
  exactly start
  inRange (ofDigits base (← digits base))

def integer : Reader Int :=
  basedInteger "0x" 16 <|> basedInteger "0o" 8 <|> basedInteger "0b" 2 <|> decimalInteger

/-- A point and the digits after it. -/
def fraction : Reader (List Nat) := do
  exactly "."
  digits 10

/-- The letter `e` and a power of ten. -/
def exponent : Reader Int := do
  let _ ← satisfy fun c => c == 'e' || c == 'E'
  let negative ← sign
  let n : Int := ofDigits 10 (← digits 10)
  pure (if negative then -n else n)

/-- A decimal with a fraction, an exponent or both. One that is too large fails, but a negative
one may be infinite. -/
def decimalFloat : Reader Binary64 := do
  let negative ← sign
  let whole ← wholeDigits
  let (places, power) ← (do pure ([], ← exponent)) <|> do
    let places ← fraction
    let power ← opt exponent
    pure (places, power.getD 0)
  let x := Binary64.ofDecimal negative (ofDigits 10 (whole ++ places)) (power - places.length)
  if x = .infinity false then failure else pure x

def namedFloat : Reader Binary64 := do
  let negative ← sign
  (do exactly "inf"; pure (.infinity negative)) <|> (do exactly "nan"; pure .nan)

def float : Reader Binary64 := decimalFloat <|> namedFloat

def boolean : Reader Bool := (do exactly "true"; pure true) <|> (do exactly "false"; pure false)

/-! ## Dates and times -/

/-- A number of a fixed count of digits within bounds. -/
def fixed (width low high : Nat) : Reader Nat := fun s =>
  match (s.take width).mapM hexDigit? with
  | none => none
  | some digits =>
    let n := ofDigits 10 digits
    if digits.length = width ∧ digits.all (· < 10) ∧ low ≤ n ∧ n ≤ high then some (n, s.drop width)
    else none

/-- A day of the calendar. -/
def date : Reader Date := do
  let year ← fixed 4 0 9999
  exactly "-"
  let month ← fixed 2 1 12
  exactly "-"
  let day ← fixed 2 1 (daysInMonth year month)
  pure { year, month, day }

/-- A fraction of a second in nanoseconds; further digits are dropped. -/
def secondFraction : Reader Nat := do
  exactly "."
  let ds ← many₁ (digitBelow 10)
  let kept := ds.take 9
  pure (ofDigits 10 kept * Nat.pow 10 (9 - kept.length))

/-- A time of day; a minute may have a leap second. -/
def time : Reader Time := do
  let hour ← fixed 2 0 23
  exactly ":"
  let minute ← fixed 2 0 59
  exactly ":"
  let second ← fixed 2 0 60
  let nanosecond ← opt secondFraction
  pure { hour, minute, second, nanosecond := nanosecond.getD 0 }

def offset : Reader Offset :=
  (do
    let _ ← satisfy fun c => c == 'Z' || c == 'z'
    pure .zulu) <|> do
  let west ← satisfy fun c => c == '+' || c == '-'
  let hour ← fixed 2 0 23
  exactly ":"
  let minute ← fixed 2 0 59
  let east : Int := 60 * hour + minute
  pure (.minutes (if west = '-' then -east else east))

/-- The time after a date, with its offset. -/
def timePart : Reader (Time × Option Offset) := do
  let _ ← satisfy fun c => c == 'T' || c == 't' || c == ' '
  let t ← time
  let o ← opt offset
  pure (t, o)

def dateTime : Reader DateTime :=
  (do
    let d ← date
    let part ← opt timePart
    pure (match part with
      | none => .date d
      | some (t, o) => .both d t o)) <|> DateTime.time <$> time

/-! ## Scalars -/

/-- A value that holds no other values. -/
def scalar : Reader Value :=
  Value.string <$> string <|> Value.dateTime <$> dateTime <|> Value.float <$> float <|>
    Value.integer <$> integer <|> Value.boolean <$> boolean

end Showcase.Toml
