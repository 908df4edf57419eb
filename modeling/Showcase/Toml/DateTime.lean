import Showcase.Text.Numeral

/-!
# Dates and times

Calendar dates, times of day and offsets from universal time, with their canonical text: `T`
between date and time, `Z` or hours and minutes for the offset, and a fraction of a second only
if it is not zero, without zeros at its end.
-/

namespace Showcase.Toml

structure Date where
  year : Nat
  month : Nat
  day : Nat
  deriving DecidableEq, Repr

structure Time where
  hour : Nat
  minute : Nat
  second : Nat
  nanosecond : Nat
  deriving DecidableEq, Repr

/-- The distance from universal time. -/
inductive Offset where
  /-- Universal time itself. -/
  | zulu
  /-- Minutes to the east. -/
  | minutes (east : Int)
  deriving DecidableEq, Repr

inductive DateTime where
  | date (d : Date)
  | time (t : Time)
  | both (d : Date) (t : Time) (offset : Option Offset)
  deriving DecidableEq, Repr

/-- The number of days in a month of a year. -/
def daysInMonth (year month : Nat) : Nat :=
  if month = 2 then
    if year % 4 = 0 ∧ (year % 100 ≠ 0 ∨ year % 400 = 0) then 29 else 28
  else if month ∈ [4, 6, 9, 11] then 30
  else 31

def Date.text (d : Date) : Text :=
  paddedDecimal 4 d.year ++ '-' :: paddedDecimal 2 d.month ++ '-' :: paddedDecimal 2 d.day

/-- The digits of a fraction of a second after a point, or nothing for zero. -/
def fractionText (nanosecond : Nat) : Text :=
  if nanosecond = 0 then []
  else '.' :: ((paddedDecimal 9 nanosecond).reverse.dropWhile (· == '0')).reverse

def Time.text (t : Time) : Text :=
  paddedDecimal 2 t.hour ++ ':' :: paddedDecimal 2 t.minute ++ ':' :: paddedDecimal 2 t.second ++
    fractionText t.nanosecond

def Offset.text : Offset → Text
  | .zulu => "Z"
  | .minutes east =>
    (if east < 0 then '-' else '+') :: paddedDecimal 2 (east.natAbs / 60) ++
      ':' :: paddedDecimal 2 (east.natAbs % 60)

/-- The canonical text. -/
def DateTime.text : DateTime → Text
  | .date d => d.text
  | .time t => t.text
  | .both d t offset => d.text ++ 'T' :: t.text ++ (offset.map Offset.text).getD []

end Showcase.Toml
