import AppLauncher.Text.Digits

/-!
# Dates and times

A calendar date, a time of day, or both, with an optional distance from universal time, and its text.
-/

namespace AppLauncher.Document

/-- A calendar date. -/
structure Date where
  year : Nat
  month : Nat
  day : Nat
  deriving DecidableEq, Repr

/-- A time of day. -/
structure TimeOfDay where
  hour : Nat
  minute : Nat
  second : Nat
  nanos : Nat
  deriving DecidableEq, Repr

/-- How far a clock is from universal time. -/
inductive Offset
  | universal
  | minutes (n : Int)
  deriving DecidableEq, Repr

/-- A point in time as far as it is given. -/
inductive Moment
  | day (d : Date)
  | clock (t : TimeOfDay)
  | dayAndClock (d : Date) (t : TimeOfDay) (o : Option Offset)
  deriving DecidableEq, Repr

namespace Date

/-- Whether the year has a twenty-ninth of February. -/
def isLeap (year : Nat) : Bool := year % 4 == 0 && (year % 100 != 0 || year % 400 == 0)

/-- The number of days of a month. -/
def daysIn (year month : Nat) : Nat :=
  if month = 2 then if isLeap year then 29 else 28
  else if month = 4 ∨ month = 6 ∨ month = 9 ∨ month = 11 then 30 else 31

/-- The text of a date. -/
def text (d : Date) : List Char :=
  Text.padded 4 d.year ++ '-' :: Text.padded 2 d.month ++ '-' :: Text.padded 2 d.day

end Date

/-- The text of a time of day; only as many decimals as are needed. -/
def TimeOfDay.text (t : TimeOfDay) : List Char :=
  let decimals := ((Text.padded 9 t.nanos).reverse.dropWhile (· == '0')).reverse
  Text.padded 2 t.hour ++ ':' :: Text.padded 2 t.minute ++ ':' :: Text.padded 2 t.second ++
    if t.nanos = 0 then [] else '.' :: decimals

/-- The text of an offset. -/
def Offset.text : Offset → List Char
  | universal => ['Z']
  | minutes n =>
    (if n < 0 then '-' else '+') :: Text.padded 2 (n.natAbs / 60) ++ ':' :: Text.padded 2 (n.natAbs % 60)

/-- The text of a moment. -/
def Moment.text : Moment → String
  | day d => String.ofList d.text
  | clock t => String.ofList t.text
  | dayAndClock d t o => String.ofList (d.text ++ 'T' :: t.text ++ (o.map Offset.text).getD [])

end AppLauncher.Document
