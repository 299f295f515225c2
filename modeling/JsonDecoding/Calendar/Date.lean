import JsonDecoding.Text

/-!
# Calendar dates

Dates of the Gregorian calendar extended to all years from 1 to 9999, their day numbers counted from
the first day of year 1, and the weeks of ISO 8601.
-/

namespace JsonDecoding

/-- A date by year, month and day. -/
structure Date where
  year : Nat
  month : Nat
  day : Nat
deriving DecidableEq

namespace Date

/-- Every fourth year, of the centuries only every fourth. -/
def isLeap (year : Nat) : Bool := year % 4 = 0 && (year % 100 ≠ 0 || year % 400 = 0)

/-- The lengths of the months of a year. -/
def monthLengths (year : Nat) : List Nat :=
  [31, if isLeap year then 29 else 28, 31, 30, 31, 30, 31, 31, 30, 31, 30, 31]

/-- The length of a month. -/
def daysInMonth (year month : Nat) : Nat := (monthLengths year).getD (month - 1) 0

/-! ## Day numbers -/

/-- The days before the first of January of a year, from year 1 on. -/
def daysBeforeYear (year : Nat) : Nat :=
  let y := year - 1
  365 * y + y / 4 - y / 100 + y / 400

/-- The number of a date; the first day of year 1 has number 1. -/
def dayNumber (d : Date) : Nat :=
  daysBeforeYear d.year + ((monthLengths d.year).take (d.month - 1)).foldr (· + ·) 0 + d.day

/-- The month and day at an offset from the first of January. -/
def monthDay : Nat → List Nat → Nat → Nat × Nat
  | month, [], offset => (month, offset + 1)
  | month, length :: rest, offset =>
      if offset < length then (month, offset + 1) else monthDay (month + 1) rest (offset - length)

/-- The date with a day number: whole cycles of 400, 100, 4 and single years are taken off first. -/
def ofDayNumber (n : Nat) : Date :=
  let n := n - 1
  let n400 := n / 146097
  let n := n % 146097
  let n100 := min (n / 36524) 3
  let n := n - n100 * 36524
  let n4 := n / 1461
  let n := n % 1461
  let n1 := min (n / 365) 3
  let n := n - n1 * 365
  let year := n400 * 400 + n100 * 100 + n4 * 4 + n1 + 1
  let (month, day) := monthDay 1 (monthLengths year) n
  ⟨year, month, day⟩

/-- The day of the week of a day number, Monday being zero. -/
def weekday (dayNumber : Nat) : Nat := (dayNumber + 6) % 7

/-! ## Weeks -/

/-- Whether a year has a week 53: it starts on a Thursday, or is a leap year that starts on a
Wednesday. -/
def hasWeek53 (year : Nat) : Bool :=
  let first := weekday (daysBeforeYear year + 1)
  first = 3 || (first = 2 && isLeap year)

/-- The number of the Monday of week 1, the week that holds the first Thursday of the year. -/
def weekOneMonday (year : Nat) : Int :=
  let first := daysBeforeYear year + 1
  let monday : Int := (first : Int) - weekday first
  if weekday first > 3 then monday + 7 else monday

/-! ## Text -/

/-- Year, month and day with dashes. -/
def toText (d : Date) : Text :=
  Text.padded 4 d.year ++ 45 :: Text.padded 2 d.month ++ 45 :: Text.padded 2 d.day

end Date

/-! ## Fields out of range -/

/-- The first field of a date or time that lies outside of its range, or the offset that does. -/
inductive Calendar.OutOfRange where
  | year (year : Nat)
  | month
  | day
  | hour
  | minute
  | second
  | offset (seconds microseconds : Int)

namespace Date

/-- The date with these fields, which are checked from the year on. -/
def ofFields (year month day : Nat) : Except Calendar.OutOfRange Date :=
  if year < 1 || 9999 < year then .error (.year year)
  else if month < 1 || 12 < month then .error .month
  else if day < 1 || daysInMonth year month < day then .error .day
  else .ok ⟨year, month, day⟩

end Date

end JsonDecoding
