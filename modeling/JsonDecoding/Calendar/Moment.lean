import JsonDecoding.Calendar.Date

/-!
# Moments

A moment is a date and a time of day, most often with an offset from universal time. Two moments
with an offset are the same when their instants are, whatever the offsets; one without an offset is
the same as no moment that has one.
-/

namespace JsonDecoding

/-- A date, a time of day, and how many microseconds its clock is ahead of universal time, where
that is known. -/
structure Moment where
  date : Date
  hour : Nat
  minute : Nat
  second : Nat
  microsecond : Nat
  offset : Option Int
deriving DecidableEq

namespace Moment

/-- Microseconds since the beginning of the calendar, in universal time where the offset is
known. -/
def instant (m : Moment) : Int :=
  ((((m.date.dayNumber * 24 + m.hour) * 60 + m.minute) * 60 + m.second) * 1000000
      + m.microsecond : Nat) - m.offset.getD 0

/-- Whether two moments are the same. -/
def same (a b : Moment) : Bool := a.offset.isSome = b.offset.isSome && a.instant = b.instant

/-- Whether a moment is the first of its day. -/
def isMidnight (m : Moment) : Bool :=
  m.hour = 0 && m.minute = 0 && m.second = 0 && m.microsecond = 0

/-- Hours, minutes and seconds with colons; a fraction of six digits unless it is zero. -/
def clockText (hour minute second microsecond : Nat) : Text :=
  Text.padded 2 hour ++ 58 :: Text.padded 2 minute ++ 58 :: Text.padded 2 second ++
    (if microsecond = 0 then [] else 46 :: Text.padded 6 microsecond)

/-- An offset as sign, hours and minutes; seconds and their fraction only where they are not
zero. -/
def offsetText (offset : Int) : Text :=
  let n := offset.natAbs
  let microsecond := n % 1000000
  let second := n / 1000000 % 60
  let minute := n / 60000000 % 60
  let hour := n / 3600000000
  (if offset < 0 then 45 else 43) :: Text.padded 2 hour ++ 58 :: Text.padded 2 minute ++
    (if second = 0 && microsecond = 0 then []
      else 58 :: Text.padded 2 second ++
        (if microsecond = 0 then [] else 46 :: Text.padded 6 microsecond))

/-- Date, time and offset, with a `T` between date and time; an unknown offset is left out. -/
def toText (m : Moment) : Text :=
  m.date.toText ++ 84 :: clockText m.hour m.minute m.second m.microsecond ++
    (m.offset.map offsetText).getD []

end Moment

end JsonDecoding
