import JsonDecoding.Calendar.Iso
import JsonDecoding.Number.Binary64

/-!
# Stamps

The dates and moments that models take for granted in their input: dates with dashes, moments of a
date, a separator and a time, and numbers that count seconds or milliseconds from the beginning of
1970. A moment may be without an offset; a counted one is in universal time. Texts are read by their
octets in UTF-8.
-/

namespace JsonDecoding.Calendar

/-- Why octets or a number stamp no date or moment. -/
inductive Flaw where
  | tooShort
  | extraCharacters
  | momentSeparator
  | dateSeparator
  | notExact
  | yearCharacter
  | monthCharacter
  | dayCharacter
  | timeSeparator
  | hourCharacter
  | minuteCharacter
  | secondCharacter
  | offsetSign
  | offsetHourCharacter
  | offsetMinuteCharacter
  | offsetMinuteRange
  | offsetRange
  | hourRange
  | minuteRange
  | secondRange
  | monthRange
  | dayRange
  | noFraction
  | tooEarly
  | tooLate
  | undefinedNumber
  | yearZero

/-- The words for a flaw. -/
def Flaw.message : Flaw → Text
  | .tooShort => Text.lit "input is too short"
  | .extraCharacters => Text.lit "unexpected extra characters at the end of the input"
  | .momentSeparator => Text.lit "invalid datetime separator, expected `T`, `t`, `_` or space"
  | .dateSeparator => Text.lit "invalid date separator, expected `-`"
  | .notExact => Text.lit "Timestamp is not an exact date"
  | .yearCharacter => Text.lit "invalid character in year"
  | .monthCharacter => Text.lit "invalid character in month"
  | .dayCharacter => Text.lit "invalid character in day"
  | .timeSeparator => Text.lit "invalid time separator, expected `:`"
  | .hourCharacter => Text.lit "invalid character in hour"
  | .minuteCharacter => Text.lit "invalid character in minute"
  | .secondCharacter => Text.lit "invalid character in second"
  | .offsetSign => Text.lit "invalid timezone sign"
  | .offsetHourCharacter => Text.lit "invalid timezone hour"
  | .offsetMinuteCharacter => Text.lit "invalid timezone minute"
  | .offsetMinuteRange => Text.lit "timezone minute value is outside expected range of 0-59"
  | .offsetRange => Text.lit "timezone offset must be less than 24 hours"
  | .hourRange => Text.lit "hour value is outside expected range of 0-23"
  | .minuteRange => Text.lit "minute value is outside expected range of 0-59"
  | .secondRange => Text.lit "second value is outside expected range of 0-59"
  | .monthRange => Text.lit "month value is outside expected range of 1-12"
  | .dayRange => Text.lit "day value is outside expected range"
  | .noFraction => Text.lit "second fraction value is missing"
  | .tooEarly => Text.lit "dates before 0000 are not supported as unix timestamps"
  | .tooLate => Text.lit "dates after 9999 are not supported as unix timestamps"
  | .undefinedNumber => Text.lit "NaN values not permitted"
  | .yearZero => Text.lit "year 0 is out of range"

namespace Stamp

/-! ## Numbers -/

/-- The greatest count that is one of seconds; a greater one is of milliseconds. -/
def secondLimit : Nat := 20000000000

/-- Whether an integer fits into 64 bits. -/
def isWord (i : Int) : Bool := -(Int.pow 2 63) ≤ i && i < Int.pow 2 63

/-- The seconds and microseconds that a count stands for. -/
def unscaled (count : Int) : Int × Nat :=
  if count.natAbs ≤ secondLimit then (count, 0)
  else (count.fdiv 1000, (count.fmod 1000).toNat * 1000)

/-- The date a number of days from the beginning of 1970; one before year 1 is in year 0. -/
def dateAt (days : Int) : Date :=
  let number := days + 719163
  if number < 1 then ⟨0, 1, 1⟩ else Date.ofDayNumber number.toNat

/-- The date of a second, which has to lie in the years from 0 to 9999. -/
def dateOfSecond (second : Int) : Except Flaw Date :=
  if second < -62167219200 then .error .tooEarly
  else if 253402300799 < second then .error .tooLate
  else .ok (dateAt (second.fdiv 86400))

/-- The moment of a count, with some microseconds more. -/
def momentOfCount (count : Int) (microseconds : Nat) : Except Flaw Moment :=
  if count = -(Int.pow 2 63) then .error .tooEarly
  else
    let (second, more) := unscaled count
    let total := microseconds + more
    let second := second + (total / 1000000 : Nat)
    (dateOfSecond second).map fun date =>
      let time := (second.fmod 86400).toNat
      ⟨date, time / 3600, time / 60 % 60, time % 60, total % 1000000, some 0⟩

/-- The date of a count, which has to be one of whole days. -/
def dateOfCount (count : Int) : Except Flaw Date :=
  if count = -(Int.pow 2 63) then .error .tooEarly
  else
    let second := (unscaled count).1
    (dateOfSecond second).bind fun date =>
      if second.fmod 86400 = 0 then .ok date else .error .notExact

/-- The integer nearest to a decimal that is not negative, halves going up. -/
def rounded (d : Decimal) : Nat :=
  let denominator := Nat.pow 10 (-d.exponent).toNat
  (2 * d.coefficient * Nat.pow 10 d.exponent.toNat + denominator) / (2 * denominator)

/-- The integer part and the rest of the size of a decimal. -/
def parts (d : Decimal) : Nat × Decimal :=
  let denominator := Nat.pow 10 (-d.exponent).toNat
  let numerator := d.coefficient * Nat.pow 10 d.exponent.toNat
  (numerator / denominator, ⟨false, numerator % denominator, min d.exponent 0⟩)

/-- The greatest integer that is not above a decimal, and how far the decimal is above it. -/
def floorParts (d : Decimal) : Int × Decimal :=
  let (whole, fraction) := parts d
  if !d.negative then (whole, fraction)
  else if fraction.coefficient = 0 then (-(whole : Int), fraction)
  else
    let size := Nat.pow 10 (-fraction.exponent).toNat
    (-(whole : Int) - 1, { fraction with coefficient := size - fraction.coefficient })

/-- The nearest of the numbers with 64 bits, exactly. -/
def nearest (d : Decimal) : Decimal := (Binary64.ofDecimal d).toDecimal?.getD d

/-- The microseconds in a fraction of a second, computed with 64 bits. -/
def microsecondsOf (fraction : Decimal) : Nat :=
  let fraction := nearest fraction
  rounded (nearest { fraction with exponent := fraction.exponent + 6 })

/-- The moment of a number. The seconds are the greatest below it; the size of its fraction is
counted on from there. -/
def momentOfNumber (x : Binary64) : Except Flaw Moment :=
  match x with
  | .nan _ => .error .undefinedNumber
  | .infinity negative => .error (if negative then .tooEarly else .tooLate)
  | .finite negative exponent fraction =>
      let d := Binary64.exactDecimal negative exponent fraction
      let floor := (floorParts d).1
      if floor ≤ -(Int.pow 2 63) then .error .tooEarly
      else if Int.pow 2 63 ≤ floor then .error .tooLate
      else momentOfCount floor (microsecondsOf (parts d).2)

/-- The number that octets write with a sign and digits, with or without a point: an integer of 64
bits, or a decimal. -/
def count? (t : Octets) : Option (Int ⊕ Decimal) :=
  let (negative, body) := Decimal.splitSign t
  let whole := body.takeWhile Text.isDigit
  let signed (n : Nat) : Int := if negative then -(n : Int) else n
  if whole.isEmpty || Nat.pow 2 63 ≤ Text.digitsValue whole then none
  else match body.drop whole.length with
    | [] => some (.inl (signed (Text.digitsValue whole)))
    | 46 :: fraction =>
        if fraction.all Text.isDigit then
          some (.inr ⟨negative, Text.digitsValue (whole ++ fraction), -(fraction.length : Int)⟩)
        else none
    | _ => none

/-- The moment that a decimal counts, computed with 64 bits. -/
def momentOfDecimal (d : Decimal) : Except Flaw Moment :=
  let d := nearest d
  let (whole, fraction) := parts d
  let isScaled := secondLimit < whole || (whole = secondLimit && fraction.coefficient ≠ 0)
  let d := if isScaled then nearest { d with exponent := d.exponent - 3 } else d
  let (floor, fraction) := floorParts d
  momentOfCount floor (microsecondsOf fraction)

/-! ## Dates -/

/-- The two digits at the front, and what follows them. -/
def twoDigits (flaw : Flaw) (t : Octets) : Except Flaw (Nat × Octets) :=
  match digits? 2 t with
  | some read => .ok read
  | none => .error flaw

/-- What follows one octet. -/
def behind (octet : Nat) (flaw : Flaw) : Octets → Except Flaw Octets
  | c :: rest => if c = octet then .ok rest else .error flaw
  | [] => .error flaw

/-- The date in the first ten octets, and what follows it. -/
def dateInFront (t : Octets) : Except Flaw (Date × Octets) := do
  if t.length < 10 then throw .tooShort
  let (century, rest) ← twoDigits .yearCharacter t
  let (year, rest) ← twoDigits .yearCharacter rest
  let rest ← behind 45 .dateSeparator rest
  let (month, rest) ← twoDigits .monthCharacter rest
  let rest ← behind 45 .dateSeparator rest
  let (day, rest) ← twoDigits .dayCharacter rest
  let year := century * 100 + year
  if month < 1 || 12 < month then throw .monthRange
  if day < 1 || Date.daysInMonth year month < day then throw .dayRange
  return (⟨year, month, day⟩, rest)

/-- The date that octets write, with dashes or as a count of whole days. -/
def dateOf (t : Octets) : Except Flaw Date :=
  let written := (dateInFront t).bind fun (date, rest) =>
    if rest.isEmpty then .ok date else .error .extraCharacters
  match written, count? t with
  | .error _, some (.inl count) => dateOfCount count
  | written, _ => written

/-! ## Moments -/

/-- The fraction behind the seconds as microseconds, of which six digits count, and what follows. -/
def fractionInFront (t : Octets) : Except Flaw (Nat × Octets) :=
  let digits := t.takeWhile Text.isDigit
  if digits.isEmpty then .error .noFraction
  else .ok (Text.digitsValue ((digits ++ List.replicate 6 48).take 6), t.drop digits.length)

/-- The time in front, seconds and their fraction being optional, and what follows it. -/
def clockInFront (t : Octets) : Except Flaw (Clock × Octets) := do
  if t.length < 5 then throw .tooShort
  let (hour, rest) ← twoDigits .hourCharacter t
  let rest ← behind 58 .timeSeparator rest
  let (minute, rest) ← twoDigits .minuteCharacter rest
  if 23 < hour then throw .hourRange
  if 59 < minute then throw .minuteRange
  match rest with
  | 58 :: rest =>
      let (second, rest) ← twoDigits .secondCharacter rest
      if 59 < second then throw .secondRange
      match rest with
      | mark :: more =>
          if mark = 46 || mark = 44 then
            let (microsecond, rest) ← fractionInFront more
            return (⟨hour, minute, second, microsecond⟩, rest)
          else return (⟨hour, minute, second, 0⟩, rest)
      | [] => return (⟨hour, minute, second, 0⟩, [])
  | rest => return (⟨hour, minute, 0, 0⟩, rest)

/-- The minutes of an offset, with a colon in front or none. -/
def offsetMinutes : Octets → Except Flaw (Nat × Octets)
  | 58 :: rest => twoDigits .offsetMinuteCharacter rest
  | rest => twoDigits .offsetMinuteCharacter rest

/-- The offset in seconds that ends a time, if one does: a `Z`, or a sign, hours and minutes. A
minus sign can be the one beyond ASCII. -/
def offsetOf : Octets → Except Flaw (Option Int)
  | [] => .ok none
  | 90 :: rest | 122 :: rest => if rest.isEmpty then .ok (some 0) else .error .extraCharacters
  | t => do
      let (negative, rest) ← match t with
        | 43 :: rest => pure (false, rest)
        | 45 :: rest => pure (true, rest)
        | 226 :: 136 :: 146 :: rest => pure (true, rest)
        | _ => throw .offsetSign
      let (hours, rest) ← twoDigits .offsetHourCharacter rest
      let (minutes, rest) ← offsetMinutes rest
      if 59 < minutes then throw .offsetMinuteRange
      let seconds := hours * 3600 + minutes * 60
      if 86400 ≤ seconds then throw .offsetRange
      if !rest.isEmpty then throw .extraCharacters
      return some (if negative then -(seconds : Int) else seconds)

/-- The octets that separate a date from a time: `T`, `t`, a space, or an underscore. -/
def separators : Octets := [84, 116, 32, 95]

/-- The moment of a date, a separator and a time. -/
def writtenMoment (t : Octets) : Except Flaw Moment := do
  let (date, rest) ← dateInFront t
  match rest with
  | [] => throw .momentSeparator
  | separator :: rest =>
      if !separators.contains separator then throw .momentSeparator
      let (c, rest) ← clockInFront rest
      let offset ← offsetOf rest
      return ⟨date, c.hour, c.minute, c.second, c.microsecond, offset.map (· * 1000000)⟩

/-- The moment that octets write, or that a number counts. -/
def momentOf (t : Octets) : Except Flaw Moment :=
  match writtenMoment t, count? t with
  | .error _, some (.inl count) => momentOfCount count 0
  | .error _, some (.inr d) => momentOfDecimal d
  | written, _ => written

end Stamp

end JsonDecoding.Calendar
