import JsonDecoding.Calendar.Moment
import JsonDecoding.Text.Quoted
import JsonDecoding.Text.Utf8

/-!
# Reading dates and moments

The date and time texts of ISO 8601 that are understood: calendar and week dates, with dashes or
without; times down to fractions of a second, with colons or without; offsets in the forms of a
time, or `Z`. A text of any other form is malformed; one of a known form can have fields out of
range. Texts are read by their octets in UTF-8, and an octet zero ends a time as the end of the text
does.
-/

namespace JsonDecoding.Calendar

/-- Why a text is no date or moment. -/
inductive Rejection where
  | malformed (shown : Text)
  | outOfRange (field : OutOfRange)

/-! ## Words -/

/-- The words for a length of time: whole days, seconds of the day, and microseconds. -/
def durationText (seconds microseconds : Int) : Text :=
  let total := seconds * 1000000 + microseconds
  let days := total.fdiv 86400000000
  let rest := (total.fmod 86400000000).toNat
  let part (label : String) (n : Int) : List Text :=
    if n = 0 then [] else [Text.lit label ++ Text.ofInt n]
  let parts :=
    part "days=" days ++ part "seconds=" (rest / 1000000 : Nat) ++
      part "microseconds=" (rest % 1000000 : Nat)
  Text.lit "datetime.timedelta(" ++
    (if parts.isEmpty then Text.lit "0" else Text.joined (Text.lit ", ") parts) ++ Text.lit ")"

/-- The words for a field out of range. -/
def OutOfRange.message : OutOfRange → Text
  | .year n => Text.lit "year " ++ Text.ofNat n ++ Text.lit " is out of range"
  | .month => Text.lit "month must be in 1..12"
  | .day => Text.lit "day is out of range for month"
  | .hour => Text.lit "hour must be in 0..23"
  | .minute => Text.lit "minute must be in 0..59"
  | .second => Text.lit "second must be in 0..59"
  | .offset seconds microseconds =>
      Text.lit "offset must be a timedelta strictly between -timedelta(hours=24) and " ++
        Text.lit "timedelta(hours=24), not " ++ durationText seconds microseconds ++ Text.lit "."

/-- The words for a rejection. -/
def Rejection.message : Rejection → Text
  | .malformed shown => Text.lit "Invalid isoformat string: " ++ Text.quoted shown
  | .outOfRange field => field.message

/-! ## Fields -/

/-- Octets in order. -/
abbrev Octets := List Nat

/-- The number that the first `width` octets write, if they are digits, and the rest. -/
def digits? (width : Nat) (t : Octets) : Option (Nat × Octets) :=
  let shown := t.take width
  if shown.length = width && shown.all Text.isDigit then
    some (Text.digitsValue shown, t.drop width)
  else none

/-- Whether a time ends where these octets begin. -/
def endsHere (t : Octets) : Bool := t.head?.getD 0 = 0

/-- The date of a day in a week of a year; days before year 1 have no month. -/
def weekDate (year week day : Nat) : Except OutOfRange Date :=
  let n := Date.weekOneMonday year + 7 * (week - 1 : Nat) + (day - 1 : Nat)
  if year < 1 || n < 1 then .error .month
  else
    let d := Date.ofDayNumber n.toNat
    Date.ofFields d.year d.month d.day

/-- A date text as its fields, still to be checked; `none` when it is malformed. A week date needs a
week that its year has and a day of the week, Monday if none is given. What follows the day is
passed over. -/
def dateFields? (t : Octets) : Option (Except OutOfRange Date) :=
  (digits? 4 t).bind fun (year, rest) =>
    let dashed := rest.head? = some 45
    let rest := if dashed then rest.drop 1 else rest
    let afterDash (rest : Octets) : Option Octets :=
      if dashed then if rest.head? = some 45 then some (rest.drop 1) else none else some rest
    match rest with
    | 87 :: rest =>
        (digits? 2 rest).bind fun (week, rest) =>
          let day? : Option Nat :=
            if rest.isEmpty then some 1
            else (afterDash rest).bind fun rest =>
              (digits? 1 rest).map (·.1)
          day?.bind fun day =>
            let known := 1 ≤ week && (week ≤ 52 || week = 53 && Date.hasWeek53 year)
            if known && 1 ≤ day && day ≤ 7 then some (weekDate year week day) else none
    | rest =>
        (digits? 2 rest).bind fun (month, rest) =>
          (afterDash rest).bind fun rest =>
            (digits? 2 rest).map fun (day, _) => Date.ofFields year month day

/-- The date that a text of seven, eight or ten octets writes. -/
def readDate (t : Text) : Except Rejection Date :=
  match (Utf8.encode? t).bind fun octets =>
      if [7, 8, 10].contains octets.length then dateFields? octets else none with
  | none => .error (.malformed t)
  | some (.error field) => .error (.outOfRange field)
  | some (.ok date) => .ok date

/-! ## Times -/

/-- Hours, minutes, seconds and microseconds as written. -/
structure Clock where
  hour : Nat
  minute : Nat
  second : Nat
  microsecond : Nat

/-- The digits after the seconds as microseconds: at most six count, all that follow are passed
over. Says whether the time ends there. -/
def fraction? (t : Octets) : Option (Nat × Bool) :=
  let width := min t.length 6
  (digits? width t).map fun (n, rest) =>
    (n * Nat.pow 10 (6 - width), endsHere (rest.dropWhile Text.isDigit))

/-- Reads the clock fields `done` has not got yet, in the order hour, minute, second. A mark stands
between them, a colon throughout or none at all; a point or comma opens the fraction early. A single
octet may be left over at the end. Says whether the time ends before it. -/
def clockFrom (colons : Option Bool) :
    Nat → List Nat → Octets → Option (List Nat × Nat × Bool)
  | 0, done, t => (fraction? t).map fun (micro, whole) => (done, micro, whole)
  | missing + 1, done, t =>
      (digits? 2 t).bind fun (n, rest) =>
        let done := done ++ [n]
        match rest with
        | [] => some (done, 0, true)
        | [mark] => some (done, 0, endsHere [mark])
        | mark :: more =>
            let colons := colons.getD (mark = 58)
            if colons && mark = 58 then clockFrom (some colons) missing done more
            else if mark = 46 || mark = 44 then
              (fraction? more).map fun (micro, whole) => (done, micro, whole)
            else if !colons then clockFrom (some colons) missing done rest
            else none

/-- The clock fields of a time and whether it ends behind them; `none` when they are malformed. -/
def clock? (t : Octets) : Option (Clock × Bool) :=
  (clockFrom none 3 [] t).map fun (fields, micro, whole) =>
    (⟨fields.getD 0 0, fields.getD 1 0, fields.getD 2 0, micro⟩, whole)

/-- An offset in seconds and microseconds. -/
structure Offset where
  seconds : Int
  microseconds : Int

/-- The offset that follows a time: `Z`, or a sign and clock fields, behind which the text ends. -/
def offset? : Octets → Option Offset
  | 90 :: rest => if endsHere rest then some ⟨0, 0⟩ else none
  | sign :: rest =>
      (clock? rest).bind fun (c, whole) =>
        if whole then
          let s : Int := if sign = 45 then -1 else 1
          some ⟨s * (c.hour * 3600 + c.minute * 60 + c.second : Nat), s * c.microsecond⟩
        else none
  | [] => none

/-- An octet that ends the time and begins the offset. -/
def beginsOffset (c : Nat) : Bool := c = 43 || c = 45 || c = 90

/-- A time with its offset, if it has one. Before an offset, what follows the clock fields is passed
over; without one nothing may follow them. -/
def time? (t : Octets) : Option (Clock × Option Offset) :=
  let shown := t.takeWhile (!beginsOffset ·)
  let rest := t.dropWhile (!beginsOffset ·)
  (clock? shown).bind fun (c, whole) =>
    if rest.isEmpty then if whole then some (c, none) else none
    else (offset? rest).map fun o => (c, some o)

/-! ## Moments -/

/-- How long the date in front of a time is: the dashes and the `W` tell its form. A week date
without dashes ends where the digits after its week show that a time begins. -/
def dateLength (t : Octets) : Nat :=
  let octetAt (i : Nat) : Nat := t.getD i 0
  if t.length = 7 then 7
  else if octetAt 4 = 45 then
    if octetAt 5 = 87 then
      if octetAt 8 = 45 then
        if t.length = 9 then 0
        else if 10 < t.length && Text.isDigit (octetAt 10) then 8
        else 10
      else 8
    else 10
  else if octetAt 4 = 87 then
    let p := 7 + ((t.drop 7).takeWhile Text.isDigit).length
    if p < 9 then p else if p % 2 = 0 then 7 else 8
  else 8

/-- The offset in range; one of no whole second counts as none. -/
def checkedOffset (o : Offset) : Except OutOfRange Int :=
  if o.seconds = 0 then .ok 0
  else
    let total := o.seconds * 1000000 + o.microseconds
    if -86400000000 < total && total < 86400000000 then .ok total
    else .error (.offset o.seconds o.microseconds)

/-- The moment with these fields: the offset is checked first, then the date, then the time. -/
def moment (date : Except OutOfRange Date) (c : Clock) (o : Offset) : Except OutOfRange Moment := do
  let offset ← checkedOffset o
  let date ← date
  if 23 < c.hour then .error .hour
  else if 59 < c.minute then .error .minute
  else if 59 < c.second then .error .second
  else .ok ⟨date, c.hour, c.minute, c.second, c.microsecond, some offset⟩

/-- How many octets the separator takes that begins with this one. -/
def separatorLength (c : Nat) : Nat :=
  if c < 0x80 then 1 else if c < 0xE0 then 2 else if c < 0xF0 then 3 else 4

/-- The moment that octets write: a date alone or a date, any one code point, and a time. Without
an offset it is meant in universal time. -/
def momentFields? (t : Octets) : Option (Except OutOfRange Moment) :=
  if t.length < 7 then none
  else
    let length := dateLength t
    (dateFields? (t.take length)).bind fun date =>
      match t.drop length with
      | [] => some (moment date ⟨0, 0, 0, 0⟩ ⟨0, 0⟩)
      | separator :: rest =>
          (time? (rest.drop (separatorLength separator - 1))).map fun (c, o) =>
            moment date c (o.getD ⟨0, 0⟩)

/-- The text with a `T` for the first surrogate that stands where a separator may stand. -/
def withPlainSeparator (t : Text) : Text :=
  match [7, 8, 10].find? fun i => (t[i]?).any Text.isSurrogate with
  | some i => t.set i 84
  | none => t

/-- A closing `Z` written as an offset. -/
def withOffset (t : Text) : Text :=
  if t.getLast? = some 90 then t.dropLast ++ Text.lit "+00:00" else t

/-- The moment that a text writes, a closing `Z` standing for universal time. -/
def readMoment (t : Text) : Except Rejection Moment :=
  let t := withOffset t
  match (Utf8.encode? (withPlainSeparator t)).bind momentFields? with
  | none => .error (.malformed t)
  | some (.error field) => .error (.outOfRange field)
  | some (.ok m) => .ok m

end JsonDecoding.Calendar
