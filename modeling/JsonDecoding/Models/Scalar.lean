import JsonDecoding.Number.Numeral
import JsonDecoding.Models.Match

/-!
# Scalars of annotated types

What data becomes as a number, a truth value, a text, octets, a date, a moment, a decimal or a UUID.
Most of them can also be written: in a text, or in octets of UTF-8. A date stands for its first
moment, and the first moment of a day for the day.
-/

namespace JsonDecoding.Outcome

/-- What a text, or octets in UTF-8, become by a conversion of texts; `flawed` is the issue of other
octets. Data of any other kind has the outcome `otherwise`. -/
def ofWritten (flawed : IssueKind) (convert : Text → Outcome Data) (data : Data)
    (otherwise : Outcome Data) : Outcome Data :=
  match data with
  | .str t => if t.any Text.isSurrogate then Checked.issue .notUnicode data else convert t
  | .bytes octets =>
      match Utf8.decode octets with
      | .ok t => convert t
      | .error _ => Checked.issue flawed data
  | _ => otherwise

/-! ## Numbers -/

/-- The integer that a floating-point number is, if it is one between the limits of 64 bits. -/
def wholeOfFloat (x : Binary64) : Checked Int :=
  if x.isFinite then
    match x.toInt? with
    | some i =>
        if -(Int.pow 2 63) < i ∧ i < Int.pow 2 63 then .ok i else Checked.issue .tooLarge (.float x)
    | none => Checked.issue .fractional (.float x)
  else Checked.issue .notFinite (.float x)

/-- Data as an integer. -/
def integer (data : Data) : Outcome Data :=
  match data with
  | .int i => matched .exact (.int i)
  | .bool b => matched .lax (.int (if b then 1 else 0))
  | .float x => (wholeOfFloat x).bind fun i => matched .lax (.int i)
  | .decimal d =>
      match d.toInt? with
      | some i => matched .lax (.int i)
      | none => Checked.issue .fractional data
  | .nonFinite _ => Checked.issue .notFinite data
  | data =>
      ofWritten .unreadableInteger (fun t =>
        match Numeral.readWhole t with
        | .ok i => matched .lax (.int i)
        | .error .malformed => Checked.issue .unreadableInteger data
        | .error .tooLong => Checked.issue .tooLarge data) data (unexpected .integer data)

/-- The floating-point number that data other than a truth value is; an integer beyond all of them
is none, and neither is an undefined number that signals. -/
def float? : Data → Option Binary64
  | .float x => some x
  | .int i => if (Binary64.ofInt i).isFinite then some (.ofInt i) else none
  | .decimal d => some (.ofDecimal d)
  | .nonFinite (.infinite negative) => some (.infinity negative)
  | .nonFinite (.undefined _ false _ mark) => some (.nan mark)
  | _ => none

/-- Data as a floating-point number. -/
def number (data : Data) : Outcome Data :=
  match data, float? data with
  | .float x, _ => matched .exact (.float x)
  | .bool b, _ => matched .lax (.float (.ofInt (if b then 1 else 0)))
  | _, some x => matched .strict (.float x)
  | data, none =>
      ofWritten .unreadableNumber (fun t =>
        match Numeral.read? t with
        | some x => matched .lax (.float x)
        | none => Checked.issue .unreadableNumber data) data (unexpected .number data)

/-- Data as a decimal number. -/
def decimal (data : Data) : Outcome Data :=
  let ofText (t : Text) : Outcome Data :=
    match Decimal.read t with
    | .ok d => matched .lax (.decimal d)
    | .error .notANumber => Checked.issue .unreadableDecimal data
    | .error (.notFinite _) => Checked.issue .notFinite data
  match data with
  | .decimal d => matched .exact (.decimal d)
  | .nonFinite _ => Checked.issue .notFinite data
  | .int i => matched .lax (.decimal ⟨i < 0, i.natAbs, 0⟩)
  | .float x => ofText x.toText
  | .str t => ofText t
  | data => unexpected .decimal data

/-! ## Truth values -/

/-- The words that stand for a truth value, in lower case. -/
def truthWords (value : Bool) : List Text :=
  let words := if value then ["1", "on", "t", "true", "y", "yes"]
    else ["0", "off", "f", "false", "n", "no"]
  words.map Text.lit

/-- Data as a truth value: one and zero, and some words, stand for them. -/
def boolean (data : Data) : Outcome Data :=
  let ofWhole (i : Int) : Outcome Data :=
    if i = 0 then matched .lax (.bool false)
    else if i = 1 then matched .lax (.bool true)
    else Checked.issue .uninterpretable data
  let ofFloat (x : Binary64) : Outcome Data :=
    match wholeOfFloat x with
    | .ok i => ofWhole i
    | .error _ => unexpected .boolean data
  match data, float? data with
  | .bool b, _ => matched .exact (.bool b)
  | .int i, _ => if Calendar.Stamp.isWord i then ofWhole i else unexpected .boolean data
  | _, some x => ofFloat x
  | data, none =>
      ofWritten .uninterpretable (fun t =>
        let word := Decimal.lowered t
        if (truthWords true).contains word then matched .lax (.bool true)
        else if (truthWords false).contains word then matched .lax (.bool false)
        else Checked.issue .uninterpretable data) data (unexpected .boolean data)

/-! ## Texts and octets -/

/-- Data as a text. -/
def text (data : Data) : Outcome Data :=
  match data with
  | .str t => matched .exact (.str t)
  | data =>
      ofWritten .notUnicode (fun t => matched .lax (.str t)) data (unexpected .string data)

/-- Data as octets. -/
def octets (data : Data) : Outcome Data :=
  match data with
  | .bytes octets => matched .exact (.bytes octets)
  | .str t =>
      match Utf8.encode? t with
      | some octets => matched .lax (.bytes octets)
      | none => Checked.issue .notUnicode data
  | data => unexpected .octets data

/-! ## Dates and moments -/

/-- The date that data is or writes, or the flaw of the writing; `none` where it writes nothing. -/
def date? : Data → Option (Except Calendar.Flaw Date)
  | .date d => some (.ok d)
  | .str t => (Utf8.encode? t).map Calendar.Stamp.dateOf
  | .bytes octets => some (Calendar.Stamp.dateOf octets)
  | _ => none

/-- The moment that data is, begins, writes or counts, or the flaw of the writing or counting;
`none` where it does nothing of that. -/
def moment? : Data → Option (Except Calendar.Flaw Moment)
  | .moment m => some (.ok m)
  | .date d => some (.ok ⟨d, 0, 0, 0, 0, none⟩)
  | .str t => (Utf8.encode? t).map Calendar.Stamp.momentOf
  | .bytes octets => some (Calendar.Stamp.momentOf octets)
  | .int i =>
      if Calendar.Stamp.isWord i then some (Calendar.Stamp.momentOfCount i 0)
      else (float? (.int i)).map Calendar.Stamp.momentOfNumber
  | data => (float? data).map Calendar.Stamp.momentOfNumber

/-- The issue of data that neither is what was expected nor writes it. -/
def unwritten (expected : Expected) (data : Data) : Outcome Data :=
  ofWritten .notUnicode (fun _ => unexpected expected data) data (unexpected expected data)

/-- A date made of data; there is no year zero. -/
def madeDate (data : Data) (d : Date) : Outcome Data :=
  if d.year = 0 then Checked.issue (.flawedDate .yearZero) data else matched .lax (.date d)

/-- A moment made of data; there is no year zero. -/
def madeMoment (data : Data) (m : Moment) : Outcome Data :=
  if m.date.year = 0 then Checked.issue (.flawedMoment .yearZero) data
  else matched .lax (.moment m)

/-- Data as a date. -/
def date (data : Data) : Outcome Data :=
  match data, date? data, moment? data with
  | .date d, _, _ => matched .exact (.date d)
  | data, some (.ok d), _ => madeDate data d
  | data, _, some (.ok m) =>
      if m.isMidnight then madeDate data m.date else Checked.issue .timeOfDay data
  | data, _, some (.error flaw) => Checked.issue (.flawedDay flaw) data
  | data, _, none => unwritten .date data

/-- Data as a moment; one that begins a day has no offset. -/
def moment (data : Data) : Outcome Data :=
  match data, moment? data, date? data with
  | .moment m, _, _ => matched .exact (.moment m)
  | data, some (.ok m), _ => madeMoment data m
  | data, _, some (.ok d) => madeMoment data ⟨d, 0, 0, 0, 0, none⟩
  | data, _, some (.error flaw) => Checked.issue (.flawedDayOfMoment flaw) data
  | data, some (.error flaw), none => Checked.issue (.flawedMoment flaw) data
  | data, none, none => unwritten .moment data

/-! ## UUIDs -/

/-- Data as a UUID. -/
def uuid (data : Data) : Outcome Data :=
  let made (read : Except Uuid.Deformity Uuid) : Outcome Data :=
    match read with
    | .ok u => matched .lax (.uuid u)
    | .error deformity => Checked.issue (.deformed deformity) data
  match data with
  | .uuid u => matched .exact (.uuid u)
  | .bytes octets => made (Uuid.ofOctets octets)
  | data =>
      ofWritten .notUnicode (fun t => made (Uuid.ofForm t)) data (unexpected .uuid data)

end JsonDecoding.Outcome
