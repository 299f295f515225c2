import JsonDecoding.Calendar.Iso
import JsonDecoding.Data

/-!
# Data in reports

`shown` is the form in which reports show data, with every string in quotes; `toText` is the form in
which data names itself, where strings and decimals stand bare.
-/

namespace JsonDecoding.Data

/-- The quoted text inside a constructor's parentheses. -/
def built (constructor content : Text) : Text :=
  constructor ++ Text.lit "(" ++ content ++ Text.lit ")"

/-- An offset from universal time. -/
def shownOffset (offset : Int) : Text :=
  if offset = 0 then Text.lit "datetime.timezone.utc"
  else built (Text.lit "datetime.timezone")
    (Calendar.durationText (offset / 1000000) (offset % 1000000))

/-- A moment by its fields; seconds and microseconds only as far as they are not zero. -/
def shownMoment (m : Moment) : Text :=
  let clock := if m.microsecond ≠ 0 then [m.second, m.microsecond]
    else if m.second ≠ 0 then [m.second] else []
  let fields := [m.date.year, m.date.month, m.date.day, m.hour, m.minute] ++ clock
  built (Text.lit "datetime.datetime")
    (Text.joined (Text.lit ", ")
      (fields.map Text.ofNat ++
        (m.offset.map fun offset => Text.lit "tzinfo=" ++ shownOffset offset).toList))

/-- The items of a tuple; a single one is followed by a comma. -/
def shownTuple : List Text → Text
  | [item] => Text.lit "(" ++ item ++ Text.lit ",)"
  | items => Text.lit "(" ++ Text.joined (Text.lit ", ") items ++ Text.lit ")"

/-- The items of a set between braces. -/
def shownSet : List Text → Text
  | [] => Text.lit "set()"
  | items => Text.lit "\x7b" ++ Text.joined (Text.lit ", ") items ++ Text.lit "\x7d"

mutual

/-- The form of data in reports. -/
def shown : Data → Text
  | .null => Text.lit "None"
  | .bool true => Text.lit "True"
  | .bool false => Text.lit "False"
  | .int i => Text.ofInt i
  | .float x => x.toText
  | .str s => Text.quoted s
  | .list items => Text.lit "[" ++ Text.joined (Text.lit ", ") (shownItems items) ++ Text.lit "]"
  | .tuple items => shownTuple (shownItems items)
  | .dict entries =>
      Text.lit "\x7b" ++ Text.joined (Text.lit ", ") (shownEntries entries) ++ Text.lit "\x7d"
  | .set items => shownSet (shownItems items)
  | .bytes octets => Text.quotedOctets octets
  | .decimal d => built (Text.lit "Decimal") (Text.quoted d.toText)
  | .nonFinite d => built (Text.lit "Decimal") (Text.quoted d.toText)
  | .date d =>
      built (Text.lit "datetime.date")
        (Text.joined (Text.lit ", ") ([d.year, d.month, d.day].map Text.ofNat))
  | .moment m => shownMoment m
  | .uuid u => built (Text.lit "UUID") (Text.quoted u.toText)
  | .record className _ fields _ =>
      built className (Text.joined (Text.lit ", ") (shownFields fields))
  | .model className fields _ => built className (Text.joined (Text.lit ", ") (shownFields fields))
  | .labelled _ label content => built label (shown content)

/-- The forms of items in order. -/
def shownItems : List Data → List Text
  | [] => []
  | item :: rest => shown item :: shownItems rest

/-- The forms of dictionary entries in order. -/
def shownEntries : List (Data × Data) → List Text
  | [] => []
  | (k, v) :: rest => (shown k ++ Text.lit ": " ++ shown v) :: shownEntries rest

/-- The forms of named fields in order. -/
def shownFields : List (Text × Data) → List Text
  | [] => []
  | (name, value) :: rest => (name ++ Text.lit "=" ++ shown value) :: shownFields rest

end

mutual

/-- Whether data shows an integer that has too many digits. -/
def isOverlong : Data → Bool
  | .int i => Text.isOverlong i
  | .list items => anyOverlong items
  | .tuple items => anyOverlong items
  | .dict entries => entriesOverlong entries
  | .set items => anyOverlong items
  | .record _ _ fields _ => fieldsOverlong fields
  | .model _ fields _ => fieldsOverlong fields
  | .labelled _ _ content => isOverlong content
  | _ => false

/-- Whether one of some items shows such an integer. -/
def anyOverlong : List Data → Bool
  | [] => false
  | item :: rest => isOverlong item || anyOverlong rest

/-- Whether one of some entries shows such an integer. -/
def entriesOverlong : List (Data × Data) → Bool
  | [] => false
  | (k, v) :: rest => isOverlong k || isOverlong v || entriesOverlong rest

/-- Whether one of some fields shows such an integer. -/
def fieldsOverlong : List (Text × Data) → Bool
  | [] => false
  | (_, value) :: rest => isOverlong value || fieldsOverlong rest

end

mutual

/-- The first record that data shows and that lacks a field, as the reason that it has no hash. -/
def lacking? : Data → Option Unhashable
  | .list items => lackingItem? items
  | .tuple items => lackingItem? items
  | .dict entries => lackingPair? entries
  | .set items => lackingItem? items
  | .record className _ fields absent =>
      (lackingField? fields).or (absent.head?.map (.lacking className))
  | .model _ fields _ => lackingField? fields
  | .labelled _ _ content => lacking? content
  | _ => none

/-- The first such record among items. -/
def lackingItem? : List Data → Option Unhashable
  | [] => none
  | item :: rest => (lacking? item).or (lackingItem? rest)

/-- The first such record among entries. -/
def lackingPair? : List (Data × Data) → Option Unhashable
  | [] => none
  | (k, v) :: rest => ((lacking? k).or (lacking? v)).or (lackingPair? rest)

/-- The first such record among fields. -/
def lackingField? : List (Text × Data) → Option Unhashable
  | [] => none
  | (_, value) :: rest => (lacking? value).or (lackingField? rest)

end

/-- The form in which data names itself. -/
def toText : Data → Text
  | .str s => s
  | .decimal d => d.toText
  | .nonFinite d => d.toText
  | data => shown data

end JsonDecoding.Data
