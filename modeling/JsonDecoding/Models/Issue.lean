import JsonDecoding.Calendar.Stamp
import JsonDecoding.Fault
import JsonDecoding.Uuid.Forms

/-!
# Issues of models

What is wrong with the data of a model. All issues of one model are reported together, each with its
place, its words, and the data it is about. A defect of a validator is no issue of the data: it ends
the validation.
-/

namespace JsonDecoding

/-- Where help is found: on an issue and on the way classes are used, under the short name of either,
and on the writing of complex numbers. -/
structure Help where
  ofIssue : Text → Text
  ofUsage : Text → Text
  complexNumbers : Text

/-- What data was expected to be, or to become. -/
inductive Expected where
  | integer
  | number
  | string
  | boolean
  | nothing
  | octets
  | list
  | dictionary
  | set
  | frozenset
  | tuple
  | moment
  | date
  | uuid
  | decimal
  | complex
  | type
  | subtype (name : Text)
  | model (name : Text)
  | record (name : Text)

namespace Expected

/-- The short name of the issue that data is not what was expected. -/
def code : Expected → Text
  | .integer => Text.lit "int_type"
  | .number => Text.lit "float_type"
  | .string => Text.lit "string_type"
  | .boolean => Text.lit "bool_type"
  | .nothing => Text.lit "none_required"
  | .octets => Text.lit "bytes_type"
  | .list => Text.lit "list_type"
  | .dictionary => Text.lit "dict_type"
  | .set => Text.lit "set_type"
  | .frozenset => Text.lit "frozen_set_type"
  | .tuple => Text.lit "tuple_type"
  | .moment => Text.lit "datetime_type"
  | .date => Text.lit "date_type"
  | .uuid => Text.lit "uuid_type"
  | .decimal => Text.lit "decimal_type"
  | .complex => Text.lit "complex_type"
  | .type => Text.lit "is_instance_of"
  | .subtype _ => Text.lit "is_subclass_of"
  | .model _ => Text.lit "model_type"
  | .record _ => Text.lit "dataclass_type"

/-- The words for data that is not what was expected. -/
def message (help : Help) : Expected → Text
  | .integer => Text.lit "Input should be a valid integer"
  | .number => Text.lit "Input should be a valid number"
  | .string => Text.lit "Input should be a valid string"
  | .boolean => Text.lit "Input should be a valid boolean"
  | .nothing => Text.lit "Input should be None"
  | .octets => Text.lit "Input should be a valid bytes"
  | .list => Text.lit "Input should be a valid list"
  | .dictionary => Text.lit "Input should be a valid dictionary"
  | .set => Text.lit "Input should be a valid set"
  | .frozenset => Text.lit "Input should be a valid frozenset"
  | .tuple => Text.lit "Input should be a valid tuple"
  | .moment => Text.lit "Input should be a valid datetime"
  | .date => Text.lit "Input should be a valid date"
  | .uuid => Text.lit "UUID input should be a string, bytes or UUID object"
  | .decimal => Text.lit "Decimal input should be an integer, float, string or Decimal object"
  | .complex =>
      Text.lit ("Input should be a valid python complex object, a number, or a valid complex " ++
        "string following the rules at ") ++ help.complexNumbers
  | .type => Text.lit "Input should be an instance of type"
  | .subtype name => Text.lit "Input should be a subclass of " ++ name
  | .model name => Text.lit "Input should be a valid dictionary or instance of " ++ name
  | .record name => Text.lit "Input should be a dictionary or an instance of " ++ name

end Expected

/-- What is wrong with data. -/
inductive IssueKind where
  | missing
  | unexpected (expected : Expected)
  | fractional
  | notFinite
  | tooLarge
  | unreadableInteger
  | unreadableNumber
  | unreadableDecimal
  | uninterpretable
  | notUnicode
  | notHashable
  | timeOfDay
  | flawedDate (flaw : Calendar.Flaw)
  | flawedDay (flaw : Calendar.Flaw)
  | flawedMoment (flaw : Calendar.Flaw)
  | flawedDayOfMoment (flaw : Calendar.Flaw)
  | deformed (deformity : Uuid.Deformity)
  | tooLong (limit actual : Nat)
  | rejected (message : Text)
  | defect (complaint : Complaint)

namespace IssueKind

/-- What a validator's complaint is: one about the value rejects the data. -/
def ofComplaint (complaint : Complaint) : IssueKind :=
  if complaint.concern.rejects then .rejected complaint.message else .defect complaint

/-- The short name of a kind of issue. -/
def code : IssueKind → Text
  | .missing => Text.lit "missing"
  | .unexpected expected => expected.code
  | .fractional => Text.lit "int_from_float"
  | .notFinite => Text.lit "finite_number"
  | .tooLarge => Text.lit "int_parsing_size"
  | .unreadableInteger => Text.lit "int_parsing"
  | .unreadableNumber => Text.lit "float_parsing"
  | .unreadableDecimal => Text.lit "decimal_parsing"
  | .uninterpretable => Text.lit "bool_parsing"
  | .notUnicode => Text.lit "string_unicode"
  | .notHashable => Text.lit "set_item_not_hashable"
  | .timeOfDay => Text.lit "date_from_datetime_inexact"
  | .flawedDate _ => Text.lit "date_parsing"
  | .flawedDay _ => Text.lit "date_from_datetime_parsing"
  | .flawedMoment _ => Text.lit "datetime_parsing"
  | .flawedDayOfMoment _ => Text.lit "datetime_from_date_parsing"
  | .deformed _ => Text.lit "uuid_parsing"
  | .tooLong .. => Text.lit "too_long"
  | .rejected _ => Text.lit "value_error"
  | .defect _ => Text.lit "defect"

/-- The words for a kind of issue. -/
def message (help : Help) : IssueKind → Text
  | .missing => Text.lit "Field required"
  | .unexpected expected => expected.message help
  | .fractional => Text.lit "Input should be a valid integer, got a number with a fractional part"
  | .notFinite => Text.lit "Input should be a finite number"
  | .tooLarge => Text.lit "Unable to parse input string as an integer, exceeded maximum size"
  | .unreadableInteger =>
      Text.lit "Input should be a valid integer, unable to parse string as an integer"
  | .unreadableNumber =>
      Text.lit "Input should be a valid number, unable to parse string as a number"
  | .unreadableDecimal => Text.lit "Input should be a valid decimal"
  | .uninterpretable => Text.lit "Input should be a valid boolean, unable to interpret input"
  | .notUnicode =>
      Text.lit "Input should be a valid string, unable to parse raw data as a unicode string"
  | .notHashable => Text.lit "Set items should be hashable"
  | .timeOfDay =>
      Text.lit "Datetimes provided to dates should have zero time - e.g. be exact dates"
  | .flawedDate flaw =>
      Text.lit "Input should be a valid date in the format YYYY-MM-DD, " ++ flaw.message
  | .flawedDay flaw => Text.lit "Input should be a valid date or datetime, " ++ flaw.message
  | .flawedMoment flaw => Text.lit "Input should be a valid datetime, " ++ flaw.message
  | .flawedDayOfMoment flaw =>
      Text.lit "Input should be a valid datetime or date, " ++ flaw.message
  | .deformed deformity => Text.lit "Input should be a valid UUID, " ++ deformity.message
  | .tooLong limit actual =>
      Text.lit "Tuple should have at most " ++ Text.ofNat limit ++
        Text.lit (if limit = 1 then " item" else " items") ++ Text.lit " after validation, not " ++
        Text.ofNat actual
  | .rejected message => Text.lit "Value error, " ++ message
  | .defect complaint => complaint.message

end IssueKind

/-- One issue: where it is, what it is, and the data it is about. -/
structure Issue where
  place : List Text
  kind : IssueKind
  input : Data

namespace Issue

/-- The issue of a part, seen from the whole. -/
def inside (name : Text) (issue : Issue) : Issue := { issue with place := name :: issue.place }

/-- The longest front of a text that takes at most `room` octets. -/
def front : Nat → Text → Text
  | _, [] => []
  | room, c :: rest =>
      match Utf8.size? [c] with
      | some size => if size ≤ room then c :: front (room - size) rest else []
      | none => []

/-- The form of data in an issue: a long one keeps 25 octets of its front and 24 of its back. -/
def shownInput (data : Data) : Text :=
  let shown := data.shown
  if (Utf8.size? shown).getD 0 ≤ 50 then shown
  else front 25 shown ++ Text.lit "..." ++ (front 24 shown.reverse).reverse

/-- A step on the way to a place; one that has a point in it stands between grave accents. -/
def shownStep (step : Text) : Text := if step.contains 46 then 96 :: step ++ [96] else step

/-- The words for an issue. -/
def text (help : Help) (issue : Issue) : Text :=
  [10] ++ Text.joined [46] (issue.place.map shownStep) ++ Text.lit "\n  " ++ issue.kind.message help ++
    Text.lit " [type=" ++ issue.kind.code ++ Text.lit ", input_value=" ++ shownInput issue.input ++
    Text.lit ", input_type=" ++ issue.input.typeName ++ Text.lit "]\n    " ++
    Text.lit "For further information visit " ++ help.ofIssue issue.kind.code

/-- The defect that an issue is, if it is one. -/
def defect? (issue : Issue) : Option Complaint :=
  match issue.kind with
  | .defect complaint => some complaint
  | _ => none

/-- The report of all issues of a model. -/
def report (help : Help) (className : Text) (issues : List Issue) : Text :=
  Text.ofNat issues.length ++ Text.lit " validation error" ++
    (if issues.length = 1 then [] else Text.lit "s") ++ Text.lit " for " ++ className ++
    issues.flatMap (text help)

end Issue

/-! ## Checked data -/

/-- Data, or the issues that it has. -/
abbrev Checked (α : Type) := Except (List Issue) α

namespace Checked

/-- The issue of a datum as a whole. -/
def issue {α : Type} (kind : IssueKind) (input : Data) : Checked α := .error [⟨[], kind, input⟩]

/-- A checked part, seen from the whole. -/
def inside {α : Type} (name : Text) (checked : Checked α) : Checked α :=
  checked.mapError fun issues => issues.map (Issue.inside name)

/-- Two checked parts together; the issues of both are kept. -/
def both {α β γ : Type} (f : α → β → γ) : Checked α → Checked β → Checked γ
  | .ok a, .ok b => .ok (f a b)
  | .ok _, .error issues => .error issues
  | .error issues, .ok _ => .error issues
  | .error issues, .error others => .error (issues ++ others)

/-- The data, or one complaint: the first defect among the issues, else a report of all of them. -/
def settled {α : Type} (help : Help) (className : Text) (checked : Checked α) :
    Except Complaint α :=
  checked.mapError fun issues =>
    (issues.findSome? Issue.defect?).getD ⟨.validation, Issue.report help className issues⟩

end Checked

end JsonDecoding
