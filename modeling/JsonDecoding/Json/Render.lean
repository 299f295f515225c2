import JsonDecoding.Json

/-!
# The text of a JSON value

The compact text: no blanks, strings with the escapes that JSON demands and everything else as it
is. Numbers that are not finite have no JSON form and are shown by name.
-/

namespace JsonDecoding.Json

/-- One code point inside a JSON string. -/
def escaped (c : CodePoint) : Text :=
  if c = 34 then Text.lit "\\\""
  else if c = 92 then Text.lit "\\\\"
  else if c = 10 then Text.lit "\\n"
  else if c = 13 then Text.lit "\\r"
  else if c = 9 then Text.lit "\\t"
  else if c = 8 then Text.lit "\\b"
  else if c = 12 then Text.lit "\\f"
  else if c < 32 then Text.lit "\\u" ++ Text.hex 4 c
  else [c]

/-- A JSON string. -/
def renderString (s : Text) : Text := 34 :: s.flatMap escaped ++ [34]

/-- A JSON number. -/
def renderNumber : Number → Text
  | .int i => Text.ofInt i
  | .float x => x.textWith (Text.lit "Infinity") (Text.lit "NaN")

mutual

/-- The compact text of a value. -/
def render : Json → Text
  | .null => Text.lit "null"
  | .boolean true => Text.lit "true"
  | .boolean false => Text.lit "false"
  | .number n => renderNumber n
  | .string s => renderString s
  | .array items => 91 :: Text.joined [44] (renderItems items) ++ [93]
  | .object fields => 123 :: Text.joined [44] (renderFields fields) ++ [125]

/-- The texts of items in order. -/
def renderItems : List Json → List Text
  | [] => []
  | item :: rest => render item :: renderItems rest

/-- The texts of fields in order, each key before its value. -/
def renderFields : List (Text × Json) → List Text
  | [] => []
  | (key, value) :: rest => (renderString key ++ 58 :: render value) :: renderFields rest

end

mutual

/-- Whether a value holds an integer that has too many digits to be written. -/
def isOverlong : Json → Bool
  | .number (.int i) => Text.isOverlong i
  | .array items => anyOverlong items
  | .object fields => fieldsOverlong fields
  | _ => false

/-- Whether one of some items holds such an integer. -/
def anyOverlong : List Json → Bool
  | [] => false
  | item :: rest => isOverlong item || anyOverlong rest

/-- Whether one of some fields holds such an integer. -/
def fieldsOverlong : List (Text × Json) → Bool
  | [] => false
  | (_, value) :: rest => isOverlong value || fieldsOverlong rest

end

/-- A value whose integers can all be written. -/
def IsShort (value : Json) : Prop := value.isOverlong = false

instance (value : Json) : Decidable value.IsShort := inferInstanceAs (Decidable (_ = _))

theorem isShort_array {items : List Json} :
    (array items).IsShort ↔ ∀ item ∈ items, item.IsShort := by
  simp only [IsShort, isOverlong]
  induction items with
  | nil => simp [anyOverlong]
  | cons item rest ih => simp [anyOverlong, ih]

theorem isShort_object {fields : List (Text × Json)} :
    (object fields).IsShort ↔ ∀ field ∈ fields, field.2.IsShort := by
  simp only [IsShort, isOverlong]
  induction fields with
  | nil => simp [fieldsOverlong]
  | cons field rest ih => simp [fieldsOverlong, ih]

/-- What a report shows of a value: its text, clipped. -/
def seen (value : Json) : Text := value.render.clip

end JsonDecoding.Json
