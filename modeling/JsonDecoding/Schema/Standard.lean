import JsonDecoding.Calendar.Iso
import JsonDecoding.Registry

/-!
# Standard schemas

Schemas of moments, dates, UUIDs and decimal numbers written as JSON strings, and the registry
that holds them under the types they decode to.
-/

namespace JsonDecoding.Standard

/-- The rule that reads the text of a string, and rejects it with the words of the reader. -/
def reading {ρ α : Type} (read : Text → Except ρ α) (words : Text → ρ → Text) (build : α → Data) :
    Rule := fun data =>
  match data with
  | .str t => ((read t).map build).mapError fun rejection => ⟨.value, words t rejection⟩
  | data => .error ⟨.type, data.typeName⟩

/-- The words for a text that is no decimal number, or no finite one. -/
def decimalWords (t : Text) : Decimal.Rejection → Text
  | .notANumber => Text.quoted t ++ Text.lit " is not a decimal number"
  | .notFinite _ => Text.quoted t ++ Text.lit " is not a finite decimal number"

/-- The schema of moments; one without an offset is in universal time. -/
def moment : Schema :=
  .scalar (Text.lit "datetime") .string
    (reading Calendar.readMoment (fun _ r => r.message) .moment)

/-- The schema of dates. -/
def date : Schema :=
  .scalar (Text.lit "date") .string (reading Calendar.readDate (fun _ r => r.message) .date)

/-- The schema of UUIDs. -/
def uuid : Schema :=
  .scalar (Text.lit "UUID") .string (reading Uuid.read (fun _ r => r.message) .uuid)

/-- The schema of decimal numbers. -/
def decimal : Schema :=
  .scalar (Text.lit "decimal") .string (reading Decimal.read decimalWords .decimal)

/-- The entry of a schema under a type. -/
def entry (type : Builtin) (schema : Schema) : Spec × Factory :=
  (.builtin type, ⟨fun _ => .ok schema, 0, [], type.name⟩)

/-- The registry of the standard schemas. -/
def registry : Registry :=
  ⟨[entry .datetime moment, entry .date date, entry .uuid uuid, entry .decimal decimal]⟩

end JsonDecoding.Standard
