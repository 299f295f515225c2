import JsonDecoding.Schema.Record

/-!
# Flawed classes

Not every list of fields makes a class: names have to be names and distinct, defaults that all
instances share must not be able to change, and initial fields without a default come first.
-/

namespace JsonDecoding

/-- Why a class cannot be made of its fields. -/
inductive ClassFlaw where
  | notAName (field : Text)
  | reservedName (field : Text)
  | repeatedName (field : Text)
  | hiddenName (field : Text)
  | mutableDefault (kind field : Text)
  | defaultBefore (field : Text)

/-- The words for a flaw of a class. -/
def ClassFlaw.message : ClassFlaw → Text
  | .notAName field => Text.lit "Field names must be valid identifiers: " ++ Text.quoted field
  | .reservedName field => Text.lit "Field names must not be keywords: " ++ Text.quoted field
  | .repeatedName field => Text.lit "Field name duplicated: " ++ Text.quoted field
  | .hiddenName field =>
      Text.lit "Fields must not use names with leading underscores; e.g., use " ++
        Text.quoted (field.dropWhile (· = 95)) ++ Text.lit " instead of " ++ Text.quoted field ++
        Text.lit "."
  | .mutableDefault kind field =>
      Text.lit "mutable default " ++ shownClass kind ++ Text.lit " for field " ++ field ++
        Text.lit " is not allowed: use default_factory"
  | .defaultBefore field =>
      Text.lit "non-default argument " ++ Text.quoted field ++ Text.lit " follows default argument"

/-- The fault of a flaw of a class. -/
def ClassFlaw.fault (flaw : ClassFlaw) : Fault :=
  let concern : Concern := match flaw with
    | .mutableDefault .. => .value
    | .hiddenName _ => .name
    | _ => .type
  .complaint ⟨concern, flaw.message⟩

namespace RecordClass

/-- The flaw of the first name that is no name for a field; `earlier` holds the names in front. -/
def nameFlaw? (earlier : List Text) : List Text → Option ClassFlaw
  | [] => none
  | name :: rest =>
      if !Text.isName name then some (.notAName name)
      else if Expression.isReserved name then some (.reservedName name)
      else if earlier.contains name then some (.repeatedName name)
      else nameFlaw? (name :: earlier) rest

/-- The flaw of a field whose default could change. -/
def mutableDefault? (field : RecordField) : Option ClassFlaw :=
  match field.default with
  | some (.shared value) =>
      if Spec.isMutable value then some (.mutableDefault value.typeName field.name) else none
  | _ => none

/-- The flaw that an initial field has no default while an earlier one has; `seen` says whether an
earlier one has. -/
def defaultBefore? : Bool → List RecordField → Option ClassFlaw
  | _, [] => none
  | seen, field :: rest =>
      if !field.isInitial then defaultBefore? seen rest
      else if field.default.isSome then defaultBefore? true rest
      else if seen then some (.defaultBefore field.name)
      else defaultBefore? false rest

/-- The first reason why a class cannot be made of its fields. -/
def flaw? (c : RecordClass) : Option ClassFlaw :=
  (nameFlaw? [] (c.fields.map RecordField.name)).or
    ((c.fields.findSome? mutableDefault?).or (defaultBefore? false c.fields))

end RecordClass

end JsonDecoding
