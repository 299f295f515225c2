import JsonDecoding.Schema.Keys

/-!
# Model classes

The classes of a library of models. A model class declares fields with annotations, aliases and
defaults; how it builds a model is its own affair. It can do so in two ways: by validation of values
under the aliases of its fields, or of values under their names as they stand.
-/

namespace JsonDecoding

/-- A field of a model class; its public name is the alias under which it is given. -/
structure ModelField where
  name : Text
  hint : Spec
  publicName : Option Text
  default : Option Data

/-- A model class with its two ways of building a model. A complaint of a validation is what the
library reports about a value that it does not accept. -/
structure ModelClass where
  name : Text
  fields : List ModelField
  validate : List (Text × Data) → Except Complaint Data
  construct : List (Text × Data) → Except Complaint Data

namespace ModelField

/-- The key under which a field is read from JSON: the one that it is mapped to, else its alias, else
its name. An empty key or alias does not count. -/
def key (mapping : List (Text × Text)) (field : ModelField) : Text :=
  let unlessEmpty (name : Text) (otherwise : Text) : Text :=
    if name.isEmpty then otherwise else name
  unlessEmpty ((mapping.lookup field.name).getD [])
    (unlessEmpty (field.publicName.getD []) field.name)

/-- The name under which validation looks for a field. -/
def inputName (field : ModelField) : Text := field.publicName.getD field.name

/-- The alias of a field, or its name where it has none. -/
def validationName (field : ModelField) : Text :=
  match field.publicName with
  | some (c :: rest) => c :: rest
  | _ => field.name

end ModelField

namespace ModelClass

/-- The keys that the fields ask for. -/
def requests (c : ModelClass) (mapping : List (Text × Text)) : List KeyRequest :=
  c.fields.map fun field =>
    ⟨field.key mapping, field.name, field.hint, field.default.isSome⟩

/-- The alias, or else the name, of the field that owns each key. -/
def validationNames (c : ModelClass) (mapping : List (Text × Text)) : List (Text × Text) :=
  Assoc.ofPairs (c.fields.map fun field => (field.key mapping, field.validationName))

/-- The model built of a decoded object, validating or not. -/
def build (c : ModelClass) (mapping : List (Text × Text)) (validates : Bool) : Rule := fun data =>
  if validates then
    c.validate (Assoc.ofPairs (KeyRequest.renamedEntries (c.validationNames mapping) data))
  else c.construct (KeyRequest.renamedEntries (KeyRequest.owners (c.requests mapping)) data)

/-- The schema of the class under a renaming of its fields; an empty description gives way to the
name of the class. Of the complaints about a value only those of the validation reject it. -/
def schema (c : ModelClass) (mapping : List (Text × Text)) (validates : Bool)
    (description : Text) : Except Fault Schema :=
  KeyRequest.schema (if description.isEmpty then c.name else description) (c.requests mapping)
    fun data => (c.build mapping validates data).mapError Complaint.unlessValidation

end ModelClass

end JsonDecoding
