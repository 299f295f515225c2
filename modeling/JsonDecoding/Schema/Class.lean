import JsonDecoding.Schema.Model
import JsonDecoding.Schema.Record
import JsonDecoding.Spec.Kind

/-!
# Classes

The classes that identities can name: record classes and model classes. A class of another kind
has no schema of its own.
-/

namespace JsonDecoding

/-- A class with fields. -/
inductive ClassDef where
  | record (definition : RecordClass)
  | model (definition : ModelClass)

/-- The classes with fields, under the identities that name them. -/
abbrev Classes := List (Spec × ClassDef)

namespace ClassDef

/-- The words for an identity that is no record class. -/
def misnomer (identity : Spec) : Text :=
  match identity with
  | .symbol .. => identity.shown
  | _ => identity.identityName

/-- The fault that an identity is no record class; it names the identity. -/
def notARecord (identity : Spec) : Fault :=
  if identity.isNameable then .notARecordClass (misnomer identity) else .overlong

/-- The schema of a record class. -/
def recordSchema (classes : Classes) (identity : Spec) (mapping : List (Text × Text))
    (description : Text) : Except Fault Schema :=
  match classes.lookup identity with
  | some (.record definition) => definition.schema mapping description
  | _ => .error (notARecord identity)

/-- The fault that an identity which is no model class lacks an attribute: a type lacks the fields
of a model; anything else lacks even a name, which is asked for where there is no description. -/
def withoutFields (identity : Spec) (description : Text) : Fault :=
  let missing := if identity.typeName?.isNone && description.isEmpty then "__name__"
    else "model_fields"
  .misuse (.undefinedAttribute identity.ownerName (Text.lit missing))

/-- The schema of a model class, validating or not. -/
def modelSchema (classes : Classes) (identity : Spec) (mapping : List (Text × Text))
    (validates : Bool) (description : Text) : Except Fault Schema :=
  match classes.lookup identity with
  | some (.model definition) => definition.schema mapping validates description
  | _ => .error (withoutFields identity description)

end ClassDef

end JsonDecoding
