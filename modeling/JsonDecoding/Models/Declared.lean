import JsonDecoding.Models.Conform
import JsonDecoding.Schema.Model

/-!
# Declared models

A model class may be declared by its fields and validators of single fields. A model of it is built
in one of two ways: validated, where data is brought to the annotated type, validators run and all
issues are reported together; or as it stands, where nothing is checked.
-/

namespace JsonDecoding

/-- A model class. It is not complete where a name in its annotations has no meaning; `missing` is
the first such name. -/
structure DeclaredModel where
  name : Text
  fields : List ModelField
  validators : List (Text × Rule)
  missing : Option Text

namespace DeclaredModel

/-- A match after the validators of its field, up to the first complaint, which is an issue of the
input. -/
def validated (input : Data) : List Rule → Match Data → Outcome Data
  | [], m => .ok m
  | rule :: rest, m =>
      match rule m.result with
      | .ok data => validated input rest { m with result := data }
      | .error complaint => Checked.issue (.ofComplaint complaint) input

/-- The value of a field found in the input, brought to its type and validated. -/
def fieldValue (c : DeclaredModel) (instances : Conform.Instances) (field : ModelField)
    (input : Data) : Outcome Data :=
  let rules := (c.validators.filter fun validator => validator.1 == field.name).map Prod.snd
  (Conform.conform instances field.hint input).bind (validated input rules)

/-- The values of fields from a dictionary, defaults for those that are absent, and the names of
those that are present. All issues are collected. -/
def readFields (c : DeclaredModel) (instances : Conform.Instances) (input : List (Data × Data)) :
    List ModelField → Outcome (List (Text × Data) × List Text)
  | [] => Outcome.matched .exact ([], [])
  | field :: rest =>
      let (value, given) : Outcome Data × List Text :=
        match input.lookup (.str field.inputName), field.default with
        | some data, _ => (c.fieldValue instances field data, [field.name])
        | none, some data => (Outcome.matched .exact data, [])
        | none, none => (Checked.issue .missing (.dict input), [])
      (value.inside field.inputName).both
        (Match.both fun value others => ((field.name, value) :: others.1, given ++ others.2))
        (c.readFields instances input rest)

/-- The model read from a dictionary of values under the aliases of its fields. -/
def readModel (c : DeclaredModel) (instances : Conform.Instances) (input : List (Data × Data)) :
    Outcome Data :=
  (c.readFields instances input c.fields).map fun m =>
    let (fields, given) := m.result
    (m.made given.length).map fun _ => .model c.name fields given

/-- The complaint that a class is not complete for want of a name. -/
def incomplete (help : Help) (c : DeclaredModel) (name : Text) : Complaint :=
  ⟨.other (Text.lit "PydanticUserError"), Text.lit "`" ++ c.name ++
    Text.lit "` is not fully defined; you should define `" ++ name ++ Text.lit "`, then call `" ++
    c.name ++ Text.lit ".model_rebuild()`.\n\nFor further information visit " ++
    help.ofUsage (Text.lit "class-not-fully-defined")⟩

/-- The model validated from values under the aliases of its fields. A class that is not complete
cannot validate. -/
def validate (help : Help) (c : DeclaredModel) (instances : Conform.Instances)
    (input : List (Text × Data)) : Except Complaint Data :=
  match c.missing with
  | some name => .error (incomplete help c name)
  | none =>
      let input := input.map fun entry => (Data.str entry.1, entry.2)
      Checked.settled help c.name ((c.readModel instances input).map Match.result)

/-- The fields of a model built as it stands: the value under the alias of a field, which no later
field takes again, else the one under its name, else the default. -/
def takeFields : List ModelField → List (Text × Data) → List (Text × Data) × List Text
  | [], _ => ([], [])
  | field :: rest, input =>
      let sources := (field.publicName.filter fun name => !name.isEmpty).toList ++ [field.name]
      match sources.find? fun source => (input.lookup source).isSome with
      | some source =>
          let value := (input.lookup source).getD .null
          let (fields, given) := takeFields rest (input.filter fun entry => entry.1 != source)
          ((field.name, value) :: fields, field.name :: given)
      | none =>
          let (fields, given) := takeFields rest input
          match field.default with
          | some value => ((field.name, value) :: fields, given)
          | none => (fields, given)

/-- The model built as it stands from values under the names of its fields. -/
def construct (c : DeclaredModel) (input : List (Text × Data)) : Data :=
  let (fields, given) := takeFields c.fields input
  .model c.name fields given

end DeclaredModel

end JsonDecoding
