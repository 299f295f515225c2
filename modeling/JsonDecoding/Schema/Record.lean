import JsonDecoding.Schema.Keys
import JsonDecoding.Spec.Written

/-!
# Record classes

A record class declares fields with annotations and defaults. Its constructor stores the fields that
it is given and the defaults of the others, and has a hook complete the instance, which may change
fields, set those that have no value yet, or complain. Only initial fields are read from JSON; others
are internal, or arguments that the hook alone sees. The schema of a class reads an object, each
initial field under its own name or a mapped key, and constructs an instance.
-/

namespace JsonDecoding

/-- The default of a field: one datum for all instances, or an empty container for each. -/
inductive FieldDefault where
  | shared (value : Data)
  | fresh (value : Data)

/-- The datum that a field without a value of its own has. -/
def FieldDefault.value : FieldDefault → Data
  | .shared value => value
  | .fresh value => value

/-- What becomes of a field: the constructor takes and stores it, stores it without taking it, or takes
it for the hook only. -/
inductive FieldRole where
  | initial
  | internal
  | argument
deriving DecidableEq

/-- A field of a record class. -/
structure RecordField where
  name : Text
  hint : Spec
  default : Option FieldDefault
  role : FieldRole

namespace RecordField

/-- Whether a field is read from JSON. -/
def isInitial (field : RecordField) : Bool := field.role = .initial

/-- Whether the constructor takes a field. -/
def isTaken (field : RecordField) : Bool := field.role ≠ .internal

/-- Whether instances have a field. -/
def isStored (field : RecordField) : Bool := field.role ≠ .argument

/-- The value of a field: what is given, if the constructor takes the field, else its default. -/
def valueOf (given : List (Text × Data)) (field : RecordField) : Option Data :=
  let default := field.default.map FieldDefault.value
  if field.isTaken then (given.lookup field.name).or default else default

/-- The default that all instances see in a field which they have no value of their own for. -/
def sharedDefault? (field : RecordField) : Option Data :=
  match field.default with
  | some (.shared value) => some value
  | _ => none

end RecordField

/-- The values of fields under their names. -/
abbrev Values := List (Text × Data)

/-- A record class. Its hook is given the stored fields as far as they have values, and the arguments;
it answers with the fields as it leaves them. A class may have a constructor of its own in place of
all this, which answers with the fields that it sets. -/
structure RecordClass where
  name : Text
  fields : List RecordField
  isFrozen : Bool
  complete : Values → Values → Except Complaint Values
  ownConstructor : Option (Values → Except Complaint Values)

namespace RecordClass

/-! ## Instances -/

/-- Names in quotes, as an enumeration. -/
def enumerated : List Text → Text
  | [] => []
  | [a] => a
  | [a, b] => a ++ Text.lit " and " ++ b
  | names =>
      Text.joined (Text.lit ", ") names.dropLast ++ Text.lit ", and " ++ names.getLast?.getD []

/-- The complaint that fields are neither given nor have a default. -/
def missingArguments (className : Text) (names : List Text) : Complaint :=
  ⟨.type, className ++ Text.lit ".__init__() missing " ++ Text.ofNat names.length ++
    Text.lit " required positional argument" ++ (if names.length = 1 then [] else Text.lit "s") ++
    Text.lit ": " ++ enumerated (names.map Text.quoted)⟩

/-- The fields that the constructor takes and gets no value for. -/
def missing (c : RecordClass) (given : Values) : List RecordField :=
  c.fields.filter fun field => field.isTaken && (field.valueOf given).isNone

/-- The values of some fields, as far as they have one. -/
def valuesOf (given : Values) (fields : List RecordField) : Values :=
  fields.filterMap fun field => (field.valueOf given).map fun value => (field.name, value)

/-- The fields that an instance starts with. -/
def stored (c : RecordClass) (given : Values) : Values :=
  valuesOf given (c.fields.filter RecordField.isStored)

/-- What the hook is given beside the fields. -/
def arguments (c : RecordClass) (given : Values) : Values :=
  valuesOf given (c.fields.filter fun field => field.role = .argument)

/-- The fields that the constructor sets, unless a value is missing. -/
def initialized (c : RecordClass) (given : Values) : Except Complaint Values :=
  match c.ownConstructor with
  | some build => build given
  | none =>
      let missing := c.missing given
      if missing.isEmpty then c.complete (c.stored given) (c.arguments given)
      else .error (missingArguments c.name (missing.map RecordField.name))

/-- What a field of an instance shows: the value that is set, or the default of the class. -/
def shownIn (values : Values) (field : RecordField) : Option Data :=
  (values.lookup field.name).or field.sharedDefault?

/-- The instance with some fields set. It lacks those that show nothing. -/
def instanceOf (c : RecordClass) (values : Values) : Data :=
  let fields := c.fields.filter RecordField.isStored
  .record c.name c.isFrozen
    (fields.filterMap fun field => (shownIn values field).map fun value => (field.name, value))
    ((fields.filter fun field => (shownIn values field).isNone).map RecordField.name)

/-- The instance made of given values of fields. -/
def construct (c : RecordClass) (given : Values) : Except Complaint Data :=
  (c.initialized given).map c.instanceOf

/-! ## Schemas -/

/-- The defaults that all instances share, under the names of their fields. -/
def attributes (c : RecordClass) : Values :=
  c.fields.filterMap fun field => field.sharedDefault?.map fun value => (field.name, value)

/-- What the names in annotations of the class stand for. -/
def scope (c : RecordClass) : Scope :=
  Scope.internal.before ((Scope.ofData c.attributes).before Scope.builtin)

/-- The fields with the texts in their annotations read, also those that are not initial. -/
def resolvedFields (c : RecordClass) : Except Fault (List RecordField) :=
  c.fields.mapM fun field =>
    ((field.hint.resolved c.scope).mapError Fault.misuse).map fun hint =>
      { field with hint := hint }

/-- The keys that the initial ones of some fields ask for. -/
def requests (fields : List RecordField) (mapping : List (Text × Text)) : List KeyRequest :=
  (fields.filter RecordField.isInitial).map fun field =>
    ⟨KeyRequest.renamed mapping field.name, field.name, field.hint, field.default.isSome⟩

/-- The schema of the class under a renaming of its fields; an empty description gives way to the
name of the class. -/
def schema (c : RecordClass) (mapping : List (Text × Text)) (description : Text) :
    Except Fault Schema :=
  c.resolvedFields.bind fun fields =>
    let requests := requests fields mapping
    let owners := KeyRequest.owners requests
    KeyRequest.schema (if description.isEmpty then c.name else description) requests fun data =>
      c.construct (KeyRequest.renamedEntries owners data)

end RecordClass

end JsonDecoding
