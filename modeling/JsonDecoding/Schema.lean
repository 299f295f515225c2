import JsonDecoding.DecodeError
import JsonDecoding.Fault

/-!
# Schemas

A schema is a named way of decoding values of one kind. Schemas of objects, arrays and scalars
hand what they decoded to a rule, which builds the result or rejects the content; a raw schema has
a handler of its own, which is free to do otherwise.
-/

namespace JsonDecoding

/-- A declared key of an object schema. -/
structure Field where
  key : Text
  spec : Spec
  isOptional : Bool

/-- What a handler goes through: it has values rendered or decoded and asks the registry, whether
an identity is registered or which ones are, until it answers or complains. What it does next may
depend on all that it learned; a fault that it meets is not caught. -/
inductive Procedure where
  | answer (result : Except DecodeError Data)
  | complain (complaint : Complaint)
  | render (value : Json) (next : Text → Procedure)
  | load (value : Json) (hint : Spec) (next : Except DecodeError Data → Procedure)
  | consult (identity : Spec) (next : Bool → Procedure)
  | survey (next : List Spec → Procedure)

/-- What a raw schema does with a value: decode it as something else and put a label on the result,
or go through a procedure of its own. -/
inductive Handler where
  | delegate (hint : Spec) (label : Option Text)
  | script (act : Json → Procedure)

namespace Handler

/-- The handler that answers outright. -/
def answer (respond : Json → Except DecodeError Data) : Handler :=
  .script fun value => .answer (respond value)

/-- The handler that gives the text of a value. -/
def text : Handler := .script fun value => .render value fun text => .answer (.ok (.str text))

end Handler

/-- A named way of decoding values. -/
inductive Schema where
  | object (description : Text) (fields : List Field) (assemble : Rule)
  | array (description : Text) (element : Spec) (assemble : Rule)
  | scalar (description : Text) (shape : Tag) (convert : Rule)
  | raw (description : Text) (shape : Option Tag) (handler : Handler)

namespace Schema

/-- The name that reports use for a schema. -/
def description : Schema → Text
  | .object description _ _ => description
  | .array description _ _ => description
  | .scalar description _ _ => description
  | .raw description _ _ => description

/-- The kind of value that a schema is bound to. -/
def shape : Schema → Option Tag
  | .object .. => some .object
  | .array .. => some .array
  | .scalar _ shape _ => some shape
  | .raw _ shape _ => shape

/-- The form of a schema in reports. -/
def shown (schema : Schema) : Text :=
  Data.built (Text.lit "JsonSchema") (Text.quoted schema.description)

/-- The specification of an annotation, or the fault of misusing it. -/
def specOf (hint : Spec) : Except Fault Spec := hint.coerce.mapError .misuse

/-- The schema of objects with the declared keys. Of equal keys the last annotation counts, at the
place of the first. -/
def ofFields (description : Text) (fields : List (Text × Spec)) (optional : List Text)
    (assemble : Rule) : Except Fault Schema :=
  ((Assoc.ofPairs fields).mapM fun (key, hint) =>
      (specOf hint).map fun spec => (⟨key, spec, optional.contains key⟩ : Field)).map
    fun fields => .object description fields assemble

/-- The schema of arrays of one kind of element. -/
def ofElement (description : Text) (element : Spec) (assemble : Rule) : Except Fault Schema :=
  (specOf element).map fun spec => .array description spec assemble

/-- The schema of one kind of scalar; arrays and objects are no scalars. -/
def ofScalar (description : Text) (shape : Tag) (convert : Rule) : Except Fault Schema :=
  match shape with
  | .array => .error (.containerShape .array)
  | .object => .error (.containerShape .object)
  | shape => .ok (.scalar description shape convert)

end Schema

end JsonDecoding
