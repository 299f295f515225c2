import JsonDecoding.Attempt
import JsonDecoding.Data.Sets
import JsonDecoding.Registry

/-!
# Decoding

Matching a value against a specification. The functions before `decode` say what each
specification does with a value when `step` decodes the parts; `decode` ties them together. It is
given room for a number of decodings inside each other, since a schema may hand the same value on
without end.
-/

namespace JsonDecoding

namespace Decoder

/-! ## Containers -/

/-- Decodes items in order up to the first failure; the first item stands at `index`. -/
def elements (step : Json → Attempt Data) (index : Nat) : List Json → Attempt (List Data)
  | [] => .done []
  | item :: rest =>
      ((step item).located (.index index)).bind fun data =>
        (elements step (index + 1) rest).map fun others => data :: others

/-- Decodes the values of fields in order up to the first failure. -/
def entries (step : Json → Attempt Data) : List (Text × Json) → Attempt (List (Data × Data))
  | [] => .done []
  | (key, item) :: rest =>
      ((step item).located (.key key)).bind fun data =>
        (entries step rest).map fun others => (.str key, data) :: others

/-- Decodes items in order, each by the specification at its position. -/
def positions (step : Spec → Json → Attempt Data) (index : Nat) :
    List Spec → List Json → Attempt (List Data)
  | spec :: specs, item :: rest =>
      ((step spec item).located (.index index)).bind fun data =>
        (positions step (index + 1) specs rest).map fun others => data :: others
  | _, _ => .done []

/-- Decodes the declared fields that an object has, in declared order. -/
def declared (step : Spec → Json → Attempt Data) (object : List (Text × Json)) :
    List Field → Attempt (List (Data × Data))
  | [] => .done []
  | field :: rest =>
      match object.lookup field.key with
      | none => declared step object rest
      | some item =>
          ((step field.spec item).located (.key field.key)).bind fun data =>
            (declared step object rest).map fun others => (.str field.key, data) :: others

/-! ## Specifications -/

/-- The refusal of a value that is not of the expected kind. -/
def mismatch (expected : Text) (value : Json) : Attempt Data :=
  .refuse (.typeMismatch expected value.tag.name value)

/-- Ends in a fault where the description of a specification with a flaw is about to be written. -/
def describable (spec : Spec) (t : Attempt Data) : Attempt Data :=
  match spec.flaw? with
  | none => t
  | some flaw => .fault (.ofFlaw flaw)

/-- The kind of value that a scalar specification matches. -/
def tagOf? : Primitive → Option Tag
  | .boolean => some .boolean
  | .number => some .number
  | .string => some .string
  | .null => some .null
  | .any => none

/-- A scalar specification: the value has to be of its kind, and any value has its parts decoded. -/
def scalar (step : Spec → Json → Attempt Data) (kind : Primitive) (value : Json) : Attempt Data :=
  match tagOf? kind with
  | some tag =>
      match value.scalar? with
      | some data => if value.tag = tag then .done data else mismatch kind.name value
      | none => mismatch kind.name value
  | none =>
      match value with
      | .array items => (elements (step .any) 0 items).map .list
      | .object fields => (entries (step .any) fields).map .dict
      | value => .done (value.scalar?.getD .null)

/-- The set of decoded items, unless one of them cannot be an element of a set. A record that lacks a
field is no matter of hashing. -/
def setOf (spec : Spec) (value : Json) (items : List Data) : Attempt Data :=
  match Data.unhashableItem? items with
  | none => .done (Data.setOf items)
  | some (.lacking className field) =>
      .fault (.complaint ⟨.attribute, (Data.Unhashable.lacking className field).message⟩)
  | some reason =>
      describable spec
        (.refuse (.invalid spec.describe value
          (Text.lit "set elements must be hashable (" ++ reason.message ++ Text.lit ")")))

/-- A tuple specification: an array of as many items as there are positions. -/
def tupleOf (step : Spec → Json → Attempt Data) (specs : List Spec) (value : Json) :
    Attempt Data :=
  let expected := Text.lit "tuple of length " ++ Text.ofNat specs.length
  match value with
  | .array items =>
      if items.length = specs.length then (positions step 0 specs items).map .tuple
      else
        .refuse (.typeMismatch expected
          (Text.lit "array of length " ++ Text.ofNat items.length) value)
  | value => mismatch expected value

/-- The record that an alternative leaves which has no strategy to decode it. It names the
specifications before the reason. -/
def unresolved (whole alternative : Spec) (e : DecodeError) : Attempt Data → Attempt Data :=
  match e.cause with
  | .unknownSpec spec => fun rest =>
      describable alternative <| describable whole <| describable spec <|
        .after [.alternativeUnresolved alternative.describe whole.describe e.reason] rest
  | _ => id

/-- The first alternative that decodes the value. Failures of alternatives are not reported, but
one that cannot be resolved leaves a record. -/
def firstOf (step : Spec → Json → Attempt Data) (whole : Spec) (value : Json) :
    List Spec → Attempt Data
  | [] => describable whole (mismatch whole.describe value)
  | alternative :: rest =>
      let t := step alternative value
      match t.result with
      | .error (.failed e) =>
          .after t.log (unresolved whole alternative e (firstOf step whole value rest))
      | _ => t

/-- What a specification does with a value. -/
def matching (step : Spec → Json → Attempt Data) (spec : Spec) (value : Json) : Attempt Data :=
  match spec with
  | .primitive kind => scalar step kind value
  | .arrayOf element =>
      match value with
      | .array items => (elements (step element) 0 items).map .list
      | value => mismatch (Text.lit "array") value
  | .objectOf content =>
      match value with
      | .object fields => (entries (step content) fields).map .dict
      | value => mismatch (Text.lit "object") value
  | .mapOf key content =>
      if key.isString then
        match value with
        | .object fields => (entries (step content) fields).map .dict
        | value => mismatch (Text.lit "object") value
      else .refuse (.unknownSpec key)
  | .setOf element =>
      match value with
      | .array items => (elements (step element) 0 items).bind (setOf spec value)
      | value => mismatch (Text.lit "array") value
  | .tupleOf specs => tupleOf step specs value
  | .anyOf alternatives => firstOf step spec value alternatives
  | hint => .fault (.notASpecification hint)

/-! ## Schemas -/

/-- Decodes an object by declared fields: missing keys are reported before unknown ones, and both
before any value is decoded. -/
def object (step : Spec → Json → Attempt Data) (description : Text) (fields : List Field)
    (assemble : Rule) (content : List (Text × Json)) : Attempt Data :=
  let present := Assoc.keys content
  let missing := fields.filter fun field => !field.isOptional && !present.contains field.key
  let unknown := present.filter fun key => !fields.any fun field => field.key == key
  if !missing.isEmpty then .refuse (.missingKeys (missing.map Field.key))
  else if !unknown.isEmpty then .refuse (.unknownKeys unknown)
  else
    (declared step content fields).bind fun entries =>
      .ofRule description (.object content) (assemble (.dict entries))

/-- What a procedure comes to. -/
def run (registry : Registry) (step : Spec → Json → Attempt Data) (room : Nat) :
    Procedure → Attempt Data
  | .answer (.ok data) => .done data
  | .answer (.error e) => .stopped (.failed e)
  | .complain complaint => .fault (.complaint complaint)
  | .render value next =>
      match Attempt.unshown? room value with
      | none => run registry step room (next value.render)
      | some stop => .stopped stop
  | .load value hint next =>
      (Attempt.ofExcept (Schema.specOf hint)).bind fun spec =>
        (step spec value).resume fun result => run registry step room (next result)
  | .consult identity next => run registry step room (next (registry.resolve identity).isSome)
  | .survey next => run registry step room (next registry.identities)

/-- What the handler of a raw schema does with a value. -/
def handled (registry : Registry) (step : Spec → Json → Attempt Data) (room : Nat)
    (handler : Handler) (value : Json) : Attempt Data :=
  match handler with
  | .delegate hint label =>
      (Attempt.ofExcept (Schema.specOf hint)).bind fun spec =>
        (step spec value).map fun data =>
          match label with
          | none => data
          | some label => .labelled none label data
  | .script act => run registry step room (act value)

/-- What a schema does with a value. A schema that is bound to a kind of value refuses every other
kind. -/
def bySchema (registry : Registry) (step : Spec → Json → Attempt Data) (room : Nat)
    (schema : Schema) (value : Json) : Attempt Data :=
  match schema, value with
  | .object description fields assemble, .object content =>
      object step description fields assemble content
  | .array description element assemble, .array items =>
      (elements (step element) 0 items).bind fun data =>
        .ofRule description value (assemble (.list data))
  | .scalar description shape convert, value =>
      match value.scalar? with
      | some data =>
          if value.tag = shape then .ofRule description value (convert data)
          else mismatch description value
      | none => mismatch description value
  | .raw description shape handler, value =>
      if shape.all (· = value.tag) then handled registry step room handler value
      else mismatch description value
  | schema, value => mismatch schema.description value

/-- What a custom specification does with a value: a registered one is decoded by its schema. -/
def custom (registry : Registry) (step : Spec → Json → Attempt Data) (room : Nat)
    (identity : Spec) (arguments : List Spec) (value : Json) : Attempt Data :=
  let spec := Spec.custom identity arguments
  match registry.resolve identity with
  | none => Attempt.framedBy room spec value (.refuse (.unknownSpec spec))
  | some factory =>
      (Attempt.ofExcept (factory.call arguments)).bind fun schema =>
        (bySchema registry step room schema value).framed room schema.description value

/-! ## All together -/

/-- Decodes a value by a specification, with room for a number of decodings inside each other. -/
def decode (registry : Registry) : Nat → Spec → Json → Attempt Data
  | 0, _, _ => .stopped .exhausted
  | room + 1, spec, value =>
      let step := fun spec value => decode registry room spec value
      match spec.desugar with
      | .custom identity arguments => custom registry step room identity arguments value
      | spec => (matching step spec value).framedBy room spec value

/-- How many decodings may be under way inside each other. -/
def defaultRoom : Nat := 1000

end Decoder

end JsonDecoding
