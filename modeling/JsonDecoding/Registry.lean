import JsonDecoding.Schema

/-!
# Registries

A registry maps the identities of custom specifications to factories of schemas. Registering gives
a new registry and leaves the old one as it was; an identity that equals a registered one takes
over its entry but not its place.
-/

namespace JsonDecoding

/-- A registered way of making a schema from specifications. The defaults fill the last
parameters. -/
structure Factory where
  build : List Spec → Except Fault Schema
  parameters : Nat
  defaults : List Spec
  name : Text

namespace Factory

/-- How many arguments have to be given. -/
def least (f : Factory) : Nat := f.parameters - f.defaults.length

/-- The arguments with the defaults for the missing ones. -/
def filled (f : Factory) (arguments : List Spec) : List Spec :=
  arguments ++ f.defaults.drop (f.defaults.length - (f.parameters - arguments.length))

/-- The schema for some arguments; their number is checked before anything is built. -/
def call (f : Factory) (arguments : List Spec) : Except Fault Schema :=
  if f.least ≤ arguments.length ∧ arguments.length ≤ f.parameters then f.build (f.filled arguments)
  else
    .error (.misconfiguration
      (.argumentCount f.name f.least f.parameters arguments.length))

end Factory

/-- What is registered: a schema, a factory, or data that is neither. -/
inductive Registrand where
  | schema (schema : Schema)
  | factory (build : List Spec → Except Fault Schema)
  | other (data : Data)

/-- A wish to register something under an identity. -/
structure Registration where
  identity : Spec
  registrand : Registrand
  parameters : Option Int
  defaults : List Spec

/-- The factories that are registered, in order of first registration. -/
structure Registry where
  entries : List (Spec × Factory)

namespace Registry

/-- A registry without schemas. -/
def empty : Registry := ⟨[]⟩

/-- The registered identities, in order of first registration. -/
def identities (r : Registry) : List Spec := Assoc.keys r.entries

/-- The factory registered for an identity. -/
def resolve (r : Registry) (identity : Spec) : Option Factory :=
  if identity.isHashable then r.entries.lookup identity else none

/-- The form of a registry in reports. -/
def shown (r : Registry) : Text :=
  Data.built (Text.lit "Schemas")
    (Text.joined (Text.lit ", ") (r.identities.map Spec.identityName))

/-- The name of an identity, if it has one. -/
def nameOf (identity : Spec) : Except Fault Text :=
  if identity.isNameable then .ok identity.identityName else .error .overlong

/-- The factory that a registration asks for. A schema takes no arguments; a factory takes one
unless said otherwise. -/
def factoryOf (registration : Registration) : Except Fault Factory := do
  let refuse (cause : Misconfiguration) : Except Fault Factory := .error (.misconfiguration cause)
  if registration.identity.isHashable then
    let defaults ← (Spec.coerceAll registration.defaults).mapError .misuse
    match registration.registrand with
    | .schema schema =>
        let name ← nameOf registration.identity
        if registration.parameters.getD 0 ≠ 0 ∨ defaults ≠ [] then refuse (.argumentsOfFixed name)
        else return ⟨fun _ => .ok schema, 0, [], name⟩
    | .factory build =>
        let parameters := registration.parameters.getD 1
        if parameters < 0 then refuse (.negativeParameters parameters)
        else if parameters < defaults.length then
          refuse (.tooManyDefaults defaults.length parameters)
        else return ⟨build, parameters.toNat, defaults, ← nameOf registration.identity⟩
    | .other data => refuse (.notASchema (← nameOf registration.identity) data.typeName)
  else refuse (.identityNotHashable registration.identity)

/-- The records that an accepted registration leaves: one if the identity is native and one if an
equal identity was registered before. -/
def records (r : Registry) (identity : Spec) : List Log.Record :=
  (if identity.isNative then [.alwaysNative identity.identityName] else []) ++
  (if (r.entries.lookup identity).isSome then [.replaced identity.identityName] else [])

/-- The registry with one more registration, and the records that it leaves. -/
def add (r : Registry) (registration : Registration) :
    Except Fault (Registry × List Log.Record) :=
  (factoryOf registration).map fun factory =>
    (⟨Assoc.put registration.identity factory r.entries⟩, r.records registration.identity)

end Registry

end JsonDecoding
