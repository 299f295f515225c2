import JsonDecoding.Spec.Shown

/-!
# Descriptions of specifications

The words in which reports name a specification. An annotation that has not been turned into a
specification has none, and neither has an identity that shows an integer with too many digits:
`flaw?` finds the first of both that a description would meet, `stray?` the first such annotation.
-/

namespace JsonDecoding

namespace Spec

/-- The name of an identity. A union in brackets is named after its form. -/
def identityName : Spec → Text
  | .builtin type => type.name
  | .named name .. => name
  | .symbol name _ => name
  | .token value => value.toText
  | .generic head _ => head.name
  | .union .brackets [.builtin .noneType, _] => Text.lit "Optional"
  | .union .brackets [_, .builtin .noneType] => Text.lit "Optional"
  | .union .brackets _ => Text.lit "Union"
  | .primitive kind => kind.member
  | .bareArray => Text.lit "Bare.ARRAY"
  | .bareObject => Text.lit "Bare.OBJECT"
  | identity => identity.shown

/-- Whether an identity has a name: not where that would show an integer with too many digits. -/
def isNameable : Spec → Bool
  | .generic .. => true
  | .union .brackets _ => true
  | identity => !identity.isOverlong

mutual

/-- The description of a specification. -/
def describe : Spec → Text
  | .primitive kind => kind.name
  | .bareArray => Text.lit "array"
  | .bareObject => Text.lit "object"
  | .arrayOf element =>
      if element.isAny then Text.lit "array" else Text.lit "array of " ++ describe element
  | .objectOf value =>
      if value.isAny then Text.lit "object" else Text.lit "object of " ++ describe value
  | .mapOf key value =>
      Text.lit "map from " ++ describe key ++ Text.lit " to " ++ describe value
  | .setOf element =>
      if element.isAny then Text.lit "set" else Text.lit "set of " ++ describe element
  | .tupleOf elements =>
      Text.lit "tuple of (" ++ Text.joined (Text.lit ", ") (describeAll elements) ++ Text.lit ")"
  | .anyOf [] => Text.lit "nothing"
  | .anyOf alternatives => Text.joined (Text.lit " or ") (describeAll alternatives)
  | .custom identity [] => identity.identityName
  | .custom identity arguments =>
      identity.identityName ++ Text.lit " of " ++
        Text.joined (Text.lit ", ") (describeAll arguments)
  | hint => hint.identityName

/-- The descriptions in order. -/
def describeAll : List Spec → List Text
  | [] => []
  | spec :: rest => describe spec :: describeAll rest

end

mutual

/-- The first annotation that a description meets where a specification is due. -/
def stray? : Spec → Option Spec
  | .primitive _ => none
  | .bareArray => none
  | .bareObject => none
  | .arrayOf element => stray? element
  | .objectOf value => stray? value
  | .mapOf key value => (stray? key).or (stray? value)
  | .setOf element => stray? element
  | .tupleOf elements => strayAmong? elements
  | .anyOf alternatives => strayAmong? alternatives
  | .custom _ arguments => strayAmong? arguments
  | hint => some hint

/-- The first annotation that descriptions in order meet. -/
def strayAmong? : List Spec → Option Spec
  | [] => none
  | spec :: rest => (stray? spec).or (strayAmong? rest)

end

/-- Why something cannot be told: an annotation stands where a specification is due, or an integer
has too many digits to be shown. -/
inductive Flaw where
  | stray (hint : Spec)
  | overlong

mutual

/-- The first flaw that a description meets. -/
def flaw? : Spec → Option Flaw
  | .primitive _ => none
  | .bareArray => none
  | .bareObject => none
  | .arrayOf element => flaw? element
  | .objectOf value => flaw? value
  | .mapOf key value => (flaw? key).or (flaw? value)
  | .setOf element => flaw? element
  | .tupleOf elements => flawAmong? elements
  | .anyOf alternatives => flawAmong? alternatives
  | .custom identity arguments =>
      if identity.isNameable then flawAmong? arguments else some .overlong
  | hint => some (.stray hint)

/-- The first flaw that descriptions in order meet. -/
def flawAmong? : List Spec → Option Flaw
  | [] => none
  | spec :: rest => (flaw? spec).or (flawAmong? rest)

end

/-- A specification all of whose parts are specifications. -/
def WellFormed (spec : Spec) : Prop := spec.stray? = none

/-- A bare container is one of any values. -/
def desugar : Spec → Spec
  | .bareArray => .arrayOf any
  | .bareObject => .objectOf any
  | spec => spec

end Spec

end JsonDecoding
