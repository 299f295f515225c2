import JsonDecoding.Concern
import JsonDecoding.Spec.Operator
import JsonDecoding.Spec.Shown

/-!
# Misuse of annotations

Why an annotation has no specification, or why no annotation can be made of others.
-/

namespace JsonDecoding

/-- Where an annotation has to be a type. -/
inductive TypePlace where
  | union
  | optional
  | writing

/-- Why something is no annotation or stands for no specification: no identity can be made of it, a
mapping type lacks its second parameter, a union has no members or ones that are no types or cannot
be told apart, an annotation in writing cannot be read or has no meaning, an operator, comparison or
call has no meaning for its operands, or no class can have a name. -/
inductive Misuse where
  | unusable (hint : Spec)
  | missingParameter
  | emptyUnion
  | notAType (place : TypePlace) (hint : Spec)
  | notHashable (reason : Data.Unhashable)
  | notComparable
  | notOperable (operator : Operator) (left right : Text)
  | notSignable (operator : SignOperator) (kind : Text)
  | notOrdered (comparison : Comparison) (left right : Text)
  | notSearchable (kind : Text)
  | notCallable (kind : Text)
  | notAnExpression (text : Text)
  | emptyText
  | notEncodable (text : Text)
  | nullInText
  | nullInName
  | undefinedName (name : Text)
  | undefinedAttribute (owner name : Text)
  | withoutParameters (name : Text)
  | alreadyComplete (hint : Spec)
  | withoutParts (kind : Text)

/-- The demand of a place where a type has to stand. -/
def TypePlace.demand : TypePlace → Text
  | .union => Text.lit "Union[arg, ...]: each arg must be a type."
  | .optional => Text.lit "typing.Optional requires a single type."
  | .writing => Text.lit "Forward references must evaluate to types."

namespace Misuse

/-- What a misuse is about. -/
def concern : Misuse → Concern
  | .missingParameter => .index
  | .emptyText => .index
  | .notHashable (.lacking ..) => .attribute
  | .undefinedName _ => .name
  | .undefinedAttribute .. => .attribute
  | .notAnExpression _ => .syntactic
  | .notEncodable _ => .encoding
  | .nullInText => .value
  | .nullInName => .value
  | .notComparable => .operation
  | _ => .type

/-- Whether the words for a misuse show an integer that has too many digits. -/
def isOverlong : Misuse → Bool
  | .unusable hint => hint.isOverlong
  | .notAType _ hint => hint.isOverlong
  | .alreadyComplete hint => hint.isOverlong
  | _ => false

/-- The words for a text that has no encoding: it shows the first surrogate, or the places of the
first surrogates where several follow one another. -/
def notEncodableMessage (text : Text) : Text :=
  let start := text.findIdx Text.isSurrogate
  let surrogates := (text.drop start).takeWhile Text.isSurrogate
  Text.lit "'utf-8' codec can't encode " ++
    (match surrogates with
      | [c] => Text.lit "character '\\u" ++ Text.hex 4 c ++ Text.lit "' in position " ++
          Text.ofNat start
      | _ => Text.lit "characters in position " ++ Text.ofNat start ++ Text.lit "-" ++
          Text.ofNat (start + surrogates.length - 1)) ++
    Text.lit ": surrogates not allowed"

/-- The words for a misuse. -/
def message : Misuse → Text
  | .unusable hint => hint.shown ++ Text.lit " cannot be used as a type specification"
  | .missingParameter => Text.lit "tuple index out of range"
  | .emptyUnion => Text.lit "Cannot take a Union of no types."
  | .notAType place hint =>
      place.demand ++ Text.lit " Got " ++ hint.shown.take 100 ++ Text.lit "."
  | .notHashable reason => reason.message
  | .notComparable => Text.lit "[<class 'decimal.InvalidOperation'>]"
  | .notOperable operator left right =>
      Text.lit "unsupported operand type(s) for " ++ operator.sign ++ Text.lit ": " ++
        Text.shownName 100 left ++ Text.lit " and " ++ Text.shownName 100 right
  | .notSignable operator kind =>
      Text.lit "bad operand type for unary " ++ operator.sign ++ Text.lit ": " ++
        Text.shownName 200 kind
  | .notOrdered comparison left right =>
      Text.quoted comparison.sign ++ Text.lit " not supported between instances of " ++
        Text.shownName 100 left ++ Text.lit " and " ++ Text.shownName 100 right
  | .notSearchable kind =>
      Text.lit "argument of type " ++ Text.shownName 200 kind ++ Text.lit " is not iterable"
  | .notCallable kind => Text.shownName 200 kind ++ Text.lit " object is not callable"
  | .notAnExpression text =>
      Text.lit "Forward reference must be an expression -- got " ++ Text.quoted text
  | .emptyText => Text.lit "string index out of range"
  | .notEncodable text => notEncodableMessage text
  | .nullInText => Text.lit "source code string cannot contain null bytes"
  | .nullInName => Text.lit "type name must not contain null characters"
  | .undefinedName name => Text.lit "name '" ++ name ++ Text.lit "' is not defined"
  | .undefinedAttribute owner name =>
      owner ++ Text.lit " has no attribute '" ++ name ++ Text.lit "'"
  | .withoutParameters name =>
      Text.lit "type " ++ Text.shownName 200 name ++ Text.lit " is not subscriptable"
  | .alreadyComplete hint => hint.shown ++ Text.lit " is not a generic class"
  | .withoutParts kind => Text.shownName 200 kind ++ Text.lit " object is not subscriptable"

end Misuse

/-- The class with a name, a home and a mark, if a class can have that name. -/
def Spec.ofClass (name home : Text) (mark : Nat) : Except Misuse Spec :=
  if name.any Text.isSurrogate then .error (.notEncodable name)
  else if name.contains 0 then .error .nullInName
  else .ok (.named name home mark)

end JsonDecoding
