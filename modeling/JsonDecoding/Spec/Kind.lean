import JsonDecoding.Data.Order
import JsonDecoding.Spec.Names

/-!
# Kinds of annotations

What an annotation is as a thing of its own: a type, or an instance of some kind. Reports on misuse
name it that way.
-/

namespace JsonDecoding

/-- A builtin type as reports on its attributes name it; an alias goes by the type behind it. The
ellipsis and functions are no types. -/
def Builtin.typeName? : Builtin → Option Text
  | .ellipsis => none
  | .function _ => none
  | .datetime => some (Text.lit "datetime.datetime")
  | .date => some (Text.lit "datetime.date")
  | .decimal => some (Text.lit "decimal.Decimal")
  | .listAlias => some (Text.lit "list")
  | .dictAlias => some (Text.lit "dict")
  | .setAlias => some (Text.lit "set")
  | .frozensetAlias => some (Text.lit "frozenset")
  | .tupleAlias => some (Text.lit "tuple")
  | .plain type => some (type.home ++ type.name)
  | type => some type.name

namespace Spec

/-- The name of the kind of thing that an annotation is. -/
def kindName : Spec → Text
  | .primitive _ => Text.lit "Primitive"
  | .bareArray => Text.lit "Bare"
  | .bareObject => Text.lit "Bare"
  | .arrayOf _ => Text.lit "ArrayOf"
  | .objectOf _ => Text.lit "ObjectOf"
  | .mapOf .. => Text.lit "MapOf"
  | .setOf _ => Text.lit "SetOf"
  | .tupleOf _ => Text.lit "TupleOf"
  | .anyOf _ => Text.lit "AnyOf"
  | .custom .. => Text.lit "Custom"
  | .builtin .any => Text.lit "_AnyMeta"
  | .builtin .ellipsis => Text.lit "ellipsis"
  | .builtin (.function _) => Text.lit "builtin_function_or_method"
  | .builtin _ => Text.lit "type"
  | .named .. => Text.lit "type"
  | .symbol .. => Text.lit "Symbol"
  | .token value => value.qualifiedTypeName
  | .written _ => Text.lit "ForwardRef"
  | .generic .. => Text.lit "types.GenericAlias"
  | .union .. => Text.lit "types.UnionType"
  | .several .tuple _ => Text.lit "tuple"
  | .several .list _ => Text.lit "list"

/-- The type that an annotation is, if it is one. -/
def typeName? : Spec → Option Text
  | .builtin type => type.typeName?
  | .named name .. => some name
  | .generic head _ => some head.name
  | _ => none

/-- How reports name an annotation that lacks an attribute. -/
def ownerName (hint : Spec) : Text :=
  match hint.typeName? with
  | some name => Text.lit "type object " ++ Text.shownName 50 name
  | none => Text.shownName 50 hint.kindName ++ Text.lit " object"

end Spec

end JsonDecoding
