import JsonDecoding.Spec

/-!
# Names of types

The words for kinds of scalars, and the names of types without their modules.
-/

namespace JsonDecoding

/-- The word for a kind of scalar, or for any value. -/
def Primitive.name : Primitive → Text
  | .boolean => Text.lit "boolean"
  | .number => Text.lit "number"
  | .string => Text.lit "string"
  | .null => Text.lit "null"
  | .any => Text.lit "any"

/-- The name of a builtin type without its module. -/
def Builtin.name : Builtin → Text
  | .bool => Text.lit "bool"
  | .int => Text.lit "int"
  | .float => Text.lit "float"
  | .str => Text.lit "str"
  | .noneType => Text.lit "NoneType"
  | .any => Text.lit "Any"
  | .list => Text.lit "list"
  | .dict => Text.lit "dict"
  | .set => Text.lit "set"
  | .frozenset => Text.lit "frozenset"
  | .tuple => Text.lit "tuple"
  | .bytes => Text.lit "bytes"
  | .object => Text.lit "object"
  | .complex => Text.lit "complex"
  | .metaclass => Text.lit "type"
  | .ellipsis => Text.lit "Ellipsis"
  | .datetime => Text.lit "datetime"
  | .date => Text.lit "date"
  | .uuid => Text.lit "UUID"
  | .decimal => Text.lit "Decimal"
  | .listAlias => Text.lit "List"
  | .dictAlias => Text.lit "Dict"
  | .setAlias => Text.lit "Set"
  | .frozensetAlias => Text.lit "FrozenSet"
  | .tupleAlias => Text.lit "Tuple"
  | .plain type => type.name
  | .function name => name

/-- The name of a type that takes parameters. -/
def Generic.name : Generic → Text
  | .list => Text.lit "list"
  | .dict => Text.lit "dict"
  | .set => Text.lit "set"
  | .frozenset => Text.lit "frozenset"
  | .tuple => Text.lit "tuple"
  | .type => Text.lit "type"
  | .plain head => head.name

end JsonDecoding
