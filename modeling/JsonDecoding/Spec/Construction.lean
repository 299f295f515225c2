import JsonDecoding.Spec.Coercion

/-!
# Making specifications

The functions that make a specification out of annotations. The annotations are coerced in order;
the identity of a custom specification is taken as it is.
-/

namespace JsonDecoding

/-- A call of a function that makes a specification. Elements and values that are not given can be
anything, keys that are not given are strings. -/
inductive Construction where
  | array (element : Option Spec)
  | object (value : Option Spec)
  | map (key value : Option Spec)
  | set (element : Option Spec)
  | tuple (elements : List Spec)
  | anyOf (alternatives : List Spec)
  | custom (identity : Spec) (arguments : List Spec)

namespace Construction

/-- The annotations out of which a specification is made. -/
def hints : Construction → List Spec
  | array element => element.toList
  | object value => value.toList
  | map key value => key.toList ++ value.toList
  | set element => element.toList
  | tuple elements => elements
  | anyOf alternatives => alternatives
  | custom _ arguments => arguments

/-- The specification that is made. -/
def spec : Construction → Except Misuse Spec
  | array element => (element.getD .any).coerce.map .arrayOf
  | object value => (value.getD .any).coerce.map .objectOf
  | map key value =>
      (key.getD .string).coerce.bind fun key =>
        (value.getD .any).coerce.map fun value => .mapOf key value
  | set element => (element.getD .any).coerce.map .setOf
  | tuple elements => (Spec.coerceAll elements).map .tupleOf
  | anyOf alternatives => (Spec.coerceAll alternatives).map .anyOf
  | custom identity arguments => (Spec.coerceAll arguments).map (.custom identity)

end Construction

end JsonDecoding
