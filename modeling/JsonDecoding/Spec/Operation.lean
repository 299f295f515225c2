import JsonDecoding.Spec.Union

/-!
# Operations on annotations

What operators, comparisons and calls make of annotations in writing. Bars join annotations; all
other operators work on whole numbers alone. Types without arguments make their empty datum.
-/

namespace JsonDecoding

/-- The datum that a builtin type makes without arguments. -/
def Builtin.blank? : Builtin → Option Data
  | .bool => some (.bool false)
  | .int => some (.int 0)
  | .float => some (.float (.zero false))
  | .str => some (.str [])
  | .list => some (.list [])
  | .dict => some (.dict [])
  | .set => some (.set [])
  | .tuple => some (.tuple [])
  | .bytes => some (.bytes [])
  | _ => none

/-- The builtin type of data. -/
def Data.builtinType? : Data → Option Builtin
  | .null => some .noneType
  | .bool _ => some .bool
  | .int _ => some .int
  | .float _ => some .float
  | .str _ => some .str
  | .list _ => some .list
  | .tuple _ => some .tuple
  | .dict _ => some .dict
  | .set _ => some .set
  | .bytes _ => some .bytes
  | _ => none

namespace Spec

/-- The integer that an annotation is. -/
def whole? : Spec → Option Int
  | .token value => value.whole?
  | _ => none

/-- What an operator makes of an annotation behind it. -/
def signed (operator : SignOperator) (operand : Spec) : Except Misuse Spec :=
  match operator, operand, operand.whole? with
  | operator, _, some value => .ok (.token (.int (operator.ofWhole value)))
  | .plus, .token (.float value), none => .ok (.token (.float value))
  | .minus, .token (.float value), none => .ok (.token (.float value.negated))
  | operator, operand, none => .error (.notSignable operator operand.kindName)

/-- What an operator makes of two annotations. -/
def operated (operator : Operator) (left right : Spec) : Except Misuse Spec :=
  match operator with
  | .either => left.either right
  | operator =>
      match left.whole?.bind fun a => right.whole?.bind fun b => operator.ofWhole? a b with
      | some value => .ok (.token (.int value))
      | none => .error (.notOperable operator left.kindName right.kindName)

/-- The annotations that a sequence holds. -/
def elements? : Spec → Option (List Spec)
  | .several _ items => some items
  | .token (.tuple items) => some (items.map .token)
  | .token (.list items) => some (items.map .token)
  | _ => none

/-- Whether a sequence holds an annotation. -/
def among (item sequence : Spec) : Except Misuse Bool :=
  match sequence.elements? with
  | some items => .ok (items.any fun other => item == other)
  | none => .error (.notSearchable sequence.kindName)

/-- Whether an annotation is an undefined number, which no comparison finds equal to anything. -/
def isUndefined : Spec → Bool
  | .token value => value.quantity?.any Data.Quantity.isUndefined
  | _ => false

/-- Whether two annotations compare in some way. -/
def compared (comparison : Comparison) (left right : Spec) : Except Misuse Bool :=
  match comparison with
  | .equal => .ok (left == right && !left.isUndefined)
  | .unequal => .ok (left != right || left.isUndefined)
  | .identical => .ok (left == right)
  | .notIdentical => .ok (left != right)
  | .among => left.among right
  | .notAmong => (left.among right).map fun found => !found
  | comparison =>
      match left.whole?.bind fun a => right.whole?.bind fun b => comparison.ofWhole? a b with
      | some holds => .ok holds
      | none => .error (.notOrdered comparison left.kindName right.kindName)

/-- The type of an annotation: that of its data, or the type of types. -/
def typeOf? : Spec → Option Builtin
  | .token value => value.builtinType?
  | hint => hint.typeName?.map fun _ => .metaclass

/-- What a call of an annotation with arguments gives. -/
def called (head : Spec) (arguments : List Spec) : Except Misuse Spec :=
  let result? : Option Spec :=
    match head, arguments with
    | .builtin .metaclass, [argument] => argument.typeOf?.map .builtin
    | .builtin type, [] => type.blank?.map .token
    | _, _ => none
  match result? with
  | some hint => .ok hint
  | none => .error (.notCallable head.kindName)

end Spec

end JsonDecoding
