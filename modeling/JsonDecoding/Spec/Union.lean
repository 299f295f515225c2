import JsonDecoding.Data.Sets
import JsonDecoding.Spec.Comparison
import JsonDecoding.Spec.Expression
import JsonDecoding.Spec.Kind

/-!
# Unions of annotations

Unions are written between bars or in brackets. Both open nested unions, drop members that equal an
earlier one, and are the member where only one is left. Brackets take anything but tuples; bars join
types, parametrized types, null and other unions, and hand over to brackets where one of the two
sides is a union in brackets, an alias or an annotation in writing. Between plain data a bar is an
operation on the data.
-/

namespace JsonDecoding.Spec

/-! ## Members -/

/-- The annotations without those that equal an earlier one. -/
def distinct (hints : List Spec) : List Spec :=
  hints.foldl (fun kept hint => if kept.any (fun k => hint == k) then kept else kept ++ [hint]) []

/-- The members that an annotation adds to a union: its own members if it is one, and the type of
null for null. -/
def members : Spec → List Spec
  | .union _ members => members
  | .token .null => [.builtin .noneType]
  | hint => [hint]

/-- The union with these members; a single one is the union. -/
def ofMembers (form : UnionForm) : List Spec → Spec
  | [member] => member
  | members => .union form members

/-! ## Brackets -/

/-- The expression that a text is, if it is one. -/
def expressionOf (text : Text) : Except Misuse Expression :=
  if text.isEmpty then .error .emptyText
  else if text.any Text.isSurrogate then .error (.notEncodable text)
  else if text.contains 0 then .error .nullInText
  else match Expression.parse? text with
    | some expression => .ok expression
    | none => .error (.notAnExpression text)

/-- The annotation in writing that a text makes; it has to be an expression. -/
def ofText (text : Text) : Except Misuse Spec :=
  (expressionOf text).map fun _ => .written text

/-- An annotation where a type has to stand: null is its type and a text an annotation in writing;
a tuple is refused. -/
def asType (place : TypePlace) : Spec → Except Misuse Spec
  | .token .null => .ok (.builtin .noneType)
  | .token (.str text) => ofText text
  | .token (.tuple items) => .error (.notAType place (.token (.tuple items)))
  | .several .tuple items => .error (.notAType place (.several .tuple items))
  | hint => .ok hint

/-- The union of annotations in brackets. -/
def bracketed (place : TypePlace) (hints : List Spec) : Except Misuse Spec :=
  if hints.isEmpty then .error .emptyUnion
  else (hints.mapM (asType place)).bind fun types =>
    let members := types.flatMap members
    match unhashableAmong? members with
    | some reason => .error (.notHashable reason)
    | none => .ok (ofMembers .brackets (distinct members))

/-- The union of an annotation with null. -/
def optional (hint : Spec) : Except Misuse Spec := bracketed .optional [hint, .token .null]

/-! ## Bars -/

/-- Whether bars around an annotation stand for brackets. -/
def needsBrackets : Spec → Bool
  | .union .brackets _ => true
  | .written _ => true
  | .builtin .listAlias | .builtin .dictAlias | .builtin .setAlias | .builtin .frozensetAlias
  | .builtin .tupleAlias => true
  | _ => false

/-- Whether bars can join an annotation to others: null, types, and parametrized or joined ones. -/
def isJoinable : Spec → Bool
  | .builtin .ellipsis | .builtin (.function _) => false
  | .builtin _ | .named .. | .generic .. | .union .. | .token .null => true
  | _ => false

/-- Whether an annotation is null. -/
def isNull : Spec → Bool
  | .token .null => true
  | _ => false

/-- What a bar makes of two plain data: truth values and integers are joined bit by bit, sets and
dictionaries are merged. -/
def joinedData? : Data → Data → Option Data
  | .bool a, .bool b => some (.bool (a || b))
  | .set a, .set b => some (Data.setOf (a ++ b))
  | .dict a, .dict b => some (.dict (Assoc.ofPairs (a ++ b)))
  | a, b => do return .int (bitwiseOr (← a.whole?) (← b.whole?))
where
  /-- The bits of either of two integers, a negative one having infinitely many. -/
  bitwiseOr : Int → Int → Int
    | .ofNat a, .ofNat b => .ofNat (a ||| b)
    | .ofNat a, .negSucc b => .negSucc (b - (b &&& a))
    | .negSucc a, .ofNat b => .negSucc (a - (a &&& b))
    | .negSucc a, .negSucc b => .negSucc (a &&& b)

/-- What a bar makes of two annotations that are plain data. -/
def joinedTokens? : Spec → Spec → Option Spec
  | .token a, .token b => (joinedData? a b).map .token
  | _, _ => none

/-- Two annotations with a bar between them. -/
def either (left right : Spec) : Except Misuse Spec :=
  if left.needsBrackets || right.needsBrackets then bracketed .union [left, right]
  else if left.isJoinable && right.isJoinable && !(left.isNull && right.isNull) then
    (distinct? (left.members ++ right.members)).map (ofMembers .bars)
  else match joinedTokens? left right with
    | some joined => .ok joined
    | none => .error (.notOperable .either left.kindName right.kindName)

/-- Annotations with bars between them, joined from the left; a single one stays as it is. -/
def barred : List Spec → Except Misuse Spec
  | [] => .error .emptyUnion
  | first :: rest => rest.foldlM either first

end JsonDecoding.Spec
