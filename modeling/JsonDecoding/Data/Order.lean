import JsonDecoding.Data.Clash

/-!
# The order of data

When one datum is greater than another: numbers by value across kinds, texts and octets by their
first difference, dates, moments and UUIDs by their numbers, sequences of one kind by their first
difference, and sets by proper inclusion. All other pairs have no order.
-/

namespace JsonDecoding

/-- Why two data have no order: their kinds have none in common, one is a moment and the other a
date, only one of two moments has an offset, or one is a decimal and the other undefined. -/
inductive Unordered where
  | kinds (left right : Text)
  | momentAndDate
  | offsets
  | undefined

namespace Data

/-- The name of the kind of data with its module, if it has one. -/
def qualifiedTypeName : Data → Text
  | .decimal _ => Text.lit "decimal.Decimal"
  | .nonFinite _ => Text.lit "decimal.Decimal"
  | .date _ => Text.lit "datetime.date"
  | .moment _ => Text.lit "datetime.datetime"
  | data => data.typeName

/-- The order of sequences of numbers by their first difference, such as the code points of texts;
a proper front comes before the whole. -/
def precedes : List Nat → List Nat → Bool
  | [], [] => false
  | [], _ :: _ => true
  | _ :: _, [] => false
  | a :: as, b :: bs => if a = b then precedes as bs else a < b

/-- Whether data is a decimal, be it finite or not. -/
def isDecimal : Data → Bool
  | .decimal _ => true
  | .nonFinite _ => true
  | _ => false

/-- Whether the first datum is a greater number than the second, if both are numbers. A decimal has
no order with an undefined value; among other numbers an undefined one is just never greater. -/
def exceedsQuantity (a b : Data) : Except Unordered Bool :=
  match a.quantity?, b.quantity? with
  | some m, some n =>
      if (m.isUndefined || n.isUndefined) && (a.isDecimal || b.isDecimal) then .error .undefined
      else .ok (n.below m)
  | _, _ => .error (.kinds a.qualifiedTypeName b.qualifiedTypeName)

mutual

/-- Whether the first datum is greater than the second. -/
def exceeds : Data → Data → Except Unordered Bool
  | .str a, .str b => .ok (precedes b a)
  | .bytes a, .bytes b => .ok (precedes b a)
  | .date a, .date b => .ok (b.dayNumber < a.dayNumber)
  | .moment a, .moment b =>
      if a.offset.isSome = b.offset.isSome then .ok (b.instant < a.instant) else .error .offsets
  | .date _, .moment _ => .error .momentAndDate
  | .moment _, .date _ => .error .momentAndDate
  | .uuid a, .uuid b => .ok (b.value < a.value)
  | .list a, .list b => exceedsItems a b
  | .tuple a, .tuple b => exceedsItems a b
  | .set a, .set b => .ok (b.length < a.length && includedItems b a)
  | a, b => exceedsQuantity a b

/-- Whether the first sequence is greater than the second: their first unequal items decide, or else
their lengths. Items that cannot be compared have no order. -/
def exceedsItems : List Data → List Data → Except Unordered Bool
  | [], _ => .ok false
  | _ :: _, [] => .ok true
  | a :: as, b :: bs =>
      if clashes a b then .error .undefined
      else if same a b then exceedsItems as bs
      else exceeds a b

end

end Data

end JsonDecoding
