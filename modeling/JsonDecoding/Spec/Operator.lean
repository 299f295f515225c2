import JsonDecoding.Text

/-!
# Operators

The operators that annotations in writing can hold: those between two operands, those in front of
one, and comparisons. Whole numbers are added, subtracted and multiplied; what else an operator does
depends on more than numbers.
-/

namespace JsonDecoding

/-- An operator between two operands. -/
inductive Operator where
  | either
  | differ
  | both
  | shiftLeft
  | shiftRight
  | add
  | subtract
  | multiply
  | matrixMultiply
  | divide
  | quotient
  | remainder
  | power
deriving DecidableEq

/-- An operator in front of its operand. -/
inductive SignOperator where
  | plus
  | minus
  | complement
deriving DecidableEq

/-- A comparison of two operands. -/
inductive Comparison where
  | equal
  | unequal
  | less
  | atMost
  | greater
  | atLeast
  | among
  | notAmong
  | identical
  | notIdentical
deriving DecidableEq

namespace Operator

/-- How an operator is written in reports. -/
def sign : Operator → Text
  | .either => Text.lit "|"
  | .differ => Text.lit "^"
  | .both => Text.lit "&"
  | .shiftLeft => Text.lit "<<"
  | .shiftRight => Text.lit ">>"
  | .add => Text.lit "+"
  | .subtract => Text.lit "-"
  | .multiply => Text.lit "*"
  | .matrixMultiply => Text.lit "@"
  | .divide => Text.lit "/"
  | .quotient => Text.lit "//"
  | .remainder => Text.lit "%"
  | .power => Text.lit "** or pow()"

/-- How tightly an operator binds its operands. -/
def tightness : Operator → Nat
  | .either => 0
  | .differ => 1
  | .both => 2
  | .shiftLeft | .shiftRight => 3
  | .add | .subtract => 4
  | .multiply | .matrixMultiply | .divide | .quotient | .remainder => 5
  | .power => 6

/-- What an operator makes of two whole numbers. -/
def ofWhole? : Operator → Int → Int → Option Int
  | .add, a, b => some (a + b)
  | .subtract, a, b => some (a - b)
  | .multiply, a, b => some (a * b)
  | _, _, _ => none

end Operator

namespace SignOperator

/-- How an operator is written in reports. -/
def sign : SignOperator → Text
  | .plus => Text.lit "+"
  | .minus => Text.lit "-"
  | .complement => Text.lit "~"

/-- What an operator makes of a whole number. -/
def ofWhole : SignOperator → Int → Int
  | .plus, a => a
  | .minus, a => -a
  | .complement, a => -a - 1

end SignOperator

namespace Comparison

/-- How a comparison of order is written in reports. -/
def sign : Comparison → Text
  | .equal => Text.lit "=="
  | .unequal => Text.lit "!="
  | .less => Text.lit "<"
  | .atMost => Text.lit "<="
  | .greater => Text.lit ">"
  | .atLeast => Text.lit ">="
  | .among => Text.lit "in"
  | .notAmong => Text.lit "not in"
  | .identical => Text.lit "is"
  | .notIdentical => Text.lit "is not"

/-- Whether two whole numbers stand in an order, if the comparison is one of order. -/
def ofWhole? : Comparison → Int → Int → Option Bool
  | .less, a, b => some (a < b)
  | .atMost, a, b => some (a ≤ b)
  | .greater, a, b => some (b < a)
  | .atLeast, a, b => some (b ≤ a)
  | _, _, _ => none

end Comparison

end JsonDecoding
