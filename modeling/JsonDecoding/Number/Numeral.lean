import JsonDecoding.Number.Binary64

/-!
# Numerals

Texts that write a number where one is wanted. They may have white space around them, a sign, and
single underscores between digits. A whole number may also have leading zeros and a fraction of
nothing but zeros; any other number may have a fraction and an exponent, or be infinite or
undefined.
-/

namespace JsonDecoding.Numeral

/-- Why a text writes no whole number. -/
inductive Rejection where
  | malformed
  | tooLong

/-- The text without white space around it. -/
def trimmed (t : Text) : Text := Text.trim Text.isWhiteSpace t

/-! ## Underscores -/

/-- Whether two underscores stand next to each other. -/
def hasDoubleUnderscore : Text → Bool
  | 95 :: 95 :: _ => true
  | _ :: rest => hasDoubleUnderscore rest
  | [] => false

/-- The text without underscores, if they stand singly and at neither end. -/
def joined? (t : Text) : Option Text :=
  if t.head? = some 95 || t.getLast? = some 95 || hasDoubleUnderscore t then none
  else some (t.filter (· ≠ 95))

/-! ## Whole numbers -/

/-- What remains of digits behind a leading zero, `last` being the zero or underscore read last. One
zero remains in front of a point, and one code point where nothing else follows. -/
def behindZeros (last : CodePoint) : Text → Option Text
  | [] => some [last]
  | c :: rest =>
      if c = 48 || c = 95 then behindZeros c rest
      else if Text.isDigit c then some (c :: rest)
      else if c = 46 then some (last :: c :: rest)
      else none

/-- The digits without leading zeros and the underscores among them; a digit comes first. -/
def withoutZeros? : Text → Option Text
  | [] => none
  | c :: rest =>
      if c = 48 then behindZeros c rest
      else if Text.isDigit c then some (c :: rest)
      else none

/-- The digits without a fraction of zeros. -/
def withoutFraction (t : Text) : Text :=
  let whole := t.takeWhile (· ≠ 46)
  match t.drop whole.length with
  | _ :: fraction => if fraction.all (· = 48) then whole else t
  | [] => t

/-- The whole number that a text writes. -/
def readWhole (t : Text) : Except Rejection Int :=
  let (negative, body) := Decimal.splitSign (trimmed t)
  match ((withoutZeros? body).map withoutFraction).bind joined? with
  | none => .error .malformed
  | some digits =>
      if digits.isEmpty || !digits.all Text.isDigit then .error .malformed
      else if Text.digitLimit < digits.length then .error .tooLong
      else .ok (if negative then -(Text.digitsValue digits : Int) else Text.digitsValue digits)

/-! ## Other numbers -/

/-- The number that a sign and a word or digits write. -/
def plain? (t : Text) : Option Binary64 :=
  let (negative, body) := Decimal.splitSign t
  let word := Decimal.lowered body
  if word == Text.lit "inf" || word == Text.lit "infinity" then some (.infinity negative)
  else if word == Text.lit "nan" then some (.nan 0)
  else (Decimal.unsigned? body).map fun (coefficient, exponent) =>
    .ofDecimal ⟨negative, coefficient, exponent⟩

/-- The number that a text writes; one with underscores may have no white space around it. -/
def read? (t : Text) : Option Binary64 := (plain? (trimmed t)).or ((joined? t).bind plain?)

end JsonDecoding.Numeral
