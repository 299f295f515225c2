import JsonDecoding.Number.Binary64

/-!
# The shortest decimal text of a floating-point number

A finite number is written with the fewest digits that read back as it; of the candidates with that
many digits the nearer one is taken, and the even one when both are equally near.
-/

namespace JsonDecoding.Binary64

/-- The decimals with `width` digits on either side of an exact decimal of `d.digits` digits, the
nearer one first. -/
def neighbours (d : Decimal) (width : Nat) : List Decimal :=
  let unit := Nat.pow 10 (d.digits - width)
  let q := d.coefficient / unit
  let r := d.coefficient % unit
  let exponent := d.exponent + ((d.digits - width : Nat) : Int)
  let low : Decimal := ⟨d.negative, q, exponent⟩
  let high : Decimal := ⟨d.negative, q + 1, exponent⟩
  if 2 * r < unit || 2 * r = unit && q % 2 = 0 then [low, high] else [high, low]

/-- The shortest decimal that reads back as the number `x`, whose exact decimal is `exact`. -/
def shortest (x : Binary64) (exact : Decimal) : Decimal :=
  let candidates := (List.range 17).flatMap fun n => neighbours exact (n + 1)
  (candidates.find? fun c => ofDecimal c = x).getD exact

/-! ## Layout -/

/-- Digits with the decimal point after the first `point` of them, and zeros where it lies outside
of them. -/
def positional (digits : Text) (point : Int) : Text :=
  if point ≤ 0 then Text.lit "0." ++ List.replicate (-point).toNat 48 ++ digits
  else if (digits.length : Int) ≤ point then
    digits ++ List.replicate (point.toNat - digits.length) 48 ++ Text.lit ".0"
  else digits.take point.toNat ++ 46 :: digits.drop point.toNat

/-- An exponent with its sign and at least two digits. -/
def scientificExponent (e : Int) : Text :=
  let shown := Text.ofNat e.natAbs
  (if e < 0 then 45 else 43) :: (if shown.length < 2 then 48 :: shown else shown)

/-- One digit before the point, and an exponent. -/
def scientific (digits : Text) (e : Int) : Text :=
  (match digits with
    | first :: second :: more => first :: 46 :: second :: more
    | _ => digits) ++ 101 :: scientificExponent e

/-- The text of a positive or negative decimal without trailing zeros: positional for leading digits
from the ten-thousandths up to ten to the fifteen, else with an exponent. -/
def decimalText (d : Decimal) : Text :=
  let digits := Text.ofNat d.coefficient
  let body :=
    if -4 ≤ d.adjusted && d.adjusted < 16 then positional digits (d.adjusted + 1)
    else scientific digits d.adjusted
  if d.negative then 45 :: body else body

/-- The text of a number, with the words of the caller for what is not finite. -/
def textWith (infinity nan : Text) (x : Binary64) : Text :=
  match x with
  | .nan _ => nan
  | .infinity negative => if negative then 45 :: infinity else infinity
  | .finite negative exponent fraction =>
      let exact := exactDecimal negative exponent fraction
      if exact.coefficient = 0 then if negative then Text.lit "-0.0" else Text.lit "0.0"
      else
        let short := (shortest x exact).canonical
        decimalText short

/-- The text of a number in reports. -/
def toText (x : Binary64) : Text := textWith (Text.lit "inf") (Text.lit "nan") x

end JsonDecoding.Binary64
