import JsonDecoding.Text.Classes

/-!
# Decimal numbers

A sign, a coefficient and a power of ten. Two decimals may write the same number (`1.0` and `1.00`);
`canonical` picks one of them, so numbers are compared through it. Infinite and undefined values are
not decimals: reading their spellings is refused, and the cause says which of them was spelled.
-/

namespace JsonDecoding

/-- The number `± coefficient · 10 ^ exponent`, with the digits in which it is written. -/
structure Decimal where
  negative : Bool
  coefficient : Nat
  exponent : Int
deriving DecidableEq

namespace Decimal

/-- How many digits the coefficient has; zero has one. -/
def digits (d : Decimal) : Nat := (Nat.toDigits 10 d.coefficient).length

/-- The power of ten of the leading digit. -/
def adjusted (d : Decimal) : Int := d.exponent + (d.digits : Int) - 1

/-! ## The number behind the digits -/

/-- Moves trailing zeros of a positive coefficient into the exponent, at most `fuel` of them. -/
def strip : Nat → Nat → Int → Nat × Int
  | 0, coefficient, exponent => (coefficient, exponent)
  | fuel + 1, coefficient, exponent =>
      if coefficient % 10 = 0 then strip fuel (coefficient / 10) (exponent + 1)
      else (coefficient, exponent)

/-- The one decimal that stands for all that write the same number: no trailing zero in the
coefficient, and a positive zero. -/
def canonical (d : Decimal) : Decimal :=
  if d.coefficient = 0 then ⟨false, 0, 0⟩
  else
    let stripped := strip d.digits d.coefficient d.exponent
    ⟨d.negative, stripped.1, stripped.2⟩

/-- The integer that a decimal is, if it is one. -/
def toInt? (d : Decimal) : Option Int :=
  let c := d.canonical
  let size := c.coefficient * Nat.pow 10 c.exponent.toNat
  if 0 ≤ c.exponent then some (if c.negative then -(size : Int) else size) else none

/-- Whether the size of the first number is below that of the second: by the power of ten of the
leading digit, else by the coefficients over a common exponent. -/
def smaller (a b : Decimal) : Bool :=
  if a.coefficient = 0 then b.coefficient ≠ 0
  else if b.coefficient = 0 then false
  else if a.adjusted ≠ b.adjusted then a.adjusted < b.adjusted
  else
    let exponent := min a.exponent b.exponent
    a.coefficient * Nat.pow 10 (a.exponent - exponent).toNat
      < b.coefficient * Nat.pow 10 (b.exponent - exponent).toNat

/-- The order of the numbers. -/
def below (a b : Decimal) : Bool :=
  let positive (d : Decimal) : Bool := !d.negative || d.coefficient = 0
  match positive a, positive b with
  | true, true => smaller a b
  | true, false => false
  | false, true => true
  | false, false => smaller b a

/-! ## The text of a decimal -/

/-- An exponent with its sign. -/
def exponentText (e : Int) : Text := if 0 ≤ e then 43 :: Text.ofInt e else Text.ofInt e

/-- The digits as they stand: positional when no zeros have to be added after them and fewer than
seven in front, else one digit before the point and an exponent. -/
def toText (d : Decimal) : Text :=
  let shown := Text.ofNat d.coefficient
  let body :=
    if d.exponent ≤ 0 && -6 ≤ d.adjusted then
      let places := (-d.exponent).toNat
      if places = 0 then shown
      else if shown.length ≤ places then
        Text.lit "0." ++ List.replicate (places - shown.length) 48 ++ shown
      else shown.take (shown.length - places) ++ 46 :: shown.drop (shown.length - places)
    else
      (match shown with
        | first :: second :: more => first :: 46 :: second :: more
        | _ => shown) ++ 69 :: exponentText d.adjusted
  if d.negative then 45 :: body else body

/-! ## Reading a decimal -/

/-- An infinite or undefined value; an undefined one may be signalling and carries a number. As with
binary numbers, a mark tells undefined values apart. -/
inductive NonFinite where
  | infinite (negative : Bool)
  | undefined (negative signalling : Bool) (payload mark : Nat)
deriving DecidableEq

/-- The canonical spelling of an infinite or undefined value. -/
def NonFinite.toText : NonFinite → Text
  | .infinite negative => Text.lit (if negative then "-Infinity" else "Infinity")
  | .undefined negative signalling payload _ =>
      (if negative then [45] else []) ++ Text.lit (if signalling then "sNaN" else "NaN") ++
        (if payload = 0 then [] else Text.ofNat payload)

/-- Why a text is no decimal. -/
inductive Rejection where
  | notANumber
  | notFinite (value : NonFinite)

/-- The text in ASCII: blanks around it and all underscores dropped, digits of any script replaced;
`none` when anything else is left that is not ASCII. -/
def ascii? (t : Text) : Option Text :=
  (Text.trim Text.isBlank t |>.filter (· ≠ 95)).mapM fun c =>
    if 0 < c && c ≤ 127 then some c
    else if Text.isBlank c then some 32
    else (Text.decimalValue? c).map (48 + ·)

/-- Splits a sign from the front. -/
def splitSign : Text → Bool × Text
  | 45 :: rest => (true, rest)
  | 43 :: rest => (false, rest)
  | t => (false, t)

/-- ASCII letters in lower case. -/
def lowered (t : Text) : Text := t.map fun c => if 65 ≤ c && c ≤ 90 then c + 32 else c

/-- The infinite or undefined value with a sign and a spelling in letters of any case. What is spelled
is not held anywhere yet, so its mark is zero. -/
def nonFinite? (negative : Bool) (t : Text) : Option NonFinite :=
  let t := lowered t
  let undefined? (spelling : Text) (signalling : Bool) : Option NonFinite :=
    let payload := t.drop spelling.length
    if spelling.isPrefixOf t && payload.all Text.isDigit then
      some (.undefined negative signalling (Text.digitsValue payload) 0)
    else none
  if t == Text.lit "inf" || t == Text.lit "infinity" then some (.infinite negative)
  else (undefined? (Text.lit "nan") false).or (undefined? (Text.lit "snan") true)

/-- The exponent that follows the digits; `none` when it is malformed. -/
def exponentOf? : Text → Option Int
  | [] => some 0
  | c :: rest =>
      if c = 69 || c = 101 then
        let (negative, shown) := splitSign rest
        if shown.isEmpty || !shown.all Text.isDigit then none
        else some (if negative then -(Text.digitsValue shown : Int) else Text.digitsValue shown)
      else none

/-- The unsigned number that an ASCII text writes: digits with or without a point, then an optional
exponent. -/
def unsigned? (t : Text) : Option (Nat × Int) :=
  let whole := t.takeWhile Text.isDigit
  let rest := t.dropWhile Text.isDigit
  let places := match rest with
    | 46 :: rest => rest.takeWhile Text.isDigit
    | _ => []
  let tail := match rest with
    | 46 :: rest => rest.dropWhile Text.isDigit
    | _ => rest
  if whole.isEmpty && places.isEmpty then none
  else (exponentOf? tail).map fun e =>
    (Text.digitsValue (whole ++ places), e - (places.length : Int))

/-- The greatest power of ten of a leading digit. -/
def maxAdjusted : Int := 999999999999999999

/-- The least exponent. -/
def minExponent : Int := -1999999999999999997

/-- The decimal that a text writes, with all the digits that it gives. -/
def read (t : Text) : Except Rejection Decimal :=
  match ascii? t with
  | none => .error .notANumber
  | some t =>
      let (negative, body) := splitSign t
      match nonFinite? negative body, unsigned? body with
      | some value, _ => .error (.notFinite value)
      | none, none => .error .notANumber
      | none, some (coefficient, exponent) =>
          let d : Decimal := ⟨negative, coefficient, exponent⟩
          if maxAdjusted < d.adjusted || d.exponent < minExponent then .error .notANumber
          else .ok d

end Decimal

end JsonDecoding
