import JsonDecoding.Number.Decimal

/-!
# Binary floating-point numbers

Numbers of the 64-bit binary format, as data: a sign, an exponent field and a fraction field, or an
infinity, or an undefined value. Reading decimal digits rounds to the nearest number, ties to the
even one, in exact integer arithmetic; every finite number is an exact decimal.
-/

namespace JsonDecoding

/-- A number of the 64-bit binary format. Undefined values are told apart by a mark, since one that is
held in two places is found again where it is searched for. -/
inductive Binary64 where
  | finite (negative : Bool) (exponent : Fin 2047) (fraction : Fin (Nat.pow 2 52))
  | infinity (negative : Bool)
  | nan (mark : Nat)
deriving DecidableEq

namespace Binary64

/-- The integer that a finite number scales by a power of two. -/
def significand (exponent : Fin 2047) (fraction : Fin (Nat.pow 2 52)) : Nat :=
  if exponent.val = 0 then fraction.val else Nat.pow 2 52 + fraction.val

/-- The power of two that scales the significand. -/
def scale (exponent : Fin 2047) : Int := (max exponent.val 1 : Int) - 1075

/-- The number at a place in the order of sizes: finite numbers count up from zero, and beyond them
lies infinity. -/
def ofRank (negative : Bool) (rank : Nat) : Binary64 :=
  if h : rank < 2047 * Nat.pow 2 52 then
    .finite negative ⟨rank / Nat.pow 2 52, Nat.div_lt_of_lt_mul (by omega)⟩
      ⟨rank % Nat.pow 2 52, Nat.mod_lt _ (by decide)⟩
  else .infinity negative

/-- Zero with a sign. -/
def zero (negative : Bool) : Binary64 := ofRank negative 0

/-- The number with the other sign. -/
def negated : Binary64 → Binary64
  | .finite negative exponent fraction => .finite (!negative) exponent fraction
  | .infinity negative => .infinity (!negative)
  | .nan mark => .nan mark

/-! ## Rounding -/

/-- The quotient rounded to the nearest integer, ties to the even one. -/
def roundQuotient (numerator denominator : Nat) : Nat :=
  let q := numerator / denominator
  let r := numerator % denominator
  if 2 * r < denominator then q
  else if denominator < 2 * r then q + 1
  else q + q % 2

/-- The power of two of the leading bit of a positive quotient. -/
def leadingBit (numerator denominator : Nat) : Int :=
  let e : Int := (numerator.log2 : Int) - denominator.log2
  if denominator * Nat.pow 2 e.toNat ≤ numerator * Nat.pow 2 (-e).toNat then e else e - 1

/-- The rank of the number nearest to a positive quotient: 53 bits are kept, fewer below the least
normal number. -/
def nearestRank (numerator denominator : Nat) : Nat :=
  let unit : Int := max (leadingBit numerator denominator - 52) (-1074)
  (unit + 1074).toNat * Nat.pow 2 52 +
    roundQuotient (numerator * Nat.pow 2 (-unit).toNat) (denominator * Nat.pow 2 unit.toNat)

/-- The number nearest to a decimal. Powers of ten that no finite number reaches are decided before
they are computed. -/
def ofDecimal (d : Decimal) : Binary64 :=
  if d.coefficient = 0 then zero d.negative
  else if 310 < d.adjusted then .infinity d.negative
  else if d.adjusted < -326 then zero d.negative
  else
    ofRank d.negative
      (nearestRank (d.coefficient * Nat.pow 10 d.exponent.toNat) (Nat.pow 10 (-d.exponent).toNat))

/-- The number nearest to an integer. -/
def ofInt (i : Int) : Binary64 :=
  if i = 0 then zero false else ofRank (i < 0) (nearestRank i.natAbs 1)

/-! ## Exact values -/

/-- The exact decimal of a finite number with these fields. -/
def exactDecimal (negative : Bool) (exponent : Fin 2047) (fraction : Fin (Nat.pow 2 52)) :
    Decimal :=
  let m := significand exponent fraction
  let s := scale exponent
  if 0 ≤ s then ⟨negative, m * Nat.pow 2 s.toNat, 0⟩ else ⟨negative, m * Nat.pow 5 (-s).toNat, s⟩

/-- The exact decimal of a finite number. -/
def toDecimal? : Binary64 → Option Decimal
  | .finite negative exponent fraction => some (exactDecimal negative exponent fraction)
  | _ => none

/-- A number that is neither infinite nor undefined. -/
def isFinite : Binary64 → Bool
  | .finite .. => true
  | _ => false

/-- The integer that a finite number without a fractional part is. -/
def toInt? : Binary64 → Option Int
  | .finite negative exponent fraction =>
      let m := significand exponent fraction
      let s := scale exponent
      let magnitude? : Option Nat :=
        if 0 ≤ s then some (m * Nat.pow 2 s.toNat)
        else if m % Nat.pow 2 (-s).toNat = 0 then some (m / Nat.pow 2 (-s).toNat)
        else none
      magnitude?.map fun n => if negative then -(n : Int) else n
  | _ => none

end Binary64

end JsonDecoding
