import JsonDecoding.Data

/-!
# Hashes of data

Numbers of every kind have one hash for one value: the value in the field of integers modulo a prime
of 61 bits, where powers of two and ten have inverses. Tuples mix the hashes of their items in words
of 64 bits, and moments count as tuples. The hash of any other data differs from run to run, so it
has none here.
-/

namespace JsonDecoding

namespace Hash

/-- The prime that numbers are taken modulo. -/
def prime : Nat := Nat.pow 2 61 - 1

/-- How many values a word of 64 bits has. -/
def wordSize : Nat := Nat.pow 2 64

/-- The word of an integer in two's complement. -/
def word (i : Int) : Nat := (i % (wordSize : Int)).toNat

/-- A power modulo the prime; `bits` bounds the bits of the exponent. -/
def power : Nat → Nat → Nat → Nat
  | 0, _, _ => 1
  | bits + 1, base, exponent =>
      let rest := power bits (base * base % prime) (exponent / 2)
      if exponent % 2 = 1 then base * rest % prime else rest

/-- The hash of a number with a sign and a size modulo the prime. No hash is minus one. -/
def signed (negative : Bool) (size : Nat) : Int :=
  let hash : Int := if negative then -(size : Int) else size
  if hash = -1 then -2 else hash

/-- The hash of an integer. -/
def ofInt (i : Int) : Int := signed (i < 0) (i.natAbs % prime)

/-- The hash of an infinity. -/
def ofInfinity (negative : Bool) : Int := if negative then -314159 else 314159

/-- The hash of a significand times a power of two, of which 61 make one. -/
def ofScaled (negative : Bool) (significand : Nat) (scale : Int) : Int :=
  signed negative (significand * Nat.pow 2 (scale % 61).toNat % prime)

/-- The hash of a floating-point number; the undefined one has none. -/
def ofBinary64? : Binary64 → Option Int
  | .finite negative exponent fraction =>
      some (ofScaled negative (Binary64.significand exponent fraction) (Binary64.scale exponent))
  | .infinity negative => some (ofInfinity negative)
  | .nan _ => none

/-- The hash of a decimal. -/
def ofDecimal (d : Decimal) : Int :=
  let base := if 0 ≤ d.exponent then 10 else power 61 10 (prime - 2)
  signed d.negative (d.coefficient * power 64 base d.exponent.natAbs % prime)

/-- The hash of a tuple whose items have these hashes. -/
def ofItems (hashes : List Int) : Int :=
  let seed := 2870177450012600261
  let mixed := hashes.foldl (fun mixed hash =>
    let mixed := (mixed + word hash * 14029467366897019727) % wordSize
    let turned := mixed * Nat.pow 2 31 % wordSize + mixed / Nat.pow 2 33
    turned * 11400714785074694791 % wordSize) seed
  let mixed := (mixed + (hashes.length ^^^ (seed ^^^ 3527539))) % wordSize
  if mixed = wordSize - 1 then 1546275796
  else if mixed < Nat.pow 2 63 then mixed else (mixed : Int) - wordSize

/-- The hash of an instant in microseconds, as a tuple of days, seconds and microseconds. -/
def ofInstant (instant : Int) : Int :=
  let day := 86400000000
  let rest := instant % day
  ofItems ([instant / day, rest / 1000000, rest % 1000000].map ofInt)

end Hash

namespace Data

mutual

/-- The hash of data, where it is the same in every run. -/
def hash? : Data → Option Int
  | .bool b => some (if b then 1 else 0)
  | .int i => some (Hash.ofInt i)
  | .float x => Hash.ofBinary64? x
  | .decimal d => some (Hash.ofDecimal d)
  | .nonFinite (.infinite negative) => some (Hash.ofInfinity negative)
  | .moment m => m.offset.map fun _ => Hash.ofInstant m.instant
  | .uuid u => some (Hash.ofInt u.value)
  | .str [] => some 0
  | .bytes [] => some 0
  | .tuple items => (hashes? items).map Hash.ofItems
  | .record _ true fields _ => (fieldHashes? fields).map Hash.ofItems
  | _ => none

/-- The hashes of items, where all are the same in every run. -/
def hashes? : List Data → Option (List Int)
  | [] => some []
  | item :: rest => (hash? item).bind fun first => (hashes? rest).map fun others => first :: others

/-- The hashes of the values of fields, where all are the same in every run. -/
def fieldHashes? : List (Text × Data) → Option (List Int)
  | [] => some []
  | (_, value) :: rest =>
      (hash? value).bind fun first => (fieldHashes? rest).map fun others => first :: others

end

end Data

end JsonDecoding
