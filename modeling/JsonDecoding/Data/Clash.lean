import JsonDecoding.Data

/-!
# Comparisons that fail

Finding out whether two data are equal fails where a signalling number meets another number.
`clashes` says whether it does; otherwise the answer is `same`.
-/

namespace JsonDecoding.Data

/-- Whether data is an undefined number that signals. -/
def isSignalling : Data → Bool
  | .nonFinite (.undefined _ signalling _ _) => signalling
  | _ => false

mutual

/-- Whether finding out if two data are equal compares a signalling number with another number. What
follows the first difference is not looked at. -/
def clashes : Data → Data → Bool
  | .list a, .list b => a.length == b.length && clashesItems a b
  | .tuple a, .tuple b => clashesItems a b
  | .dict a, .dict b => a.length == b.length && clashesEntries a b
  | .record c _ a _, .record d _ b _ => c == d && clashesFields a b
  | .model c a _, .model d b _ => c == d && a.length == b.length && clashesFields a b
  | a, b =>
      (a.isSignalling || b.isSignalling) && a.quantity?.isSome && b.quantity?.isSome &&
        !sameQuantity a b

/-- Whether comparing items position by position clashes. -/
def clashesItems : List Data → List Data → Bool
  | a :: as, b :: bs => clashes a b || same a b && clashesItems as bs
  | _, _ => false

/-- Whether comparing the values under equal keys clashes. -/
def clashesEntries : List (Data × Data) → List (Data × Data) → Bool
  | [], _ => false
  | (k, v) :: rest, bs =>
      match bs.find? fun entry => same k entry.1 with
      | none => false
      | some entry => clashes v entry.2 || same v entry.2 && clashesEntries rest bs

/-- Whether comparing fields name by name clashes. -/
def clashesFields : List (Text × Data) → List (Text × Data) → Bool
  | (n, a) :: as, (m, b) :: bs => n == m && (clashes a b || same a b && clashesFields as bs)
  | _, _ => false

end

end JsonDecoding.Data
