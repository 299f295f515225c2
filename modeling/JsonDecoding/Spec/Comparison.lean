import JsonDecoding.Data.Clash
import JsonDecoding.Spec.Misuse

/-!
# Comparing specifications

Equality of specifications where it can fail: a token that signals cannot be compared with a number,
and unions are compared as sets, so that their members need hashes. Parts are compared in order, and
none after the first difference. Where a comparison does not fail it is the plain equality.
-/

namespace JsonDecoding.Spec

/-- The second comparison where the first one finds no difference. -/
def alsoEqual (first second : Except Misuse Bool) : Except Misuse Bool :=
  first.bind fun equal => if equal then second else .ok false

mutual

/-- Whether two specifications are equal, unless their comparison fails. -/
def equals : Spec → Spec → Except Misuse Bool
  | .arrayOf a, .arrayOf b => equals a b
  | .objectOf a, .objectOf b => equals a b
  | .mapOf k a, .mapOf l b => alsoEqual (equals k l) (equals a b)
  | .setOf a, .setOf b => equals a b
  | .tupleOf as, .tupleOf bs => equalsAll as bs
  | .anyOf as, .anyOf bs => equalsAll as bs
  | .custom i as, .custom j bs => alsoEqual (equals i j) (equalsAll as bs)
  | .token a, .token b => if a.clashes b then .error .notComparable else .ok (a.same b)
  | .several f as, .several g bs => if f = g then equalsAll as bs else .ok false
  | .generic h as, .generic g bs => if h = g then equalsAll as bs else .ok false
  | .union f as, .union g bs =>
      match (unhashableAmong? as).or (unhashableAmong? bs) with
      | some reason => .error (.notHashable reason)
      | none => .ok (same (.union f as) (.union g bs))
  | a, b => .ok (same a b)

/-- Equality position by position, unless a comparison before the first difference fails. -/
def equalsAll : List Spec → List Spec → Except Misuse Bool
  | [], [] => .ok true
  | a :: as, b :: bs => alsoEqual (equals a b) (equalsAll as bs)
  | _, _ => .ok false

end

/-- The annotations without those that equal an earlier one, unless a comparison fails. -/
def distinct? (hints : List Spec) : Except Misuse (List Spec) :=
  hints.foldlM (fun kept hint =>
    (kept.anyM fun k => hint.equals k).map fun known => if known then kept else kept ++ [hint]) []

end JsonDecoding.Spec
