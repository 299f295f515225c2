import JsonDecoding.Spec.Misuse

/-!
# Coercion

Turning annotations into specifications. Some builtin types are native: they have a specification
of their own and are never looked up. Parametrized containers and unions have one too; every other
annotation becomes a custom specification with itself as identity.
-/

namespace JsonDecoding

/-- The specification of a native type. -/
def Builtin.native? : Builtin → Option Spec
  | .bool => some (.primitive .boolean)
  | .int => some (.primitive .number)
  | .float => some (.primitive .number)
  | .str => some (.primitive .string)
  | .noneType => some (.primitive .null)
  | .any => some (.primitive .any)
  | .list => some .bareArray
  | .dict => some .bareObject
  | .set => some (.setOf .any)
  | .frozenset => some (.setOf .any)
  | _ => none

/-- The specification of an alias without parameters. -/
def Builtin.alias? : Builtin → Option Spec
  | .listAlias => some (.arrayOf .any)
  | .dictAlias => some (.mapOf .string .any)
  | .setAlias => some (.setOf .any)
  | .frozensetAlias => some (.setOf .any)
  | .tupleAlias => some (.tupleOf [])
  | _ => none

namespace Spec

/-- Whether an annotation is null or a native type. -/
def isNative : Spec → Bool
  | .token .null => true
  | .builtin type => type.native?.isSome
  | _ => false

/-- Whether data is of a kind that can change, and so never serves as a key. -/
def isMutable : Data → Bool
  | .list _ => true
  | .dict _ => true
  | .set _ => true
  | .record _ frozen _ _ => !frozen
  | .model .. => true
  | _ => false

/-- The first of several results, or the specification of any value where there are none. -/
def firstOrAny (parameters : List (Except Misuse Spec)) : Except Misuse Spec :=
  parameters.head?.getD (.ok any)

/-- The specification of a mapping type with these parameters. -/
def coercedMap : List (Except Misuse Spec) → Except Misuse Spec
  | [] => .ok (.mapOf .string .any)
  | [key] => key.bind fun _ => .error .missingParameter
  | key :: value :: _ => key.bind fun key => value.map fun value => .mapOf key value

/-- The specification of a tuple type with these parameters: one and an ellipsis make an array, all
others the positions of a tuple. -/
def coercedTuple (parameters : List Spec) (coerced : List (Except Misuse Spec)) :
    Except Misuse Spec :=
  match parameters, coerced with
  | [_, .builtin .ellipsis], element :: _ => element.map .arrayOf
  | _, coerced => (coerced.mapM id).map .tupleOf

mutual

/-- The specification that an annotation stands for; a specification stands for itself. -/
def coerce : Spec → Except Misuse Spec
  | .builtin type => .ok (((type.native?).or type.alias?).getD (.custom (.builtin type) []))
  | .token .null => .ok (.primitive .null)
  | .token value =>
      if isMutable value then .error (.unusable (.token value))
      else .ok (.custom (.token value) [])
  | .named name home mark => .ok (.custom (.named name home mark) [])
  | .written text => .ok (.custom (.written text) [])
  | .symbol name label => .ok (.custom (.symbol name label) [])
  | .generic .list parameters => (firstOrAny (coerceEach parameters)).map .arrayOf
  | .generic .dict parameters => coercedMap (coerceEach parameters)
  | .generic .set parameters => (firstOrAny (coerceEach parameters)).map .setOf
  | .generic .frozenset parameters => (firstOrAny (coerceEach parameters)).map .setOf
  | .generic .tuple parameters => coercedTuple parameters (coerceEach parameters)
  | .generic head parameters => .ok (.custom (.generic head parameters) [])
  | .several .tuple items => .ok (.custom (.several .tuple items) [])
  | .several .list items => .error (.unusable (.several .list items))
  | .union _ members => ((coerceEach members).mapM id).map .anyOf
  | spec => .ok spec

/-- What each annotation stands for, in order. -/
def coerceEach : List Spec → List (Except Misuse Spec)
  | [] => []
  | hint :: rest => coerce hint :: coerceEach rest

end

/-- A token stands for null or for itself. -/
theorem eq_of_coerce_token {value : Data} {spec : Spec} (h : coerce (.token value) = .ok spec) :
    spec = .primitive .null ∨ spec = .custom (.token value) [] := by
  cases value with
  | null =>
      cases h
      exact .inl rfl
  | _ =>
      simp only [coerce] at h
      split at h
      · cases h
      · cases h
        exact .inr rfl

/-- Data that has a hash is of a kind that cannot change. -/
theorem isMutable_of_unhashable? {value : Data} (h : value.unhashable? = none) :
    isMutable value = false := by
  cases value with
  | list | dict | set | model => cases h
  | record className frozen =>
      cases frozen with
      | true => rfl
      | false => cases h
  | _ => rfl

/-- The specifications that annotations stand for, up to the first that stands for none. -/
def coerceAll (hints : List Spec) : Except Misuse (List Spec) := hints.mapM coerce

end Spec

end JsonDecoding
