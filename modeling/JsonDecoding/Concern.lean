import JsonDecoding.Text

/-!
# Concerns

What a complaint or a misuse is about. A complaint about the value, its encoding or its validation by
a model rejects the value; all others say that something is wrong with the way the library is used.
-/

namespace JsonDecoding

/-- What a complaint is about. An `uncaught` one is about the same as another, but was made where
nobody listens for it; `other` ones are of a kind that only their maker knows. -/
inductive Concern where
  | value
  | validation
  | type
  | key
  | index
  | name
  | attribute
  | syntactic
  | encoding
  | runtime
  | arithmetic
  | operation
  | recursion
  | configuration
  | uncaught (concern : Concern)
  | other (kind : Text)
deriving DecidableEq

/-- Whether a complaint about this rejects the value, be it about the encoding of its text only. -/
def Concern.rejects : Concern → Bool
  | .value | .validation | .encoding => true
  | _ => false

/-- The concern where only complaints of a validation are listened for. -/
def Concern.unlessValidation : Concern → Concern
  | .validation => .validation
  | concern => if concern.rejects then .uncaught concern else concern

end JsonDecoding
