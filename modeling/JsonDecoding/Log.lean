import JsonDecoding.Location

/-!
# Log records

What reading, decoding and registering report on the side, in the order in which it happens.
-/

namespace JsonDecoding.Log

/-- How much a record matters. -/
inductive Level where
  | debug
  | warning
deriving DecidableEq

/-- The activity that a record comes from. -/
inductive Channel where
  | reader
  | decoder
  | parser
  | registry
deriving DecidableEq

/-- One record. -/
inductive Record where
  | textRejected (position : Nat) (problem : Text)
  | alternativeUnresolved (alternative whole reason : Text)
  | tooDeeplyNested (description : Text)
  | notDecoded (description : Text) (path : List Location) (reason : Text)
  | alwaysNative (name : Text)
  | replaced (name : Text)

namespace Record

/-- The level of a record: only a registration without effect is a warning. -/
def level : Record → Level
  | .alwaysNative _ => .warning
  | _ => .debug

/-- The activity that a record comes from. -/
def channel : Record → Channel
  | .textRejected .. => .reader
  | .alternativeUnresolved .. => .decoder
  | .tooDeeplyNested _ => .parser
  | .notDecoded .. => .parser
  | .alwaysNative _ => .registry
  | .replaced _ => .registry

/-- The words of a record. -/
def message : Record → Text
  | .textRejected position problem =>
      Text.lit "Rejected JSON text at char " ++ Text.ofNat position ++ Text.lit ": " ++ problem
  | .alternativeUnresolved alternative whole reason =>
      Text.lit "Alternative " ++ alternative ++ Text.lit " of " ++ whole ++
        Text.lit " cannot be resolved: " ++ reason
  | .tooDeeplyNested description =>
      Text.lit "Value too deeply nested to decode as " ++ description
  | .notDecoded description path reason =>
      Text.lit "Could not decode " ++ description ++ Text.lit " at path " ++
        Location.shownPath path ++ Text.lit ": " ++ reason
  | .alwaysNative name =>
      name ++ Text.lit " is always read natively; the schema registered for it is ignored"
  | .replaced name => Text.lit "Replacing schema registered for " ++ name

end Record

end JsonDecoding.Log
