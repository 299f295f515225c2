import JsonDecoding.Json.Reader
import JsonDecoding.Spec.Coercion
import JsonDecoding.Spec.Description

/-!
# Faults

What is wrong with the way the library is used, as opposed to the input: data that is not JSON,
annotations that are no specifications, schemas registered or invoked wrongly, and rules that
break down. A fault ends a decoding; no alternative catches it.
-/

namespace JsonDecoding

/-- What a rule says instead of giving data. Only a complaint that rejects is one about the content;
any other is a defect of the rule. -/
structure Complaint where
  concern : Concern
  message : Text

/-- The complaint where only those of a validation are listened for. -/
def Complaint.unlessValidation (complaint : Complaint) : Complaint :=
  { complaint with concern := complaint.concern.unlessValidation }

/-- A rule that builds a result from decoded data, or complains. -/
abbrev Rule := Data → Except Complaint Data

/-- Why a registration or an invocation of a schema is not accepted. -/
inductive Misconfiguration where
  | identityNotHashable (identity : Spec)
  | argumentsOfFixed (name : Text)
  | negativeParameters (count : Int)
  | tooManyDefaults (defaults : Nat) (parameters : Int)
  | notASchema (name typeName : Text)
  | argumentCount (name : Text) (least most given : Nat)

/-- The words for a misconfiguration. -/
def Misconfiguration.message : Misconfiguration → Text
  | .identityNotHashable identity =>
      Text.lit "Schema identity " ++ identity.shown ++ Text.lit " is not hashable"
  | .argumentsOfFixed name =>
      Text.lit "A fixed schema for " ++ name ++ Text.lit " takes no arguments"
  | .negativeParameters count => Text.lit "params must be >= 0, got " ++ Text.ofInt count
  | .tooManyDefaults defaults parameters =>
      Text.ofNat defaults ++ Text.lit " defaults given for " ++ Text.ofInt parameters ++
        Text.lit " parameter(s)"
  | .notASchema name typeName =>
      Text.lit "Expected a JsonSchema or a factory for " ++ name ++ Text.lit ", got " ++ typeName
  | .argumentCount name least most given =>
      Text.lit "Schema " ++ name ++ Text.lit " takes " ++
        (if least = most then Text.ofNat most
          else Text.ofNat least ++ Text.lit " to " ++ Text.ofNat most) ++
        Text.lit " specification argument(s), got " ++ Text.ofNat given

/-- Whether the words for a misconfiguration show an integer that has too many digits. -/
def Misconfiguration.isOverlong : Misconfiguration → Bool
  | .identityNotHashable identity => identity.isOverlong
  | .negativeParameters count => Text.isOverlong count
  | _ => false

/-- Misuse of the library. `overlong` is the fault of showing an integer that has too many digits. -/
inductive Fault where
  | unsupported (data : Data)
  | keyNotString (key : Data)
  | notASpecification (hint : Spec)
  | overlong
  | misuse (cause : Misuse)
  | misconfiguration (cause : Misconfiguration)
  | containerShape (shape : Tag)
  | notARecordClass (name : Text)
  | complaint (cause : Complaint)

namespace Fault

/-- Whether a fault has no words of its own, since they would show an integer that has too many
digits. -/
def isOverlong : Fault → Bool
  | .unsupported data => data.isOverlong
  | .notASpecification hint => hint.isOverlong
  | .overlong => true
  | .misuse cause => cause.isOverlong
  | .misconfiguration cause => cause.isOverlong
  | _ => false

/-- The record lacking a field that the words for a fault would show. -/
def lacking? : Fault → Option Data.Unhashable
  | .unsupported data => data.lacking?
  | _ => none

/-- What a fault with words of its own is about. -/
def ownConcern : Fault → Concern
  | .overlong => .value
  | .misuse cause => cause.concern
  | .misconfiguration _ => .configuration
  | .containerShape _ => .value
  | .complaint cause => cause.concern
  | _ => .type

/-- What a fault is about. -/
def concern (fault : Fault) : Concern :=
  if fault.isOverlong then .value
  else if fault.lacking?.isSome then .attribute
  else fault.ownConcern

/-- The words for an integer that has too many digits. -/
def overlongMessage : Text :=
  Text.lit "Exceeds the limit (" ++ Text.ofNat Text.digitLimit ++
    Text.lit " digits) for integer string conversion; use sys.set_int_max_str_digits() to " ++
    Text.lit "increase the limit"

/-- The words that a fault has of its own. -/
def ownMessage : Fault → Text
  | .unsupported data =>
      Text.lit "Could not load JSON value from " ++ data.typeName ++ Text.lit ": " ++ data.shown
  | .keyNotString key => Text.lit "JSON object keys must be strings, not " ++ key.typeName
  | .notASpecification hint => Text.lit "Not a type specification: " ++ hint.shown
  | .overlong => overlongMessage
  | .misuse cause => cause.message
  | .misconfiguration cause => cause.message
  | .containerShape shape => Text.lit "scalar_schema needs a scalar shape, got " ++ shape.name
  | .notARecordClass name => name ++ Text.lit " is not a dataclass"
  | .complaint cause => cause.message

/-- The words for a fault. -/
def message (fault : Fault) : Text :=
  if fault.isOverlong then overlongMessage
  else (fault.lacking?.map Data.Unhashable.message).getD fault.ownMessage

/-- The fault of telling what has a flaw. -/
def ofFlaw : Spec.Flaw → Fault
  | .stray hint => .notASpecification hint
  | .overlong => .overlong

end Fault

end JsonDecoding
