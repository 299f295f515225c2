import JsonDecoding.Location
import JsonDecoding.Json.Render
import JsonDecoding.Spec.Description

/-!
# Decoding errors

Why a value does not match a specification, with one frame for every specification that was being
read, the outermost first. A frame names its specification, shows the value, and knows where the
value sits in its parent; the locations of the frames are the path to the value at fault.
-/

namespace JsonDecoding

/-- Why a value was refused. -/
inductive Cause where
  | typeMismatch (expected actual : Text) (value : Json)
  | missingKeys (keys : List Text)
  | unknownKeys (keys : List Text)
  | unknownSpec (spec : Spec)
  | invalid (description : Text) (value : Json) (detail : Text)

namespace Cause

/-- The name of the kind of error. -/
def name : Cause → Text
  | .typeMismatch .. => Text.lit "JsonTypeError"
  | .missingKeys _ => Text.lit "MissingKeysError"
  | .unknownKeys _ => Text.lit "UnknownKeysError"
  | .unknownSpec _ => Text.lit "UnknownSpecError"
  | .invalid .. => Text.lit "JsonValueError"

/-- The reason in one line; `flaw?` says whether it can be told. -/
def reason : Cause → Text
  | .typeMismatch expected actual value =>
      Text.lit "expected: " ++ expected ++ Text.lit ", but got: " ++ actual ++ Text.lit ": " ++
        value.seen
  | .missingKeys keys => Text.lit "missing keys: " ++ Text.joined (Text.lit ", ") keys
  | .unknownKeys keys => Text.lit "unknown keys: " ++ Text.joined (Text.lit ", ") keys
  | .unknownSpec spec => Text.lit "unknown specification: " ++ spec.describe
  | .invalid description _ detail =>
      Text.lit "invalid " ++ description ++ Text.lit ": " ++ detail

/-- The last line of a trace; it can be told where the reason can. -/
def conclusion : Cause → Text
  | .typeMismatch _ actual _ => Text.lit "But this is a `" ++ actual ++ Text.lit "`"
  | .missingKeys keys =>
      Text.lit "But the following keys are required and were not specified: " ++
        Text.joined (Text.lit ", ") keys
  | .unknownKeys keys =>
      Text.lit "But I saw the following keys which are not accepted: " ++
        Text.joined (Text.lit ", ") keys
  | .unknownSpec (.custom identity arguments) =>
      Text.lit "But no schema is registered for `" ++ (Spec.custom identity arguments).describe ++
        Text.lit "`"
  | .unknownSpec spec =>
      Text.lit "But `" ++ spec.describe ++
        Text.lit "` cannot be read as a key; only string map keys are supported"
  | .invalid _ _ detail => Text.lit "But " ++ detail

/-- The flaw that the reason meets: an unknown specification has to be described, and the value of
another type shown. -/
def flaw? : Cause → Option Spec.Flaw
  | .unknownSpec spec => spec.flaw?
  | .typeMismatch _ _ value => if value.isOverlong then some .overlong else none
  | _ => none

/-- The annotation that a report shows first: none but for an unknown specification. -/
def stray? : Cause → Option Spec
  | .unknownSpec spec => spec.stray?
  | _ => none

end Cause

/-- One specification that was being read when decoding failed. -/
structure Frame where
  description : Text
  seen : Text
  location : Option Location
deriving DecidableEq

/-- A failed decoding. -/
structure DecodeError where
  cause : Cause
  frames : List Frame

namespace DecodeError

/-- The error of a value that no specification has been named for yet. -/
def ofCause (cause : Cause) : DecodeError := ⟨cause, []⟩

/-- The error when the value was being read as `description`. -/
def within (e : DecodeError) (description : Text) (value : Json) : DecodeError :=
  ⟨e.cause, ⟨description, value.seen, none⟩ :: e.frames⟩

/-- The error when the outermost frame sits at a location of its parent. -/
def locatedAt (e : DecodeError) (location : Location) : DecodeError :=
  match e.frames with
  | [] => ⟨e.cause, [⟨[], [], some location⟩]⟩
  | frame :: rest => ⟨e.cause, ⟨frame.description, frame.seen, some location⟩ :: rest⟩

/-- The locations from the root to the value at fault. -/
def path (e : DecodeError) : List Location := e.frames.filterMap Frame.location

@[simp] theorem cause_within (e : DecodeError) (description : Text) (value : Json) :
    (e.within description value).cause = e.cause := rfl

@[simp] theorem cause_locatedAt (e : DecodeError) (location : Location) :
    (e.locatedAt location).cause = e.cause := by
  unfold locatedAt
  split <;> rfl

/-- A new outermost frame leaves the path as it is. -/
@[simp] theorem path_within (e : DecodeError) (description : Text) (value : Json) :
    (e.within description value).path = e.path := rfl

/-- A location for a new outermost frame goes to the front of the path. -/
@[simp] theorem path_within_locatedAt (e : DecodeError) (description : Text) (value : Json)
    (location : Location) :
    ((e.within description value).locatedAt location).path = location :: e.path := rfl

/-- The reason in one line. -/
def reason (e : DecodeError) : Text := e.cause.reason

/-- The lines that a frame adds to a trace. -/
def frameLines (outermost : Bool) (frame : Frame) : List Text :=
  (match outermost, frame.location with
    | false, some location => [Text.lit "In the value at " ++ location.words ++ Text.lit ":"]
    | _, _ => []) ++
  if frame.description.isEmpty then []
  else
    [Text.lit "When trying to read a value for specification: `" ++ frame.description ++
        Text.lit "`",
      Text.lit "I saw: `" ++ frame.seen ++ Text.lit "`"]

/-- The lines of the frames from the outside in, then the conclusion. -/
def trace (e : DecodeError) : List Text :=
  (match e.frames with
    | [] => []
    | frame :: rest => frameLines true frame ++ rest.flatMap (frameLines false)) ++
  [e.cause.conclusion]

/-- The whole report: the reason, and the trace where there are frames. -/
def message (e : DecodeError) : Text :=
  if e.frames.isEmpty then e.reason else Text.joined [10] (e.reason :: e.trace)

/-- The whole report, unless a flaw keeps it from being told. -/
def report (e : DecodeError) : Except Spec.Flaw Text :=
  match e.cause.flaw? with
  | none => .ok e.message
  | some flaw => .error flaw

/-- The short form of an error in reports. -/
def shown (e : DecodeError) : Text :=
  Data.built e.cause.name
    (Text.quoted e.reason ++ Text.lit ", path=" ++ Location.shownPath e.path)

end DecodeError

end JsonDecoding
