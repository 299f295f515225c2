import JsonDecoding.Schema

/-!
# Keys of class fields

Schemas of classes read each field under a key. Where several fields ask for one key, the last of
them owns it, at the place of the first, and the key is optional as soon as one of them has a
default.
-/

namespace JsonDecoding

/-- What a class field asks for: a key, a specification, and whether the key may be absent. -/
structure KeyRequest where
  key : Text
  field : Text
  hint : Spec
  isOptional : Bool

namespace KeyRequest

/-- The key of a field under a renaming of fields. -/
def renamed (mapping : List (Text × Text)) (field : Text) : Text :=
  (mapping.lookup field).getD field

/-- The field that owns each key, in order of keys. -/
def owners (requests : List KeyRequest) : List (Text × Text) :=
  Assoc.ofPairs (requests.map fun request => (request.key, request.field))

/-- The schema of objects with the requested keys. Every annotation has to stand for a
specification, also that of a field which loses its key. -/
def schema (description : Text) (requests : List KeyRequest) (assemble : Rule) :
    Except Fault Schema :=
  (requests.mapM fun request =>
      (Schema.specOf request.hint).map fun spec => (request.key, spec)).bind fun specs =>
    Schema.ofFields description specs ((requests.filter KeyRequest.isOptional).map KeyRequest.key)
      assemble

/-- The entries of a decoded object under other names for their keys. -/
def renamedEntries (names : List (Text × Text)) (data : Data) : List (Text × Data) :=
  match data with
  | .dict entries => entries.filterMap fun
      | (.str key, value) => (names.lookup key).map fun name => (name, value)
      | _ => none
  | _ => []

end KeyRequest

end JsonDecoding
