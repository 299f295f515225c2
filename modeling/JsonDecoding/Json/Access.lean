import JsonDecoding.Fault

/-!
# Looking into values

What can be asked of a JSON value: its size, its keys, its items, whether it contains something. Not
every kind of value has an answer to everything; where it has none, a complaint names the kind.
-/

namespace JsonDecoding.Json

/-- The name of a kind of value. -/
def kindName : Json → Text
  | .null => Text.lit "JsonNull"
  | .boolean _ => Text.lit "JsonBoolean"
  | .number _ => Text.lit "JsonNumber"
  | .string _ => Text.lit "JsonString"
  | .array _ => Text.lit "JsonArray"
  | .object _ => Text.lit "JsonObject"

/-- The complaint that a kind of value does not support something. -/
def unsuited (value : Json) (before after : String) : Complaint :=
  ⟨.type, Text.lit before ++ Text.lit "'" ++ value.kindName ++ Text.lit "'" ++ Text.lit after⟩

/-- The complaint that a kind of value has no attribute. -/
def withoutAttribute (value : Json) (name : String) : Complaint :=
  ⟨.attribute, Text.lit "'" ++ value.kindName ++ Text.lit "' object has no attribute '" ++
    Text.lit name ++ Text.lit "'"⟩

/-- How many items or fields a value has. -/
def size (value : Json) : Except Complaint Nat :=
  match value.size? with
  | some size => .ok size
  | none => .error (value.unsuited "object of type " " has no len()")

/-- The keys of an object. -/
def allKeys (value : Json) : Except Complaint (List Text) :=
  match value with
  | .object _ => .ok value.keys
  | value => .error (value.withoutAttribute "keys")

/-- Whether an object has a key; an array contains JSON values only, which no data is. -/
def contains (value : Json) (key : Data) : Except Complaint Bool :=
  match value with
  | .object _ =>
      match key.unhashable?, key with
      | some reason, _ => .error ⟨.type, reason.message⟩
      | none, .str key => .ok (value.get? key).isSome
      | none, _ => .ok false
  | .array _ => .ok false
  | value => .error (value.unsuited "argument of type " " is not iterable")

/-- The value under a key of an object, if there is one. -/
def field (value : Json) (key : Text) : Except Complaint (Option Json) :=
  match value with
  | .object _ => .ok (value.get? key)
  | value => .error (value.withoutAttribute "get")

/-- The item at an index of an array, counted from the end when the index is negative. -/
def item (value : Json) (index : Int) : Except Complaint Json :=
  match value with
  | .array _ =>
      match value.item? index with
      | some item => .ok item
      | none => .error ⟨.index, Text.lit "tuple index out of range"⟩
  | value => .error (value.unsuited "" " object is not subscriptable")

/-- The items of an array. -/
def allItems (value : Json) : Except Complaint (List Json) :=
  match value with
  | .array items => .ok items
  | value => .error (value.unsuited "" " object is not iterable")

end JsonDecoding.Json
