import JsonDecoding.Data

/-!
# JSON values

A JSON value is a tree of tagged nodes. Whole numbers stay apart from floating-point ones, and an
object keeps its keys in the order in which they arrived.
-/

namespace JsonDecoding

/-- The kind of a JSON value. -/
inductive Tag where
  | array
  | boolean
  | null
  | number
  | object
  | string
deriving DecidableEq

/-- The name of a kind. -/
def Tag.name : Tag → Text
  | .array => Text.lit "array"
  | .boolean => Text.lit "boolean"
  | .null => Text.lit "null"
  | .number => Text.lit "number"
  | .object => Text.lit "object"
  | .string => Text.lit "string"

/-- A number as JSON writes it: without fraction and exponent, or with one of them. -/
inductive Number where
  | int (value : Int)
  | float (value : Binary64)
deriving DecidableEq

/-- The data that a number is. -/
def Number.toData : Number → Data
  | .int i => .int i
  | .float x => .float x

/-- A JSON value. -/
inductive Json where
  | null
  | boolean (value : Bool)
  | number (value : Number)
  | string (value : Text)
  | array (items : List Json)
  | object (fields : List (Text × Json))

namespace Json

/-- The kind of a value. -/
def tag : Json → Tag
  | .null => .null
  | .boolean _ => .boolean
  | .number _ => .number
  | .string _ => .string
  | .array _ => .array
  | .object _ => .object

/-! ## Nesting -/

mutual

/-- How many arrays and objects lie inside one another at most, the value itself included. -/
def depth : Json → Nat
  | .array items => depthItems items + 1
  | .object fields => depthFields fields + 1
  | _ => 0

/-- The greatest depth among items. -/
def depthItems : List Json → Nat
  | [] => 0
  | item :: rest => max (depth item) (depthItems rest)

/-- The greatest depth among fields. -/
def depthFields : List (Text × Json) → Nat
  | [] => 0
  | (_, value) :: rest => max (depth value) (depthFields rest)

end

theorem depth_le_depthItems {items : List Json} {item : Json} (h : item ∈ items) :
    item.depth ≤ depthItems items := by
  induction items with
  | nil => cases h
  | cons first rest ih =>
      simp only [depthItems]
      rcases List.mem_cons.mp h with rfl | hrest
      · exact Nat.le_max_left _ _
      · exact Nat.le_trans (ih hrest) (Nat.le_max_right _ _)

theorem depth_le_depthFields {fields : List (Text × Json)} {field : Text × Json}
    (h : field ∈ fields) : field.2.depth ≤ depthFields fields := by
  induction fields with
  | nil => cases h
  | cons first rest ih =>
      obtain ⟨key, value⟩ := first
      simp only [depthFields]
      rcases List.mem_cons.mp h with rfl | hrest
      · exact Nat.le_max_left _ _
      · exact Nat.le_trans (ih hrest) (Nat.le_max_right _ _)

/-! ## Plain data -/

mutual

/-- The whole tree as plain data: lists, dictionaries and scalars. -/
def toData : Json → Data
  | .null => .null
  | .boolean b => .bool b
  | .number n => n.toData
  | .string s => .str s
  | .array items => .list (toDataItems items)
  | .object fields => .dict (toDataFields fields)

/-- The data of items in order. -/
def toDataItems : List Json → List Data
  | [] => []
  | item :: rest => toData item :: toDataItems rest

/-- The data of fields in order. -/
def toDataFields : List (Text × Json) → List (Data × Data)
  | [] => []
  | (key, value) :: rest => (.str key, toData value) :: toDataFields rest

end

/-- The plain data of a scalar; `none` for an array or an object. -/
def scalar? : Json → Option Data
  | .null => some .null
  | .boolean b => some (.bool b)
  | .number n => some n.toData
  | .string s => some (.str s)
  | _ => none

theorem exists_scalar? {value : Json} (harray : ∀ items, value ≠ .array items)
    (hobject : ∀ fields, value ≠ .object fields) : ∃ data, value.scalar? = some data := by
  cases value with
  | array items => exact absurd rfl (harray items)
  | object fields => exact absurd rfl (hobject fields)
  | _ => exact ⟨_, rfl⟩

/-! ## Equality -/

mutual

/-- Equality of values of one kind: numbers by value, arrays by position, and objects by key and
value in order. -/
def same : Json → Json → Bool
  | .null, .null => true
  | .boolean a, .boolean b => a == b
  | .number a, .number b => a.toData.sameQuantity b.toData
  | .string a, .string b => a == b
  | .array a, .array b => sameItems a b
  | .object a, .object b => sameFields a b
  | _, _ => false

/-- Equality position by position. -/
def sameItems : List Json → List Json → Bool
  | [], [] => true
  | a :: as, b :: bs => same a b && sameItems as bs
  | _, _ => false

/-- Equality of fields in order. -/
def sameFields : List (Text × Json) → List (Text × Json) → Bool
  | [], [] => true
  | (k, a) :: as, (l, b) :: bs => k == l && same a b && sameFields as bs
  | _, _ => false

end

/-! ## Access -/

/-- The items of an array; no other value has any. -/
def items : Json → List Json
  | .array items => items
  | _ => []

/-- The fields of an object; no other value has any. -/
def fields : Json → List (Text × Json)
  | .object fields => fields
  | _ => []

/-- The keys of an object in order. -/
def keys (value : Json) : List Text := Assoc.keys value.fields

/-- The value under a key of an object. -/
def get? (value : Json) (key : Text) : Option Json := value.fields.lookup key

/-- The item at an index of an array, counted from the end when the index is negative. -/
def item? (value : Json) (index : Int) : Option Json :=
  let position := if index < 0 then index + value.items.length else index
  if position < 0 then none else value.items[position.toNat]?

/-- How many items or fields an array or object has. -/
def size? : Json → Option Nat
  | .array items => some items.length
  | .object fields => some fields.length
  | _ => none

end Json

end JsonDecoding
