import JsonDecoding.Assoc
import JsonDecoding.Calendar.Moment
import JsonDecoding.Number.Shortest
import JsonDecoding.Uuid

/-!
# Data

The plain data that a value is read from and decoded into. A set keeps the first of equal elements;
a dictionary keeps the first of equal keys, in order of arrival. Records and models are instances of
classes with fields. A record may lack some of the fields that its class declares, and a model
remembers which of its fields were given. A labelled value is opaque: it is equal to itself only, and
a mark tells those apart that are held somewhere; what was just made has none.
-/

namespace JsonDecoding

/-- Plain data and the instances that schemas build. -/
inductive Data where
  | null
  | bool (value : Bool)
  | int (value : Int)
  | float (value : Binary64)
  | str (value : Text)
  | list (items : List Data)
  | tuple (items : List Data)
  | dict (entries : List (Data × Data))
  | set (items : List Data)
  | bytes (octets : List Nat)
  | decimal (value : Decimal)
  | nonFinite (value : Decimal.NonFinite)
  | date (value : Date)
  | moment (value : Moment)
  | uuid (value : Uuid)
  | record (className : Text) (frozen : Bool) (fields : List (Text × Data)) (lacking : List Text)
  | model (className : Text) (fields : List (Text × Data)) (given : List Text)
  | labelled (mark : Option Nat) (label : Text) (content : Data)

namespace Data

/-- The name of the kind of data; labelled values are all of one kind. -/
def typeName : Data → Text
  | .null => Text.lit "NoneType"
  | .bool _ => Text.lit "bool"
  | .int _ => Text.lit "int"
  | .float _ => Text.lit "float"
  | .str _ => Text.lit "str"
  | .list _ => Text.lit "list"
  | .tuple _ => Text.lit "tuple"
  | .dict _ => Text.lit "dict"
  | .set _ => Text.lit "set"
  | .bytes _ => Text.lit "bytes"
  | .decimal _ => Text.lit "Decimal"
  | .nonFinite _ => Text.lit "Decimal"
  | .date _ => Text.lit "date"
  | .moment _ => Text.lit "datetime"
  | .uuid _ => Text.lit "UUID"
  | .record className .. => className
  | .model className .. => className
  | .labelled .. => Text.lit "Record"

/-! ## Numbers among the data -/

/-- A number whatever kind of data writes it: a finite one is given by its canonical decimal, an
undefined one by its mark and whether it signals. -/
inductive Quantity where
  | finite (value : Decimal)
  | infinite (negative : Bool)
  | undefined (signalling : Bool) (mark : Nat)

namespace Quantity

/-- The quantity of an integer. -/
def ofInt (i : Int) : Quantity := .finite (Decimal.canonical ⟨i < 0, i.natAbs, 0⟩)

/-- Equality of quantities; an undefined one equals nothing but itself. -/
def same : Quantity → Quantity → Bool
  | .finite a, .finite b => a = b
  | .infinite a, .infinite b => a = b
  | .undefined s a, .undefined t b => s = t && a = b
  | _, _ => false

/-- The order of quantities; nothing is above or below an undefined one. -/
def below : Quantity → Quantity → Bool
  | .finite a, .finite b => a.below b
  | .finite _, .infinite negative => !negative
  | .infinite negative, .finite _ => negative
  | .infinite a, .infinite b => a && !b
  | _, _ => false

/-- Whether a quantity is an undefined one. -/
def isUndefined : Quantity → Bool
  | .undefined .. => true
  | _ => false

end Quantity

/-- The number that data stands for; truth values count as one and zero. -/
def quantity? : Data → Option Quantity
  | .bool b => some (.ofInt (if b then 1 else 0))
  | .int i => some (.ofInt i)
  | .float (.infinity negative) => some (.infinite negative)
  | .float (.nan mark) => some (.undefined false mark)
  | .float (.finite negative exponent fraction) =>
      some (.finite (Binary64.exactDecimal negative exponent fraction).canonical)
  | .decimal d => some (.finite d.canonical)
  | .nonFinite (.infinite negative) => some (.infinite negative)
  | .nonFinite (.undefined _ signalling _ mark) => some (.undefined signalling mark)
  | _ => none

/-! ## Equality -/

/-- Equality of numbers by value; data that is no number is never equal here. -/
def sameQuantity (a b : Data) : Bool :=
  match a.quantity?, b.quantity? with
  | some a, some b => a.same b
  | _, _ => false

mutual

/-- Equality of data as sets and dictionaries tell it, where everything equals itself: numbers by value
across kinds, sequences of one kind by position, dictionaries and sets regardless of order, moments
by instant, instances by class and fields. -/
def same : Data → Data → Bool
  | .null, .null => true
  | .str a, .str b => a == b
  | .bytes a, .bytes b => a == b
  | .date a, .date b => a = b
  | .moment a, .moment b => a.same b
  | .uuid a, .uuid b => a = b
  | .list a, .list b => sameItems a b
  | .tuple a, .tuple b => sameItems a b
  | .set a, .set b => a.length == b.length && includedItems a b
  | .dict a, .dict b => a.length == b.length && includedEntries a b
  | .record c _ a absent, .record d _ b others => c == d && absent == others && sameFields a b
  | .model c a _, .model d b _ => c == d && sameFields a b
  | .labelled (some a) _ _, .labelled (some b) _ _ => a = b
  | a, b => sameQuantity a b

/-- Equality position by position. -/
def sameItems : List Data → List Data → Bool
  | [], [] => true
  | a :: as, b :: bs => same a b && sameItems as bs
  | _, _ => false

/-- Whether every item has an equal one in the other list. -/
def includedItems : List Data → List Data → Bool
  | [], _ => true
  | a :: as, bs => bs.any (fun b => same a b) && includedItems as bs

/-- Whether every entry has one of equal key and value in the other list. -/
def includedEntries : List (Data × Data) → List (Data × Data) → Bool
  | [], _ => true
  | (k, v) :: rest, bs =>
      bs.any (fun b => same k b.1 && same v b.2) && includedEntries rest bs

/-- Equality of fields, name by name. -/
def sameFields : List (Text × Data) → List (Text × Data) → Bool
  | [], [] => true
  | (n, a) :: as, (m, b) :: bs => n == m && same a b && sameFields as bs
  | _, _ => false

end

instance : BEq Data := ⟨same⟩

/-- The items without those that equal an earlier one. -/
def distinct (items : List Data) : List Data :=
  items.foldl (fun kept item => if kept.any (fun k => item == k) then kept else kept ++ [item]) []

/-- The integer that data is; truth values count. -/
def whole? : Data → Option Int
  | .bool b => some (if b then 1 else 0)
  | .int i => some i
  | _ => none

/-- Whether data counts as true: neither null, false, zero nor empty. -/
def isTruthy : Data → Bool
  | .null => false
  | .bool b => b
  | .str s => !s.isEmpty
  | .list items => !items.isEmpty
  | .tuple items => !items.isEmpty
  | .dict entries => !entries.isEmpty
  | .set items => !items.isEmpty
  | .bytes octets => !octets.isEmpty
  | data => data.quantity?.all fun quantity => !quantity.same (.ofInt 0)

/-! ## Hashing -/

/-- Why data cannot be an element of a set or a key: its kind has no hash, it is an undefined number
that signals, or it is a record that lacks a field, which the hash would ask for. -/
inductive Unhashable where
  | kind (name : Text)
  | signalling
  | lacking (className field : Text)

/-- The words for data that has no hash. -/
def Unhashable.message : Unhashable → Text
  | .kind name => Text.lit "unhashable type: " ++ Text.shownName 200 name
  | .signalling => Text.lit "Cannot hash a signaling NaN value"
  | .lacking className field =>
      Text.shownName 50 className ++ Text.lit " object has no attribute '" ++ field ++ Text.lit "'"

mutual

/-- The first reason why data cannot be an element of a set or a key: lists, dictionaries, sets,
models, records that are not frozen or lack a field, and signalling numbers cannot, also inside
tuples and frozen records. -/
def unhashable? : Data → Option Unhashable
  | .list items => some (.kind (typeName (.list items)))
  | .dict entries => some (.kind (typeName (.dict entries)))
  | .set items => some (.kind (typeName (.set items)))
  | .model className .. => some (.kind className)
  | .record className frozen fields absent =>
      if frozen then
        match absent with
        | [] => unhashableField? fields
        | field :: _ => some (.lacking className field)
      else some (.kind className)
  | .tuple items => unhashableItem? items
  | .nonFinite (.undefined _ true _ _) => some .signalling
  | _ => none

/-- The first such reason among items. -/
def unhashableItem? : List Data → Option Unhashable
  | [] => none
  | item :: rest => (unhashable? item).or (unhashableItem? rest)

/-- The first such reason among fields. -/
def unhashableField? : List (Text × Data) → Option Unhashable
  | [] => none
  | (_, value) :: rest => (unhashable? value).or (unhashableField? rest)

end

end Data

end JsonDecoding
