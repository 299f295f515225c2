import JsonDecoding.Data.Order
import JsonDecoding.Fault

/-!
# Ready-made rules

Rules that build a result from decoded data or complain about it: measuring, selecting, labelling,
and limits.
-/

namespace JsonDecoding.Rule

/-- The complaint that data does not support what a rule does with it. -/
def unsupported (message : Text) : Complaint := ⟨.type, message⟩

/-- The name of a kind of data as complaints show it. -/
def kindOf (data : Data) : Text := Text.shownName 200 data.qualifiedTypeName

/-- The complaint that a key is absent; it shows the key. -/
def absent (key : Data) : Complaint := ⟨.key, key.shown⟩

/-- The complaint that data has no parts. -/
def withoutParts (data : Data) : Complaint :=
  unsupported (kindOf data ++ Text.lit " object is not subscriptable")

/-- The data as it is. -/
def identity : Rule := .ok

/-- A complaint whatever the data is. -/
def complain (complaint : Complaint) : Rule := fun _ => .error complaint

/-- The data under a label. -/
def label (name : Text) : Rule := fun data => .ok (.labelled none name data)

/-! ## Parts -/

/-- The parts that data is made of in order: items, keys, or single code points. -/
def parts? : Data → Option (List Data)
  | .list items => some items
  | .tuple items => some items
  | .set items => some items
  | .dict entries => some (entries.map Prod.fst)
  | .str s => some (s.map fun c => .str [c])
  | .bytes octets => some (octets.map fun (octet : Nat) => Data.int octet)
  | _ => none

/-- How many parts data has. -/
def size (data : Data) : Except Complaint Nat :=
  match parts? data with
  | some parts => .ok parts.length
  | none =>
      .error (unsupported (Text.lit "object of type " ++ kindOf data ++ Text.lit " has no len()"))

/-- The number of parts. -/
def length : Rule := fun data => (size data).map fun n => .int n

/-- What data gives one after another: its parts, or the fields of a model with their names. -/
def iterated? : Data → Option (List Data)
  | .model _ fields _ => some (fields.map fun field => .tuple [.str field.1, field.2])
  | data => parts? data

/-- The parts as a tuple. -/
def tuple : Rule := fun data =>
  match iterated? data with
  | some parts => .ok (.tuple parts)
  | none => .error (unsupported (kindOf data ++ Text.lit " object is not iterable"))

/-- The entry under a key. -/
def entry (key : Text) : Rule := fun data =>
  match data with
  | .dict entries =>
      match entries.lookup (.str key) with
      | some value => .ok value
      | none => .error (absent (.str key))
  | .list _ => .error (unsupported (Text.lit "list indices must be integers or slices, not str"))
  | .tuple _ => .error (unsupported (Text.lit "tuple indices must be integers or slices, not str"))
  | .str _ => .error (unsupported (Text.lit "string indices must be integers, not 'str'"))
  | .bytes _ => .error (unsupported (Text.lit "byte indices must be integers or slices, not str"))
  | data => .error (withoutParts data)

/-- The first item, or the first of a sequence's parts. -/
def first : Rule := fun data =>
  let outOfRange (kind : String) : Complaint := ⟨.index, Text.lit (kind ++ "index out of range")⟩
  match data with
  | .list [] => .error (outOfRange "list ")
  | .tuple [] => .error (outOfRange "tuple ")
  | .str [] => .error (outOfRange "string ")
  | .bytes [] => .error (outOfRange "")
  | .list (item :: _) => .ok item
  | .tuple (item :: _) => .ok item
  | .str (c :: _) => .ok (.str [c])
  | .bytes (octet :: _) => .ok (.int octet)
  | .dict entries =>
      match entries.lookup (.int 0) with
      | some value => .ok value
      | none => .error (absent (.int 0))
  | data => .error (withoutParts data)

/-! ## Limits -/

/-- The complaint that two data have no order. -/
def incomparable : Unordered → Complaint
  | .kinds left right =>
      unsupported (Text.lit "'>' not supported between instances of " ++ Text.shownName 100 left ++
        Text.lit " and " ++ Text.shownName 100 right)
  | .momentAndDate => unsupported (Text.lit "can't compare datetime.datetime to datetime.date")
  | .offsets => unsupported (Text.lit "can't compare offset-naive and offset-aware datetimes")
  | .undefined => ⟨.operation, Text.lit "[<class 'decimal.InvalidOperation'>]"⟩

/-- Whether the first datum is greater than the second; data without an order are a defect. -/
def exceeds (a b : Data) : Except Complaint Bool := (a.exceeds b).mapError incomparable

/-- The data, rejected with a message when a check finds that it exceeds a limit. -/
def limited (check : Data → Except Complaint Bool) (message : Text) : Rule := fun data =>
  (check data).bind fun exceeded => if exceeded then .error ⟨.value, message⟩ else .ok data

/-- The data, unless the entry under the first key exceeds the one under the second. -/
def ordered (low high message : Text) : Rule :=
  limited (fun data =>
    (entry low data).bind fun a => (entry high data).bind fun b => exceeds a b) message

/-- The data, unless it exceeds an integer. -/
def atMost (limit : Int) (message : Text) : Rule :=
  limited (fun data => exceeds data (.int limit)) message

/-- The data, unless it has more parts than the limit. -/
def atMostParts (limit : Int) (message : Text) : Rule :=
  limited (fun data => (size data).map fun n => decide (limit < n)) message

end JsonDecoding.Rule
