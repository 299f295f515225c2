import JsonDecoding.Json.SyntaxError
import JsonDecoding.Log

/-!
# The reader

Making JSON values of plain data and of text, with a limit on nesting. A reader counts the
containers that are open; a container beyond the limit is counted before it is refused, and that
count is never taken back.
-/

namespace JsonDecoding

/-- Why plain data is no JSON value: a kind of data that JSON does not have, a key that is no
string, or a container too many around each other for the reader or for any reader. -/
inductive Obstacle where
  | unsupported (data : Data)
  | keyNotString (key : Data)
  | nesting
  | recursion

namespace Json

/-- Opens a container inside `level` others. -/
def enter (limit : Int) (level : Nat) : Except Obstacle Unit :=
  if limit < level + 1 then .error .nesting
  else if Scanner.nestingLimit ≤ level then .error .recursion
  else .ok ()

mutual

/-- The JSON value of data that stands inside `level` containers. -/
def ofData (limit : Int) (level : Nat) : Data → Except Obstacle Json
  | .null => .ok .null
  | .bool b => .ok (.boolean b)
  | .int i => .ok (.number (.int i))
  | .float x => .ok (.number (.float x))
  | .str s => .ok (.string s)
  | .list items =>
      (enter limit level).bind fun _ => (ofDataItems limit (level + 1) items).map .array
  | .tuple items =>
      (enter limit level).bind fun _ => (ofDataItems limit (level + 1) items).map .array
  | .dict entries =>
      (enter limit level).bind fun _ => (ofDataEntries limit (level + 1) entries).map .object
  | data => .error (.unsupported data)

/-- The values of items in order, up to the first obstacle. -/
def ofDataItems (limit : Int) (level : Nat) : List Data → Except Obstacle (List Json)
  | [] => .ok []
  | item :: rest =>
      (ofData limit level item).bind fun value =>
        (ofDataItems limit level rest).map fun values => value :: values

/-- The fields that entries with string keys make, up to the first obstacle. -/
def ofDataEntries (limit : Int) (level : Nat) :
    List (Data × Data) → Except Obstacle (List (Text × Json))
  | [] => .ok []
  | (.str key, item) :: rest =>
      (ofData limit level item).bind fun value =>
        (ofDataEntries limit level rest).map fun fields => (key, value) :: fields
  | (key, _) :: _ => .error (.keyNotString key)

end

end Json

/-- Why nothing was read: the input is at fault, or the data is of a kind that no JSON value has. -/
inductive Unreadable where
  | invalid (error : SyntaxError)
  | unsupported (data : Data)
  | keyNotString (key : Data)

/-- The failure that an obstacle amounts to under a depth limit. -/
def Obstacle.failure (limit : Int) : Obstacle → Unreadable
  | .unsupported data => .unsupported data
  | .keyNotString key => .keyNotString key
  | .nesting => .invalid (.nesting limit)
  | .recursion => .invalid (.unreadableNesting limit)

/-- A reader: how many containers may be open, and how many it counts as open between readings. -/
structure Reader where
  maxDepth : Int
  level : Nat
deriving DecidableEq

namespace Reader

/-- The depth limit where none is given. -/
def defaultMaxDepth : Int := 100

/-- A reader that has read nothing yet. -/
def fresh (maxDepth : Int) : Reader := ⟨maxDepth, 0⟩

/-- What one reading gives: records, a value or a failure, and the reader afterwards. -/
structure Outcome where
  log : List Log.Record
  result : Except Unreadable Json
  after : Reader

/-- Reads plain data. -/
def readData (r : Reader) (data : Data) : Outcome :=
  match Json.ofData r.maxDepth r.level data with
  | .ok value => ⟨[], .ok value, r⟩
  | .error .nesting => ⟨[], .error (Obstacle.nesting.failure r.maxDepth), ⟨r.maxDepth, r.level + 1⟩⟩
  | .error obstacle => ⟨[], .error (obstacle.failure r.maxDepth), r⟩

/-- Reads a text. Only a malformed text leaves a record. -/
def readText (r : Reader) (t : Text) : Outcome :=
  match Scanner.document t with
  | .ok value => r.readData value.toData
  | .error fault =>
      let error := SyntaxError.ofFault t r.maxDepth fault
      match error with
      | .malformed problem position =>
          ⟨[.textRejected position.offset problem.message], .error (.invalid error), r⟩
      | _ => ⟨[], .error (.invalid error), r⟩

end Reader

/-- What a value can be read from. -/
inductive Input where
  | text (t : Text)
  | octets (units : List Nat)
  | data (content : Data)

/-- Reads an input with a fresh reader; octets are taken as UTF-8. -/
def Input.read (maxDepth : Int) (input : Input) : Reader.Outcome :=
  let reader := Reader.fresh maxDepth
  match input with
  | .text t => reader.readText t
  | .octets units =>
      match Utf8.decode units with
      | .ok t => reader.readText t
      | .error fault => ⟨[], .error (.invalid (.invalidUtf8 fault)), reader⟩
  | .data content => reader.readData content

end JsonDecoding
