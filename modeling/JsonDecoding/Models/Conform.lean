import JsonDecoding.Data.Sets
import JsonDecoding.Models.Scalar
import JsonDecoding.Spec.Description

/-!
# Bringing data to its annotated type

A model brings the data of its fields to their annotated types: numbers become integers or
floating-point numbers, sequences become sequences of the annotated kind, also inside containers.
How well a match fits decides between the members of a union: one that nothing can better is taken
at once, else the best one, the first of several equally good ones.
-/

namespace JsonDecoding.Conform

open Outcome (matched unexpected)

/-! ## Containers -/

/-- The items of a sequence for a sequence of a kind; other sequences are converted to it, and so
are models, whose items are names with values. -/
def itemsFor (expected : Expected) (data : Data) : Outcome (List Data) :=
  match expected, data with
  | .list, .list items => matched .exact items
  | .tuple, .tuple items => matched .exact items
  | .set, .set items => matched .exact items
  | _, .list items => matched .lax items
  | _, .tuple items => matched .lax items
  | _, .set items => matched .lax items
  | _, .model _ fields _ =>
      matched .lax (fields.map fun field => .tuple [.str field.1, field.2])
  | expected, data => unexpected expected data

/-- Each item brought to its type, the first being at `index`. -/
def eachItem (each : Data → Outcome Data) (index : Nat) : List Data → Outcome (List Data)
  | [] => matched .exact []
  | item :: rest =>
      ((each item).inside (Text.ofNat index)).both (Match.both List.cons)
        (eachItem each (index + 1) rest)

/-- The step that leads to the entry under a key. -/
def keyStep : Data → Text
  | .str t => Utf8.replaced t
  | .bool b => Text.ofNat (if b then 1 else 0)
  | key => key.shown

/-- The key and the value of an entry brought to their types; a key without a hash is a defect. -/
def entry (eachKey eachValue : Data → Outcome Data) (key value : Data) : Outcome (Data × Data) :=
  let newKey : Outcome Data := (eachKey key).bind fun m =>
    match m.result.unhashable? with
    | some reason => Checked.issue (.defect ⟨.type, reason.message⟩) key
    | none => .ok m
  ((newKey.inside (Text.lit "[key]")).both (Match.both Prod.mk) (eachValue value)).inside
    (keyStep key)

/-- Each entry of a dictionary brought to its types. -/
def eachEntry (eachKey eachValue : Data → Outcome Data) :
    List (Data × Data) → Outcome (List (Data × Data))
  | [] => matched .exact []
  | (key, value) :: rest =>
      (entry eachKey eachValue key value).both (Match.both List.cons)
        (eachEntry eachKey eachValue rest)

/-- A sequence of a kind, its items brought to their type. -/
def sequence (expected : Expected) (each : Data → Outcome Data) (build : List Data → Data)
    (data : Data) : Outcome Data :=
  (itemsFor expected data).bind fun items =>
    (eachItem each 0 items.result).map fun m => (m.map build).atMost items.exactness

/-- A set of a kind, its items brought to their type; those without a hash are issues. -/
def distinctItems (expected : Expected) (each : Data → Outcome Data) (data : Data) :
    Outcome Data :=
  sequence expected (fun item =>
    (each item).bind fun m =>
      if m.result.unhashable?.isSome then Checked.issue .notHashable item else .ok m)
    Data.setOf data

/-- A dictionary, its keys and values brought to their types. Of keys that become equal the last
value counts. -/
def dictionary (eachKey eachValue : Data → Outcome Data) (data : Data) : Outcome Data :=
  match data with
  | .dict entries =>
      (eachEntry eachKey eachValue entries).map
        (Match.map fun entries => .dict (Assoc.ofPairs entries))
  | data => unexpected .dictionary data

/-- Data of any kind. -/
def anything (data : Data) : Outcome Data := matched .strict data

/-- Data that nothing is asked of, as it is. -/
def untouched (data : Data) : Outcome Data := matched .exact data

/-- Data as data of a builtin type. -/
def builtin (type : Builtin) (data : Data) : Outcome Data :=
  match type with
  | .any | .object => anything data
  | .noneType =>
      match data with
      | .null => matched .exact .null
      | data => unexpected .nothing data
  | .bool => Outcome.boolean data
  | .int => Outcome.integer data
  | .float => Outcome.number data
  | .str => Outcome.text data
  | .bytes => Outcome.octets data
  | .datetime => Outcome.moment data
  | .date => Outcome.date data
  | .uuid => Outcome.uuid data
  | .decimal => Outcome.decimal data
  | .complex =>
      match data, Outcome.float? data with
      | .bool _, _ | .str _, _ | _, some _ => untouched data
      | data, none => unexpected .complex data
  | .metaclass => unexpected .type data
  | .list | .listAlias => sequence .list untouched .list data
  | .set | .setAlias => distinctItems .set anything data
  | .frozenset | .frozensetAlias => distinctItems .frozenset anything data
  | .tuple | .tupleAlias => sequence .tuple anything .tuple data
  | .dict | .dictAlias => dictionary anything anything data
  | .ellipsis | .plain _ | .function _ => untouched data

/-- How data becomes an instance of the class with a name. -/
abbrev Instances := Text → Data → Outcome Data

/-! ## Unions -/

/-- Whether a type takes data of any kind. -/
def isAnything : Spec → Bool
  | .builtin .any | .builtin .object => true
  | _ => false

/-- Whether a member of a union is the type of null. -/
def isNothing : Spec → Bool
  | .builtin .noneType => true
  | .token .null => true
  | _ => false

mutual

/-- The name of a type in the places of issues. -/
def typeName : Spec → Text
  | .builtin .any => Text.lit "any"
  | .builtin .object => Text.lit "any"
  | .builtin .noneType => Text.lit "none"
  | .builtin .list | .builtin .listAlias => Text.lit "list[any]"
  | .builtin .set | .builtin .setAlias => Text.lit "set[any]"
  | .builtin .frozenset | .builtin .frozensetAlias => Text.lit "frozenset[any]"
  | .builtin .tuple | .builtin .tupleAlias => Text.lit "tuple[any, ...]"
  | .builtin .dict | .builtin .dictAlias => Text.lit "dict[any,any]"
  | .builtin .uuid => Text.lit "uuid"
  | .builtin .decimal => Text.lit "decimal"
  | .builtin type => type.name
  | .generic .tuple [element, .builtin .ellipsis] =>
      Text.lit "tuple[" ++ typeName element ++ Text.lit ", ...]"
  | .generic .tuple elements =>
      Text.lit "tuple[" ++ Text.joined (Text.lit ", ") (typeNames elements) ++ Text.lit "]"
  | .generic head parameters =>
      head.name ++ Text.lit "[" ++ Text.joined [44] (typeNames parameters) ++ Text.lit "]"
  | .union _ members =>
      let names := (members.zip (typeNames members)).filter fun member => !isNothing member.1
      let name := match names.map Prod.snd with
        | [name] => name
        | names => Text.lit "union[" ++ Text.joined [44] names ++ Text.lit "]"
      if members.any isNothing then Text.lit "nullable[" ++ name ++ Text.lit "]" else name
  | hint => hint.identityName

/-- The names of types in order. -/
def typeNames : List Spec → List Text
  | [] => []
  | hint :: rest => typeName hint :: typeNames rest

end

/-- The better of two matches, the first of two equally good ones. -/
def better (m n : Match Data) : Match Data := if m.isWorse n then n else m

/-- The best match with the members of a union, of which `best` is the best so far and `issues` are
the issues. A match that nothing can better ends the search, and so does a defect. Where no member
matches, the issues of all are kept, each at the name of its member. -/
def search (best : Option (Match Data)) (issues : List Issue) :
    List (Text × Outcome Data) → Outcome Data
  | [] =>
      match best with
      | some m => .ok m
      | none => .error issues
  | (_, .ok m) :: rest =>
      if m.isBest then .ok m else search (some ((best.map (better · m)).getD m)) issues rest
  | (name, .error found) :: rest =>
      if found.any fun issue => issue.defect?.isSome then .error found
      else search best (issues ++ found.map (Issue.inside name)) rest

/-- The best match with the members of a union. A single member beside null needs no name. -/
def choose (outcomes : List (Text × Outcome Data)) : Outcome Data :=
  match outcomes with
  | [(_, outcome)] => outcome
  | outcomes => search none [] outcomes

/-! ## All types -/

mutual

/-- Data brought to an annotated type. -/
def conform (instances : Instances) : Spec → Data → Outcome Data
  | .builtin type, data => builtin type data
  | .token .null, data => builtin .noneType data
  | .named name _ _, data => instances name data
  | .generic .list parameters, data =>
      if parameters.head?.all isAnything then builtin .list data
      else sequence .list (conformFirst instances parameters) .list data
  | .generic .set parameters, data =>
      distinctItems .set (conformFirst instances parameters) data
  | .generic .frozenset parameters, data =>
      distinctItems .frozenset (conformFirst instances parameters) data
  | .generic .dict (key :: content :: _), data =>
      dictionary (conform instances key) (conform instances content) data
  | .generic .type (parameter :: _), data =>
      unexpected (if isAnything parameter then .type else .subtype parameter.identityName) data
  | .generic .tuple [element, .builtin .ellipsis], data =>
      sequence .tuple (conform instances element) .tuple data
  | .generic .tuple elements, data =>
      (itemsFor .tuple data).bind fun items =>
        (conformEach instances data items.result.length 0 elements items.result).map fun m =>
          (m.map .tuple).atMost items.exactness
  | .union _ members, data =>
      match members.any isNothing, data with
      | true, .null => matched .exact .null
      | _, data => choose (conformAll instances members data)
  | _, data => untouched data

/-- Data brought to the first of some types, if there is one. -/
def conformFirst (instances : Instances) : List Spec → Data → Outcome Data
  | [], data => anything data
  | element :: _, data => conform instances element data

/-- Items brought to the types at their positions, as many as there are. -/
def conformEach (instances : Instances) (whole : Data) (length : Nat) :
    Nat → List Spec → List Data → Outcome (List Data)
  | _, [], [] => matched .exact []
  | index, [], _ :: _ => Checked.issue (.tooLong index length) whole
  | index, _ :: elements, [] =>
      Checked.both (Match.both List.cons)
        (Checked.inside (Text.ofNat index) (Checked.issue .missing whole))
        (conformEach instances whole length (index + 1) elements [])
  | index, element :: elements, item :: rest =>
      Checked.both (Match.both List.cons)
        ((conform instances element item).inside (Text.ofNat index))
        (conformEach instances whole length (index + 1) elements rest)

/-- Data brought to each member of a union other than null, under the names of the members. -/
def conformAll (instances : Instances) : List Spec → Data → List (Text × Outcome Data)
  | [], _ => []
  | member :: rest, data =>
      if isNothing member then conformAll instances rest data
      else (typeName member, conform instances member data) :: conformAll instances rest data

end

end JsonDecoding.Conform
