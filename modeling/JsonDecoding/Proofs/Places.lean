import JsonDecoding.Registry

/-!
# Places

Where the parts of a value are, and which specification each of them is decoded by. A path of
locations leads from a value to a part of it (`Json.follow?`); decoding a value by a specification
leads along such a path from pair to pair of a part and its specification (`Reaches`).
-/

namespace JsonDecoding

/-! ## Paths into a value -/

namespace Json

/-- The part of a value at a location. -/
def child? (value : Json) : Location → Option Json
  | .key name => value.get? name
  | .index position => value.item? position

/-- The part of a value at the end of a path. -/
def follow? (value : Json) : List Location → Option Json
  | [] => some value
  | location :: rest => (value.child? location).bind fun part => part.follow? rest

mutual

/-- No object of the tree has a key twice. -/
def KeysDistinct : Json → Prop
  | .array items => KeysDistinctItems items
  | .object fields => (Assoc.keys fields).Nodup ∧ KeysDistinctFields fields
  | _ => True

/-- No object among the items has a key twice. -/
def KeysDistinctItems : List Json → Prop
  | [] => True
  | item :: rest => KeysDistinct item ∧ KeysDistinctItems rest

/-- No object among the values of fields has a key twice. -/
def KeysDistinctFields : List (Text × Json) → Prop
  | [] => True
  | (_, value) :: rest => KeysDistinct value ∧ KeysDistinctFields rest

end

/-- A value sits at a location of another one: an item at its index, a field under its key. -/
inductive HasPart : Json → Location → Json → Prop where
  | item {items : List Json} {index : Nat} {value : Json} (h : items[index]? = some value) :
      HasPart (.array items) (.index index) value
  | field {fields : List (Text × Json)} {key : Text} {value : Json} (h : (key, value) ∈ fields) :
      HasPart (.object fields) (.key key) value

theorem KeysDistinctItems.of_mem {items : List Json} (h : KeysDistinctItems items) {item : Json}
    (hmem : item ∈ items) : item.KeysDistinct := by
  induction items with
  | nil => cases hmem
  | cons first rest ih =>
      rcases List.mem_cons.mp hmem with rfl | hrest
      · exact h.1
      · exact ih h.2 hrest

theorem KeysDistinctFields.of_mem {fields : List (Text × Json)} (h : KeysDistinctFields fields)
    {field : Text × Json} (hmem : field ∈ fields) : field.2.KeysDistinct := by
  induction fields with
  | nil => cases hmem
  | cons first rest ih =>
      obtain ⟨key, value⟩ := first
      rcases List.mem_cons.mp hmem with rfl | hrest
      · exact h.1
      · exact ih h.2 hrest

namespace HasPart

variable {value part : Json} {location : Location}

theorem keysDistinct (h : value.HasPart location part) (hkeys : value.KeysDistinct) :
    part.KeysDistinct := by
  cases h with
  | item hitem => exact KeysDistinctItems.of_mem hkeys (List.mem_of_getElem? hitem)
  | field hfield => exact KeysDistinctFields.of_mem hkeys.2 hfield

theorem child?_eq (h : value.HasPart location part) (hkeys : value.KeysDistinct) :
    value.child? location = some part := by
  cases h with
  | item hitem =>
      simp only [child?, item?, items]
      rw [if_neg (by omega), if_neg (by omega), Int.toNat_natCast]
      exact hitem
  | field hfield => exact Assoc.lookup_of_mem hkeys.1 hfield

/-- A part is less deep than the whole. -/
theorem depth_lt (h : value.HasPart location part) : part.depth < value.depth := by
  cases h with
  | item hitem => exact Nat.lt_succ_of_le (depth_le_depthItems (List.mem_of_getElem? hitem))
  | field hfield => exact Nat.lt_succ_of_le (depth_le_depthFields hfield)

/-- The integers of a part can be written where those of the whole can. -/
theorem isShort (h : value.HasPart location part) (hshort : value.IsShort) : part.IsShort := by
  cases h with
  | item hitem => exact isShort_array.mp hshort _ (List.mem_of_getElem? hitem)
  | field hfield => exact isShort_object.mp hshort _ hfield

end HasPart

end Json

/-! ## Specifications of parts -/

/-- The specification by which a schema decodes the part at a location. -/
inductive Schema.Inner : Schema → Location → Spec → Prop where
  | field {description : Text} {fields : List Field} {assemble : Rule} {field : Field}
      (h : field ∈ fields) :
      Inner (.object description fields assemble) (.key field.key) field.spec
  | item {description : Text} {element : Spec} {assemble : Rule} {index : Nat} :
      Inner (.array description element assemble) (.index index) element

/-- The specification by which the part at a location is decoded when the whole is decoded by a
specification. Unions have none: no failure inside an alternative is reported. -/
inductive Spec.Inner (registry : Registry) : Spec → Location → Spec → Prop where
  | any {location : Location} : Inner registry .any location .any
  | bareArray {index : Nat} : Inner registry .bareArray (.index index) .any
  | bareObject {key : Text} : Inner registry .bareObject (.key key) .any
  | arrayOf {element : Spec} {index : Nat} :
      Inner registry (.arrayOf element) (.index index) element
  | objectOf {content : Spec} {key : Text} : Inner registry (.objectOf content) (.key key) content
  | mapOf {content : Spec} {key : Text} :
      Inner registry (.mapOf .string content) (.key key) content
  | setOf {element : Spec} {index : Nat} : Inner registry (.setOf element) (.index index) element
  | tupleOf {specs : List Spec} {index : Nat} {spec : Spec} (h : specs[index]? = some spec) :
      Inner registry (.tupleOf specs) (.index index) spec
  | custom {identity : Spec} {arguments : List Spec} {factory : Factory} {schema : Schema}
      {location : Location} {spec : Spec} (hresolve : registry.resolve identity = some factory)
      (hcall : factory.call arguments = .ok schema) (h : schema.Inner location spec) :
      Inner registry (.custom identity arguments) location spec

/-- Decoding a value by a specification comes, along a path, to a part and its specification. -/
inductive Reaches (registry : Registry) : Spec → Json → List Location → Spec → Json → Prop where
  | here {spec : Spec} {value : Json} : Reaches registry spec value [] spec value
  | inside {spec inner last : Spec} {value part found : Json} {location : Location}
      {path : List Location} (hspec : spec.Inner registry location inner)
      (hpart : value.HasPart location part) (hrest : Reaches registry inner part path last found) :
      Reaches registry spec value (location :: path) last found

/-- What is reached is the part at the end of the path. -/
theorem Reaches.follow?_eq {registry : Registry} {spec last : Spec} {value part : Json}
    {path : List Location} (h : Reaches registry spec value path last part)
    (hkeys : value.KeysDistinct) : value.follow? path = some part := by
  induction h with
  | here => rfl
  | inside _ hpart _ ih =>
      simp only [Json.follow?, hpart.child?_eq hkeys, Option.bind_some]
      exact ih (hpart.keysDistinct hkeys)

/-- The integers of what is reached can be written where those of the whole can. -/
theorem Reaches.isShort {registry : Registry} {spec last : Spec} {value part : Json}
    {path : List Location} (h : Reaches registry spec value path last part)
    (hshort : value.IsShort) : part.IsShort := by
  induction h with
  | here => exact hshort
  | inside _ hpart _ ih => exact ih (hpart.isShort hshort)

end JsonDecoding
