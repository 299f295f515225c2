import JsonDecoding.Proofs.Containers

/-!
# Courses

How a decoding proceeds, apart from what the decodings inside it give: it ends at once, it decodes
parts of the value in order, it tries alternatives on the value, it hands the value on, or it goes
through the procedure of a handler (`Course`). To decode is to follow the course with decodings that
have room for one less, and to name the value in a failure (`decode_eq_follow`). Which courses there
are, and how those end that decode nothing inside, is listed once (`isCourse`), so what holds of each
of them holds of decoding.
-/

namespace JsonDecoding

open Attempt Decoder

/-- A part of a value at its location, with the specification that it is decoded by. -/
structure Part where
  location : Location
  spec : Spec
  value : Json

/-- How a decoding proceeds. Where it ends at once, its outcome may depend on the room that is left;
where it decodes parts, the data of all of them decides how it ends. -/
inductive Course where
  | settled (outcome : Nat → Attempt Data)
  | parts (parts : List Part) (finish : List Data → Attempt Data)
  | alternatives (whole : Spec) (specs : List Spec)
  | delegated (spec : Spec) (build : Data → Data)
  | scripted (procedure : Procedure)

namespace Part

/-- The items of an array, each by one specification. -/
def ofItems (element : Spec) (items : List Json) : List Part :=
  items.zipIdx.map fun item => ⟨.index item.2, element, item.1⟩

/-- The values of fields, each by one specification. -/
def ofFields (content : Spec) (fields : List (Text × Json)) : List Part :=
  fields.map fun field => ⟨.key field.1, content, field.2⟩

/-- The items of an array by the specifications at their positions. -/
def ofPositions (specs : List Spec) (items : List Json) : List Part :=
  (specs.zip items).zipIdx.map fun part => ⟨.index part.2, part.1.1, part.1.2⟩

/-- The declared fields that an object has, in declared order. -/
def ofDeclared (fields : List Field) (content : List (Text × Json)) : List Part :=
  (present content fields).map fun part => ⟨.key part.1.key, part.1.spec, part.2⟩

/-- The attempt at a part. -/
def attempt (step : Spec → Json → Attempt Data) (part : Part) : Location × Attempt Data :=
  (part.location, step part.spec part.value)

end Part

namespace Course

/-- The dictionary of data under keys, one key for each datum. -/
def dict (keys : List Text) (data : List Data) : Data :=
  .dict (keys.zipWith (fun key d => (.str key, d)) data)

/-- A way to decode for courses that end at once, which never use it. -/
def idle : Spec → Json → Attempt Data := fun _ _ => .stopped .exhausted

/-- The course of items that become a list. -/
def ofItems (element : Spec) (items : List Json) : Course :=
  .parts (Part.ofItems element items) fun data => .done (.list data)

/-- The course of fields that become a dictionary. -/
def ofFields (content : Spec) (fields : List (Text × Json)) : Course :=
  .parts (Part.ofFields content fields) fun data => .done (dict (Assoc.keys fields) data)

/-- The course of a specification that refers to no schema. -/
def ofSpec (spec : Spec) (value : Json) : Course :=
  match spec, value with
  | .primitive .any, .array items => ofItems .any items
  | .primitive .any, .object fields => ofFields .any fields
  | .arrayOf element, .array items => ofItems element items
  | .objectOf content, .object fields => ofFields content fields
  | .mapOf key content, .object fields =>
      if key.isString then ofFields content fields
      else .settled fun _ => .refuse (.unknownSpec key)
  | .setOf element, .array items =>
      .parts (Part.ofItems element items) (setOf (.setOf element) (.array items))
  | .tupleOf specs, .array items =>
      if items.length = specs.length then
        .parts (Part.ofPositions specs items) fun data => .done (.tuple data)
      else .settled fun _ => tupleOf idle specs (.array items)
  | .anyOf specs, _ => .alternatives (.anyOf specs) specs
  | spec, value => .settled fun _ => matching idle spec value

/-- The course of a schema. -/
def ofSchema (schema : Schema) (value : Json) : Course :=
  match schema, value with
  | .object description fields assemble, .object content =>
      if missingKeys fields content = [] ∧ unknownKeys fields content = [] then
        .parts (Part.ofDeclared fields content) fun data =>
          .ofRule description (.object content)
            (assemble (dict ((present content fields).map fun part => part.1.key) data))
      else .settled fun _ => object idle description fields assemble content
  | .array description element assemble, .array items =>
      .parts (Part.ofItems element items) fun data =>
        .ofRule description (.array items) (assemble (.list data))
  | .raw description shape (.delegate hint label), value =>
      if shape.all (· = value.tag) then
        match Schema.specOf hint with
        | .ok spec => .delegated spec (label.elim id (Data.labelled none))
        | .error fault => .settled fun _ => .fault fault
      else .settled fun _ => mismatch description value
  | .raw description shape (.script act), value =>
      if shape.all (· = value.tag) then .scripted (act value)
      else .settled fun _ => mismatch description value
  | schema, value => .settled fun room => bySchema .empty idle room schema value

/-- The outcome of a course with a way to decode what it leads to, and the room left for that. -/
def follow (registry : Registry) (step : Spec → Json → Attempt Data) (room : Nat) (value : Json) :
    Course → Attempt Data
  | .settled outcome => outcome room
  | .parts members finish => (inOrder (members.map (Part.attempt step))).bind finish
  | .alternatives whole specs => firstOf step whole value specs
  | .delegated spec build => (step spec value).map build
  | .scripted procedure => run registry step room procedure

end Course

/-- The course of decoding a value by a specification. -/
def course (registry : Registry) (spec : Spec) (value : Json) : Course :=
  match spec.desugar with
  | .custom identity arguments =>
      match registry.resolve identity with
      | none => .settled fun _ => .refuse (.unknownSpec (.custom identity arguments))
      | some factory =>
          match factory.call arguments with
          | .ok schema => .ofSchema schema value
          | .error fault => .settled fun _ => .fault fault
  | spec => .ofSpec spec value

/-- What a failure is headed by: the description of a specification, or the flaw that is in the way
of it. -/
def Spec.heading (spec : Spec) : Except Spec.Flaw Text :=
  match spec.flaw? with
  | none => .ok spec.describe
  | some flaw => .error flaw

/-- What the failures of a decoding are headed by: the name of the schema, where there is one. -/
def heading (registry : Registry) (spec : Spec) : Except Spec.Flaw Text :=
  match spec.desugar with
  | .custom identity arguments =>
      match registry.resolve identity with
      | none => (Spec.custom identity arguments).heading
      | some factory => .ok (((factory.call arguments).map Schema.description).toOption.getD [])
  | spec => spec.heading

/-- The attempt on a value that was being read under a heading. -/
def Attempt.headed (room : Nat) (heading : Except Spec.Flaw Text) (value : Json)
    (t : Attempt Data) : Attempt Data :=
  match heading with
  | .ok description => t.framed room description value
  | .error flaw => t.mapStop fun
      | .failed _ => .faulted (.ofFlaw flaw)
      | stop => stop

/-! ## The courses that there are -/

namespace Course

/-- How a specification ends on a value without a decoding inside: it takes a scalar, refuses the
value for its kind or length, does not know the keys of a map, or is none. -/
inductive EndOfSpec (spec : Spec) (value : Json) : Attempt Data → Prop where
  | scalar {data : Data} : value.scalar? = some data → EndOfSpec spec value (.done data)
  | kind (kind : Primitive) : EndOfSpec spec value (mismatch kind.name value)
  | array : EndOfSpec spec value (mismatch (Text.lit "array") value)
  | object : EndOfSpec spec value (mismatch (Text.lit "object") value)
  | tuple (length : Nat) :
      EndOfSpec spec value (mismatch (Text.lit "tuple of length " ++ Text.ofNat length) value)
  | length (expected actual : Nat) :
      EndOfSpec spec value (.refuse (.typeMismatch
        (Text.lit "tuple of length " ++ Text.ofNat expected)
        (Text.lit "array of length " ++ Text.ofNat actual) value))
  | key {key content : Spec} : spec = .mapOf key content → key.isString = false →
      EndOfSpec spec value (.refuse (.unknownSpec key))
  | stray : (spec.desugar = spec → spec.WellFormed → spec.IsCustom) →
      EndOfSpec spec value (.fault (.notASpecification spec))

/-- The courses of a specification that refers to no schema. -/
inductive IsOfSpec (spec : Spec) (value : Json) : Course → Prop where
  | items {element : Spec} {items : List Json} : element ∈ spec.contents → value = .array items →
      IsOfSpec spec value (ofItems element items)
  | fields {content : Spec} {fields : List (Text × Json)} : content ∈ spec.contents →
      value = .object fields → IsOfSpec spec value (ofFields content fields)
  | distinct {element : Spec} {items : List Json} : spec = .setOf element → value = .array items →
      IsOfSpec spec value (.parts (Part.ofItems element items) (setOf spec value))
  | positions {specs : List Spec} {items : List Json} : spec = .tupleOf specs →
      value = .array items →
      IsOfSpec spec value (.parts (Part.ofPositions specs items) fun data => .done (.tuple data))
  | alternatives {specs : List Spec} : spec = .anyOf specs →
      IsOfSpec spec value (.alternatives spec specs)
  | settled {outcome : Nat → Attempt Data} : (∀ room, EndOfSpec spec value (outcome room)) →
      IsOfSpec spec value (.settled outcome)

/-- How a schema ends on a value without a decoding inside: it converts a scalar, refuses the value
for its kind or its keys, or its handler goes by an annotation that is no specification. -/
inductive EndOfSchema (schema : Schema) (value : Json) : Attempt Data → Prop where
  | scalar {description : Text} {shape : Tag} {convert : Rule} {data : Data} :
      schema = .scalar description shape convert → value.scalar? = some data → value.tag = shape →
      EndOfSchema schema value (.ofRule description value (convert data))
  | kind : EndOfSchema schema value (mismatch schema.description value)
  | missing {description : Text} {fields : List Field} {assemble : Rule}
      {content : List (Text × Json)} : schema = .object description fields assemble →
      EndOfSchema schema value (.refuse (.missingKeys (missingKeys fields content)))
  | unknown {fields : List Field} {content : List (Text × Json)} :
      EndOfSchema schema value (.refuse (.unknownKeys (unknownKeys fields content)))
  | stray {description : Text} {shape : Option Tag} {hint : Spec} {label : Option Text}
      {fault : Fault} : schema = .raw description shape (.delegate hint label) →
      shape.all (· = value.tag) = true → Schema.specOf hint = .error fault →
      EndOfSchema schema value (.fault fault)

/-- The courses of a schema. -/
inductive IsOfSchema (schema : Schema) (value : Json) : Course → Prop where
  | object {description : Text} {fields : List Field} {assemble : Rule}
      {content : List (Text × Json)} : schema = .object description fields assemble →
      value = .object content → missingKeys fields content = [] → unknownKeys fields content = [] →
      IsOfSchema schema value (.parts (Part.ofDeclared fields content) fun data =>
        .ofRule description value
          (assemble (dict ((present content fields).map fun part => part.1.key) data)))
  | array {description : Text} {element : Spec} {assemble : Rule} {items : List Json} :
      schema = .array description element assemble → value = .array items →
      IsOfSchema schema value (.parts (Part.ofItems element items) fun data =>
        .ofRule description value (assemble (.list data)))
  | delegated {description : Text} {shape : Option Tag} {hint spec : Spec} {label : Option Text} :
      schema = .raw description shape (.delegate hint label) →
      shape.all (· = value.tag) = true → Schema.specOf hint = .ok spec →
      IsOfSchema schema value (.delegated spec (label.elim id (Data.labelled none)))
  | scripted {description : Text} {shape : Option Tag} {act : Json → Procedure} :
      schema = .raw description shape (.script act) → shape.all (· = value.tag) = true →
      IsOfSchema schema value (.scripted (act value))
  | settled {outcome : Nat → Attempt Data} : (∀ room, EndOfSchema schema value (outcome room)) →
      IsOfSchema schema value (.settled outcome)

theorem isOfSpec (spec : Spec) (value : Json) : IsOfSpec spec value (ofSpec spec value) := by
  unfold ofSpec
  split
  · exact .items (List.mem_singleton_self _) rfl
  · exact .fields (List.mem_singleton_self _) rfl
  · exact .items (List.mem_singleton_self _) rfl
  · exact .fields (List.mem_singleton_self _) rfl
  · split
    · exact .fields (List.mem_singleton_self _) rfl
    · next hkey => exact .settled fun _ => .key rfl (Bool.eq_false_iff.mpr hkey)
  · exact .distinct rfl rfl
  · split
    · exact .positions rfl rfl
    · next hlength =>
        simp only [tupleOf, if_neg hlength]
        exact .settled fun _ => .length _ _
  · exact .alternatives rfl
  · -- what is left decodes nothing else
    refine .settled fun _ => ?_
    cases spec with
    | primitive kind =>
        cases kind <;> cases value <;> first | exact .kind _ | exact .scalar rfl | simp_all
    | arrayOf | setOf => cases value <;> first | exact .array | simp_all
    | objectOf => cases value <;> first | exact .object | simp_all
    | tupleOf specs => cases value <;> first | exact .tuple _ | simp_all
    | mapOf key content =>
        simp only [matching]
        split
        · cases value <;> first | exact .object | simp_all
        · next hkey => exact .key rfl (Bool.eq_false_iff.mpr hkey)
    | anyOf => simp_all
    | custom => exact .stray fun _ _ => trivial
    | bareArray | bareObject => exact .stray fun hplain => by cases hplain
    | _ => exact .stray fun _ hwell => by cases hwell

theorem isOfSchema (schema : Schema) (value : Json) :
    IsOfSchema schema value (ofSchema schema value) := by
  unfold ofSchema
  split
  · split
    · next hkeys => exact .object rfl rfl hkeys.1 hkeys.2
    · next hkeys =>
        simp only [object_eq]
        refine .settled fun _ => ?_
        split
        · exact .missing rfl
        · split
          · exact .unknown
          · simp_all
  · exact .array rfl rfl
  · split
    · next hshape =>
        split
        · next hhint => exact .delegated rfl hshape hhint
        · next hhint => exact .settled fun _ => .stray rfl hshape hhint
    · exact .settled fun _ => .kind
  · split
    · next hshape => exact .scripted rfl hshape
    · exact .settled fun _ => .kind
  · refine .settled fun _ => ?_
    cases schema with
    | object | array => cases value <;> first | exact .kind | grind
    | scalar description shape convert =>
        simp only [bySchema]
        split
        · next hdata =>
            split
            · next hshape => exact .scalar rfl hdata hshape
            · exact .kind
        · exact .kind
    | raw description shape handler => cases handler <;> grind

end Course

/-- The courses of decoding a value by a specification. -/
inductive IsCourse (registry : Registry) (spec : Spec) (value : Json) : Course → Prop where
  | unregistered {identity : Spec} {arguments : List Spec} : spec = .custom identity arguments →
      registry.resolve identity = none →
      IsCourse registry spec value (.settled fun _ => .refuse (.unknownSpec spec))
  | failed {identity : Spec} {arguments : List Spec} {factory : Factory} {fault : Fault} :
      spec = .custom identity arguments → registry.resolve identity = some factory →
      factory.call arguments = .error fault →
      IsCourse registry spec value (.settled fun _ => .fault fault)
  | schema {identity : Spec} {arguments : List Spec} {factory : Factory} {schema : Schema}
      {c : Course} : spec = .custom identity arguments → registry.resolve identity = some factory →
      factory.call arguments = .ok schema → Course.IsOfSchema schema value c →
      IsCourse registry spec value c
  | plain {c : Course} : ¬spec.desugar.IsCustom → Course.IsOfSpec spec.desugar value c →
      IsCourse registry spec value c

theorem isCourse (registry : Registry) (spec : Spec) (value : Json) :
    IsCourse registry spec value (course registry spec value) := by
  unfold course
  split
  · next identity arguments hcustom =>
      -- only bare containers are not what they stand for
      obtain rfl : spec = .custom identity arguments := by cases spec <;> simp_all [Spec.desugar]
      split
      · next hresolve => exact .unregistered rfl hresolve
      · next factory hresolve =>
          split
          · next schema hcall => exact .schema rfl hresolve hcall (Course.isOfSchema schema value)
          · next fault hcall => exact .failed rfl hresolve hcall
  · next hcustom =>
      refine .plain (fun h => ?_) (Course.isOfSpec spec.desugar value)
      cases hdesugared : spec.desugar <;> simp_all [Spec.IsCustom]

/-! ## Courses of containers -/

namespace Attempt

variable {α β ι : Type}

/-- What is made of the results of parts one by one can be made of them all together. -/
theorem inOrder_map (parts : List ι) (location : ι → Location) (attempt : ι → Attempt α)
    (build : ι → α → β) :
    inOrder (parts.map fun part => (location part, (attempt part).map (build part))) =
      (inOrder (parts.map fun part => (location part, attempt part))).map
        (parts.zipWith build) := by
  induction parts with
  | nil => rfl
  | cons part rest ih =>
      simp only [List.map_cons, inOrder, ih, map_located, bind_map]
      generalize (attempt part).located _ = t
      obtain ⟨log, result⟩ := t
      cases result with
      | error stop => rfl
      | ok a =>
          generalize inOrder (rest.map fun part => (location part, attempt part)) = u
          obtain ⟨more, others⟩ := u
          cases others <;> rfl

theorem framedBy_eq_headed (t : Attempt Data) (room : Nat) (spec : Spec) (value : Json) :
    t.framedBy room spec value = t.headed room spec.heading value := by
  cases hflaw : spec.flaw? with
  | none => simp only [framedBy, headed, framed, Spec.heading, hflaw]
  | some flaw =>
      obtain ⟨log, result⟩ := t
      rcases result with ⟨_ | _ | _⟩ | _ <;>
        simp [framedBy, headed, Spec.heading, hflaw, mapStop, Except.mapError]

/-- To go on with a success that is sure is to change the result. -/
theorem bind_done (t : Attempt α) (f : α → β) : (t.bind fun a => .done (f a)) = t.map f := by
  obtain ⟨log, result⟩ := t
  cases result <;> simp [Attempt.bind, Attempt.map, done, Except.map]

theorem map_map (t : Attempt α) (f : α → β) (g : β → ι) : (t.map f).map g = t.map (g ∘ f) := by
  obtain ⟨log, result⟩ := t
  cases result <;> rfl

end Attempt

namespace Decoder

variable (registry : Registry) (step : Spec → Json → Attempt Data)

theorem elements_eq_inOrder (element : Spec) (items : List Json) :
    elements (step element) 0 items =
      inOrder ((Part.ofItems element items).map (Part.attempt step)) := by
  rw [elements_eq, Part.ofItems, List.map_map]
  rfl

theorem positions_eq_inOrder (specs : List Spec) (items : List Json) :
    positions step 0 specs items =
      inOrder ((Part.ofPositions specs items).map (Part.attempt step)) := by
  rw [positions_eq, Part.ofPositions, List.map_map]
  rfl

theorem dict_comp_zipWith {α : Type} (key : α → Text) (as : List α) :
    Data.dict ∘ as.zipWith (fun a d => (.str (key a), d)) = Course.dict (as.map key) := by
  funext data
  simp only [Function.comp_apply, Course.dict, List.zipWith_map_left]

theorem entries_eq_inOrder (content : Spec) (fields : List (Text × Json)) :
    (entries (step content) fields).map .dict =
      (inOrder ((Part.ofFields content fields).map (Part.attempt step))).map
        (Course.dict (Assoc.keys fields)) := by
  rw [entries_eq, fieldParts, inOrder_map, map_map, Part.ofFields, List.map_map,
    dict_comp_zipWith fun field : Text × Json => field.1]
  rfl

theorem declared_eq_inOrder (fields : List Field) (content : List (Text × Json)) :
    (declared step content fields).map .dict =
      (inOrder ((Part.ofDeclared fields content).map (Part.attempt step))).map
        (Course.dict ((present content fields).map fun part => part.1.key)) := by
  rw [declared_eq, declaredParts, inOrder_map, map_map, Part.ofDeclared, List.map_map,
    dict_comp_zipWith fun part : Field × Json => part.1.key]
  rfl

/-! ## Following courses -/

theorem follow_ofItems (element : Spec) (items : List Json) (room : Nat) (value : Json) :
    (Course.ofItems element items).follow registry step room value =
      (elements (step element) 0 items).map .list := by
  rw [Course.ofItems, Course.follow, bind_done, elements_eq_inOrder]

theorem follow_ofFields (content : Spec) (fields : List (Text × Json)) (room : Nat)
    (value : Json) :
    (Course.ofFields content fields).follow registry step room value =
      (entries (step content) fields).map .dict := by
  rw [Course.ofFields, Course.follow, bind_done, entries_eq_inOrder]

/-- **What a specification does** with a value is to follow its course. -/
theorem matching_eq_follow (room : Nat) (spec : Spec) (value : Json) :
    matching step spec value = (Course.ofSpec spec value).follow registry step room value := by
  unfold Course.ofSpec
  split
  · rw [follow_ofItems]
    rfl
  · rw [follow_ofFields]
    rfl
  · rw [follow_ofItems]
    rfl
  · rw [follow_ofFields]
    rfl
  · simp only [matching]
    split
    · rw [follow_ofFields]
    · rfl
  · simp only [matching, Course.follow, elements_eq_inOrder]
  · simp only [matching, tupleOf]
    split
    · rw [Course.follow, bind_done, positions_eq_inOrder]
    · rfl
  · rfl
  · -- what is left decodes nothing else
    cases spec with
    | primitive kind =>
        cases kind with
        | any => cases value <;> simp_all [Course.follow, matching, scalar, tagOf?]
        | _ => rfl
    | arrayOf | objectOf | mapOf | setOf => cases value <;> simp_all [Course.follow, matching]
    | tupleOf => cases value <;> simp_all [Course.follow, matching, tupleOf]
    | anyOf => simp_all
    | _ => rfl

/-- What a schema does with a value is to follow its course. -/
theorem bySchema_eq_follow (room : Nat) (schema : Schema) (value : Json) :
    bySchema registry step room schema value =
      (Course.ofSchema schema value).follow registry step room value := by
  unfold Course.ofSchema
  split
  · next description fields assemble content =>
      by_cases hkeys : missingKeys fields content = [] ∧ unknownKeys fields content = []
      · rw [if_pos hkeys, Course.follow,
          ← bind_map _ _ fun data => ofRule description (.object content) (assemble data),
          ← declared_eq_inOrder, bind_map]
        simp [bySchema, object_eq, hkeys]
      · -- an object whose keys are not all right is not decoded any further
        simp only [bySchema, object_eq, if_neg hkeys, Course.follow]
        split
        · rfl
        · split
          · rfl
          · simp_all
  · simp only [bySchema, Course.follow, elements_eq_inOrder]
  · next description shape hint label =>
      simp only [bySchema, handled]
      split
      · cases Schema.specOf hint with
        | error fault => rfl
        | ok spec =>
            rw [Attempt.bind_of_ok (ofExcept_ok.mpr rfl)]
            cases label <;> rfl
      · rfl
  · simp only [bySchema, handled]
    split <;> rfl
  · cases schema with
    | object | array => cases value <;> first | rfl | grind
    | scalar => rfl
    | raw description shape handler => cases handler <;> grind

/-- **To decode is to follow a course** with decodings that have room for one less. -/
theorem decode_eq_follow (room : Nat) (spec : Spec) (value : Json) :
    decode registry (room + 1) spec value =
      ((course registry spec value).follow registry (decode registry room) room value).headed room
        (heading registry spec) value := by
  unfold decode course heading
  simp only
  generalize spec.desugar = desugared
  cases desugared with
  | custom identity arguments =>
      simp only [custom]
      cases registry.resolve identity with
      | none => rw [framedBy_eq_headed]; rfl
      | some factory =>
          cases hcall : factory.call arguments with
          | error fault =>
              simp only [hcall]
              rfl
          | ok schema =>
              simp only [hcall, ← bySchema_eq_follow]
              rfl
  | _ => simp only [framedBy_eq_headed, matching_eq_follow registry _ room]

end Decoder

end JsonDecoding
