import JsonDecoding.Proofs.Arrivals
import JsonDecoding.Proofs.Coercions
import JsonDecoding.Proofs.Collecting

/-!
# Array schemas

A schema of arrays and the specification of arrays of the same element are one decoder. Both take
the items in order and stop at the first that stops; the schema hands what it has decoded to its
rule, and puts its own name on failures (`Counterpart`). So whatever identity the schema is found
under, and whatever the element refers to, the identity itself included, one of the two may stand
for the other as long as the rule complains about nothing (`array_schemas_decode_as_arrays`). Only
where the element cannot be described the two part: the schema has a name to put on a failure, the
specification has none.
-/

namespace JsonDecoding

open Attempt Decoder

/-! ## How the two compare -/

/-- Why a schema of arrays fails on a value, before its name is put on the failure: an item has failed,
or the value is no array. -/
inductive Declines (description : Text) (value : Json) : DecodeError → Prop where
  | item {items : List Json} {index : Nat} {item : Json} {cause : Cause} {name : Text}
      {deeper : List Frame} (hvalue : value = .array items) (hitem : items[index]? = some item) :
      Declines description value ⟨cause, ⟨name, item.seen, some (.index index)⟩ :: deeper⟩
  | kind (h : value.tag ≠ .array) :
      Declines description value (.ofCause (.typeMismatch description value.tag.name value))

/-- How decoding a value by a schema of arrays ends, beside decoding it by the specification of
arrays of the same element: the rule is asked about the items, and the outermost frame has the name
of the schema. A failure that the specification has no name for is a fault there. -/
inductive Counterpart (room : Nat) (description : Text) (element : Spec) (assemble : Rule)
    (value : Json) : Except Stop Data → Except Stop Data → Prop where
  | decoded {items : List Json} {data : List Data} {built : Data} (hvalue : value = .array items)
      (hbuilt : assemble (.list data) = .ok built) :
      Counterpart room description element assemble value (.ok built) (.ok (.list data))
  | failed {items : List Json} {index : Nat} {item : Json} {cause : Cause} {name : Text}
      {deeper : List Frame} (helement : element.HasDescription) (hvalue : value = .array items)
      (hitem : items[index]? = some item) :
      Counterpart room description element assemble value
        (.error (.failed ⟨cause, ⟨description, value.seen, none⟩ ::
          ⟨name, item.seen, some (.index index)⟩ :: deeper⟩))
        (.error (.failed ⟨cause, ⟨(Spec.arrayOf element).describe, value.seen, none⟩ ::
          ⟨name, item.seen, some (.index index)⟩ :: deeper⟩))
  | mismatched (helement : element.HasDescription) (h : value.tag ≠ .array) :
      Counterpart room description element assemble value
        (.error (.failed ⟨.typeMismatch description value.tag.name value,
          [⟨description, value.seen, none⟩]⟩))
        (.error (.failed ⟨.typeMismatch (Text.lit "array") value.tag.name value,
          [⟨(Spec.arrayOf element).describe, value.seen, none⟩]⟩))
  | faulted {items : List Json} {fault : Fault} (hvalue : value = .array items) :
      Counterpart room description element assemble value (.error (.faulted fault))
        (.error (.faulted fault))
  | exhausted :
      Counterpart room description element assemble value (.error .exhausted) (.error .exhausted)
  | unshown {stop : Stop} (helement : element.HasDescription)
      (h : unshown? room value = some stop) :
      Counterpart room description element assemble value (.error stop) (.error stop)
  | unnamed {flaw : Spec.Flaw} {e : DecodeError} (hflaw : element.flaw? = some flaw)
      (h : Declines description value e) :
      Counterpart room description element assemble value
        (.error (shownAs room description value e)) (.error (.faulted (.ofFlaw flaw)))

variable {registry : Registry} {description : Text} {element : Spec} {assemble : Rule}
  {schema : Schema} {spec : Spec}

/-! ## Items -/

/-- The schema of arrays of a specification has just this element. -/
theorem Schema.eq_of_ofElement (helement : Schema.specOf element = .ok element)
    (h : Schema.ofElement description element assemble = .ok schema) :
    schema = .array description element assemble := by
  obtain ⟨spec, hspec, rfl⟩ := Outcomes.map_ok.mp h
  cases helement.symm.trans hspec
  rfl

/-- Items that fail do so at one of them, whose own frame then has its index. -/
theorem exists_item_of_failed {room : Nat} {items : List Json} {e : DecodeError}
    (h : (elements (decode registry room element) 0 items).result = .error (.failed e)) :
    ∃ (index : Nat) (item : Json) (name : Text) (deeper : List Frame), items[index]? = some item ∧
      e = ⟨e.cause, ⟨name, item.seen, some (.index index)⟩ :: deeper⟩ := by
  obtain ⟨index, item, deeper, hitem, hfailed, rfl⟩ := elements_failed h
  obtain ⟨inner, name, -, -, rfl⟩ := within_of_failed hfailed
  exact ⟨index, item, name, inner.frames, hitem, rfl⟩

/-- **On an array** the schema and the specification stop at the same item in the same way, or the
rule is asked about what the specification gives. -/
theorem counterpart_of_array (hassemble : ∀ data, ∃ built, assemble (.list data) = .ok built)
    (room : Nat) (items : List Json) :
    let decoded := elements (decode registry room element) 0 items
    Counterpart room description element assemble (.array items)
      ((decoded.bind fun data => .ofRule description (.array items) (assemble (.list data))).framed
        room description (.array items)).result
      ((decoded.map .list).framedBy room (.arrayOf element) (.array items)).result := by
  intro decoded
  simp only [framed, framedBy, result_mapStop, result_bind, result_map]
  cases hdecoded : decoded.result with
  | ok data =>
      obtain ⟨built, hbuilt⟩ := hassemble data
      simp only [Except.bind, ofRule_ok.mpr hbuilt]
      exact .decoded rfl hbuilt
  | error stop =>
      -- nothing but the two frames looks at a stop among the items
      cases stop with
      | faulted => exact .faulted rfl
      | exhausted => exact .exhausted
      | failed e =>
          have hflaw : (Spec.arrayOf element).flaw? = element.flaw? := rfl
          simp only [Except.bind, Except.map, Except.mapError, hflaw]
          obtain ⟨index, item, name, deeper, hitem, he⟩ := exists_item_of_failed hdecoded
          rw [he]
          cases helement : element.flaw? with
          | some flaw => exact .unnamed helement (.item rfl hitem)
          | none =>
              simp only [shownAs]
              cases hunshown : unshown? room (.array items) with
              | none => exact .failed helement rfl hitem
              | some stop => exact .unshown helement hunshown

/-- On any other value both are refused for its kind. -/
theorem counterpart_of_other {value : Json} (h : value.tag ≠ .array) (room : Nat) :
    Counterpart room description element assemble value
      ((mismatch description value).framed room description value).result
      ((mismatch (Text.lit "array") value).framedBy room (.arrayOf element) value).result := by
  have hflaw : (Spec.arrayOf element).flaw? = element.flaw? := rfl
  simp only [mismatch, refuse, stopped, framed, framedBy, mapStop, Except.mapError, hflaw]
  cases helement : element.flaw? with
  | some flaw => exact .unnamed helement (.kind h)
  | none =>
      simp only [shownAs]
      cases hunshown : unshown? room value with
      | none => exact .mismatched helement h
      | some stop => exact .unshown helement hunshown

/-- Handing what was decoded to a rule that complains about nothing leaves no records. -/
theorem log_bind_ofRule (hassemble : ∀ data, ∃ built, assemble (.list data) = .ok built)
    (t : Attempt (List Data)) (value : Json) :
    (t.bind fun data => .ofRule description value (assemble (.list data))).log = t.log := by
  obtain ⟨log, result⟩ := t
  cases result with
  | error stop => rfl
  | ok data =>
      obtain ⟨built, hbuilt⟩ := hassemble data
      simp [Attempt.bind, hbuilt, ofRule, done]

/-! ## The two decoders -/

/-- **Array schemas decode as arrays.** A custom specification that is decoded by the schema of
arrays of an element leaves the records that the specification of arrays of this element leaves,
and ends as its counterpart: in what the rule makes of the same items, in the same failure of the
same item under another name, in the same fault, or, where the value is no array, in refusals that
differ in what is expected. In particular it gives data exactly when the other does. The one
exception is an element that cannot be described: then what is a failure of the schema is a fault of
the specification. -/
theorem array_schemas_decode_as_arrays
    (hschema : Schema.ofElement description element assemble = .ok schema)
    (helement : Schema.specOf element = .ok element) (hspec : spec.DecodedBy registry schema)
    (hassemble : ∀ data, ∃ built, assemble (.list data) = .ok built) (room : Nat) (value : Json) :
    (decode registry room spec value).log =
      (decode registry room (.arrayOf element) value).log ∧
    Counterpart (room - 1) description element assemble value
      (decode registry room spec value).result
      (decode registry room (.arrayOf element) value).result ∧
    ∀ built, (decode registry room spec value).result = .ok built ↔
      ∃ data, (decode registry room (.arrayOf element) value).result = .ok (.list data) ∧
        assemble (.list data) = .ok built := by
  have hcounterpart : (decode registry room spec value).log =
        (decode registry room (.arrayOf element) value).log ∧
      Counterpart (room - 1) description element assemble value
        (decode registry room spec value).result
        (decode registry room (.arrayOf element) value).result := by
    obtain rfl := Schema.eq_of_ofElement helement hschema
    cases room with
    | zero => exact ⟨rfl, .exhausted⟩
    | succ room =>
        have hplain : decode registry (room + 1) (.arrayOf element) value =
            (matching (decode registry room) (.arrayOf element) value).framedBy room
              (.arrayOf element) value := rfl
        rw [decode_of_schema hspec, hplain, Nat.add_sub_cancel]
        cases value with
        | array items =>
            exact ⟨log_bind_ofRule hassemble _ _, counterpart_of_array hassemble room items⟩
        | _ => exact ⟨rfl, counterpart_of_other (by simp [Json.tag]) room⟩
  obtain ⟨hlog, hresults⟩ := hcounterpart
  refine ⟨hlog, hresults, fun built => ?_⟩
  generalize (decode registry room spec value).result = schematic at hresults
  generalize (decode registry room (.arrayOf element) value).result = plain at hresults
  cases hresults with
  | @decoded _ data _ _ hbuilt =>
      constructor
      · rintro ⟨⟩
        exact ⟨data, rfl, hbuilt⟩
      · rintro ⟨_, ⟨⟩, hother⟩
        cases hbuilt.symm.trans hother
        rfl
  | failed | mismatched | faulted | exhausted | unshown | unnamed => simp

/-- Boxes of numbers and of boxes of numbers: the element of a box refers to boxes. -/
theorem array_schemas_decode_as_arrays_for_boxes :
    let box : Spec := .symbol (Text.lit "Box") []
    let number : Spec := .primitive .number
    let element : Spec := .anyOf [number, .custom box [number]]
    let assemble : Rule := fun data => .ok (.labelled none (Text.lit "Box") data)
    let build : List Spec → Except Fault Schema := fun arguments =>
      Schema.ofElement (Text.lit "Box") (arguments.headD .any) assemble
    let registry : Registry := ⟨[(box, ⟨build, 1, [], Text.lit "Box"⟩)]⟩
    let value : Json := .array [.number (.int 1), .array [.number (.int 2)]]
    let items : List Data := [.int 1, .labelled none (Text.lit "Box") (.list [.int 2])]
    (decode registry 5 (.arrayOf element) value).result = .ok (.list items) ∧
      (decode registry 5 (.custom box [element]) value).result =
        .ok (.labelled none (Text.lit "Box") (.list items)) := by
  intro box number element assemble build registry value items
  have hspec : (Spec.custom box [element]).DecodedBy registry
      (.array (Text.lit "Box") element assemble) := ⟨_, _, _, rfl, rfl, rfl⟩
  have helement : Schema.specOf element = .ok element := rfl
  have hschema : Schema.ofElement (Text.lit "Box") element assemble =
      .ok (.array (Text.lit "Box") element assemble) := rfl
  obtain ⟨-, -, hiff⟩ := array_schemas_decode_as_arrays hschema helement hspec
    (fun data => ⟨_, rfl⟩) 5 value
  have hplain : (decode registry 5 (.arrayOf element) value).result = .ok (.list items) := rfl
  exact ⟨hplain, (hiff _).mpr ⟨items, hplain, rfl⟩⟩

/-- Boxes of a kind whose name shows too great an integer: a number is refused as a box, but not as an
array of that kind. -/
theorem arrays_of_unnamed_are_not_refused : ∃ great : Nat, great = 10 ^ Text.digitLimit ∧
    let box : Spec := .symbol (Text.lit "Box") []
    let element : Spec := .custom (.token (.int great)) []
    let build : List Spec → Except Fault Schema := fun arguments =>
      Schema.ofElement (Text.lit "Box") (arguments.headD .any) .ok
    let registry : Registry := ⟨[(box, ⟨build, 1, [], Text.lit "Box"⟩)]⟩
    let value : Json := .number (.int 1)
    (decode registry 5 (.custom box [element]) value).result =
        .error (.failed ⟨.typeMismatch (Text.lit "Box") (Text.lit "number") value,
          [⟨Text.lit "Box", value.seen, none⟩]⟩) ∧
      (decode registry 5 (.arrayOf element) value).result = .error (.faulted .overlong) := by
  obtain ⟨great, hgreat⟩ : ∃ great : Nat, great = 10 ^ Text.digitLimit := ⟨_, rfl⟩
  refine ⟨great, hgreat, ?_⟩
  intro box element build registry value
  have hflaw : (Spec.arrayOf element).flaw? = some .overlong := by
    have hlong := Text.isOverlong_of_eq hgreat
    simp [element, Spec.flaw?, Spec.isNameable, Spec.isOverlong, Data.isOverlong, hlong]
  refine ⟨rfl, ?_⟩
  have hplain : decode registry 5 (.arrayOf element) value =
      (mismatch (Text.lit "array") value).framedBy 4 (.arrayOf element) value := rfl
  rw [hplain, framedBy, hflaw]
  rfl

end JsonDecoding
