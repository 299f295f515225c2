import JsonDecoding.Decoder
import JsonDecoding.Proofs.Outcomes

/-!
# Containers

A container is decoded part by part, in order, up to the first part that stops. `Attempt.inOrder`
is that rule for attempts at parts with their locations; items, fields, positions and declared keys
are its four uses (`elements_eq`, `entries_eq`, `positions_eq`, `declared_eq`), so what is proved
of it holds of each of them. An object schema looks at the keys before it looks at any value
(`object_eq`).
-/

namespace JsonDecoding

namespace Attempt

variable {α : Type}

/-! ## Attempts at parts -/

/-- Attempts at the parts of a container in order, up to the first that stops. -/
def inOrder : List (Location × Attempt α) → Attempt (List α)
  | [] => .done []
  | (location, t) :: rest =>
      (t.located location).bind fun a => (inOrder rest).map fun others => a :: others

/-- Parts succeed together exactly when each does. -/
theorem inOrder_ok {parts : List (Location × Attempt α)} {as : List α} :
    (inOrder parts).result = .ok as ↔
      List.Forall₂ (fun part a => part.2.result = .ok a) parts as := by
  induction parts generalizing as with
  | nil => simp [inOrder, done, eq_comm]
  | cons part rest ih =>
      obtain ⟨location, t⟩ := part
      simp only [inOrder, bind_ok, located_ok, map_ok, List.forall₂_cons_left_iff]
      constructor
      · rintro ⟨a, ha, others, hothers, rfl⟩
        exact ⟨a, others, ha, ih.mp hothers, rfl⟩
      · rintro ⟨a, others, ha, hothers, rfl⟩
        exact ⟨a, ha, others, ih.mpr hothers, rfl⟩

/-- **The first stop decides**: parts stop together exactly when one of them stops, all before it
having succeeded. -/
theorem inOrder_error {parts : List (Location × Attempt α)} {stop : Stop} :
    (inOrder parts).result = .error stop ↔
      ∃ before location t after, parts = before ++ (location, t) :: after ∧
        (∀ part ∈ before, ∃ a, part.2.result = .ok a) ∧
        (t.located location).result = .error stop := by
  induction parts with
  | nil => simp [inOrder, done]
  | cons part rest ih =>
      obtain ⟨location, t⟩ := part
      -- either the first part stops, or one after it does when it has succeeded
      simp only [inOrder, bind_error, map_error, located_ok, ih]
      constructor
      · rintro (h | ⟨a, ha, before, there, u, after, rfl, hbefore, hu⟩)
        · exact ⟨[], location, t, rest, rfl, by simp, h⟩
        · refine ⟨(location, t) :: before, there, u, after, rfl, ?_, hu⟩
          simpa using ⟨⟨a, ha⟩, fun l v hv => hbefore (l, v) hv⟩
      · rintro ⟨before, there, u, after, hparts, hbefore, hu⟩
        cases before with
        | nil =>
            cases hparts
            exact .inl hu
        | cons first before =>
            cases hparts
            obtain ⟨a, ha⟩ := hbefore (location, t) (by simp)
            exact .inr ⟨a, ha, before, there, u, after, rfl,
              fun part hpart => hbefore part (by simp [hpart]), hu⟩

/-- A failure of parts is the failure of one of them, seen from its parent. -/
theorem inOrder_failed {parts : List (Location × Attempt α)} {e : DecodeError}
    (h : (inOrder parts).result = .error (.failed e)) :
    ∃ location t inner, (location, t) ∈ parts ∧ t.result = .error (.failed inner) ∧
      e = inner.locatedAt location := by
  obtain ⟨before, location, t, after, rfl, -, hstop⟩ := inOrder_error.mp h
  obtain ⟨inner, hinner, he⟩ := located_failed.mp hstop
  exact ⟨location, t, inner, by simp, hinner, he⟩

end Attempt

/-! ## The four uses -/

namespace Decoder

/-- The attempts at items, the first of which stands at `index`. -/
def itemParts (step : Json → Attempt Data) (index : Nat) (items : List Json) :
    List (Location × Attempt Data) :=
  (items.zipIdx index).map fun item => (.index item.2, step item.1)

/-- The attempts at the values of fields, each with its key. -/
def fieldParts (step : Json → Attempt Data) (fields : List (Text × Json)) :
    List (Location × Attempt (Data × Data)) :=
  fields.map fun field => (.key field.1, (step field.2).map fun data => (.str field.1, data))

/-- The attempts at items by the specifications at their positions. -/
def positionParts (step : Spec → Json → Attempt Data) (index : Nat) (specs : List Spec)
    (items : List Json) : List (Location × Attempt Data) :=
  ((specs.zip items).zipIdx index).map fun part => (.index part.2, step part.1.1 part.1.2)

/-- The declared fields that an object has, each with its value, in declared order. -/
def present (object : List (Text × Json)) (fields : List Field) : List (Field × Json) :=
  fields.filterMap fun field => (object.lookup field.key).map fun item => (field, item)

/-- The attempts at the declared fields that an object has, each with its key. -/
def declaredParts (step : Spec → Json → Attempt Data) (object : List (Text × Json))
    (fields : List Field) : List (Location × Attempt (Data × Data)) :=
  (present object fields).map fun part =>
    (.key part.1.key, (step part.1.spec part.2).map fun data => (.str part.1.key, data))

theorem mem_present {object : List (Text × Json)} {fields : List Field} {part : Field × Json} :
    part ∈ present object fields ↔
      part.1 ∈ fields ∧ object.lookup part.1.key = some part.2 := by
  obtain ⟨field, item⟩ := part
  simp only [present, List.mem_filterMap, Option.map_eq_some_iff, Prod.mk.injEq]
  constructor
  · rintro ⟨_, hmem, _, hitem, rfl, rfl⟩
    exact ⟨hmem, hitem⟩
  · rintro ⟨hmem, hitem⟩
    exact ⟨field, hmem, item, hitem, rfl, rfl⟩

theorem elements_eq (step : Json → Attempt Data) (index : Nat) (items : List Json) :
    elements step index items = .inOrder (itemParts step index items) := by
  induction items generalizing index with
  | nil => rfl
  | cons item rest ih =>
      rw [elements, ih (index + 1)]
      rfl

theorem entries_eq (step : Json → Attempt Data) (fields : List (Text × Json)) :
    entries step fields = .inOrder (fieldParts step fields) := by
  induction fields with
  | nil => rfl
  | cons field rest ih =>
      obtain ⟨key, item⟩ := field
      simp only [entries, ih, fieldParts, List.map_cons, Attempt.inOrder, Attempt.map_located,
        Attempt.bind_map]

theorem positions_eq (step : Spec → Json → Attempt Data) (index : Nat) (specs : List Spec)
    (items : List Json) :
    positions step index specs items = .inOrder (positionParts step index specs items) := by
  induction specs generalizing index items with
  | nil => cases items <;> rfl
  | cons spec specs ih =>
      cases items with
      | nil => rfl
      | cons item rest =>
          rw [positions, ih (index + 1)]
          rfl

theorem declared_eq (step : Spec → Json → Attempt Data) (object : List (Text × Json))
    (fields : List Field) :
    declared step object fields = .inOrder (declaredParts step object fields) := by
  induction fields with
  | nil => rfl
  | cons field rest ih =>
      cases h : object.lookup field.key with
      | none => simp [declared, declaredParts, present, h, ih]
      | some item =>
          simp only [declared, h, ih, declaredParts, present, List.filterMap_cons, Option.map_some,
            List.map_cons, Attempt.inOrder, Attempt.map_located, Attempt.bind_map]

/-! ## Containers that decode -/

theorem elements_ok {step : Json → Attempt Data} {index : Nat} {items : List Json}
    {data : List Data} :
    (elements step index items).result = .ok data ↔
      List.Forall₂ (fun item d => (step item).result = .ok d) items data := by
  rw [elements_eq, Attempt.inOrder_ok, itemParts, List.forall₂_map_left_iff]
  conv_rhs => rw [← List.zipIdx_map_fst index items, List.forall₂_map_left_iff]

theorem entries_ok {step : Json → Attempt Data} {fields : List (Text × Json)}
    {data : List (Data × Data)} :
    (entries step fields).result = .ok data ↔
      List.Forall₂
        (fun field entry => ∃ d, (step field.2).result = .ok d ∧ (.str field.1, d) = entry)
        fields data := by
  simp only [entries_eq, Attempt.inOrder_ok, fieldParts, List.forall₂_map_left_iff, Attempt.map_ok]

theorem positions_ok {step : Spec → Json → Attempt Data} {index : Nat} {specs : List Spec}
    {items : List Json} {data : List Data} :
    (positions step index specs items).result = .ok data ↔
      List.Forall₂ (fun part d => (step part.1 part.2).result = .ok d) (specs.zip items) data := by
  rw [positions_eq, Attempt.inOrder_ok, positionParts, List.forall₂_map_left_iff]
  conv_rhs => rw [← List.zipIdx_map_fst index (specs.zip items), List.forall₂_map_left_iff]

/-! ## Keys of an object -/

/-- The declared keys that an object lacks although they are not optional, in declared order. -/
def missingKeys (fields : List Field) (content : List (Text × Json)) : List Text :=
  (fields.filter fun field =>
    !field.isOptional && !(Assoc.keys content).contains field.key).map Field.key

/-- The keys of an object that are not declared, in the order of the object. -/
def unknownKeys (fields : List Field) (content : List (Text × Json)) : List Text :=
  (Assoc.keys content).filter fun key => !fields.any fun field => field.key == key

theorem mem_missingKeys {fields : List Field} {content : List (Text × Json)} {key : Text} :
    key ∈ missingKeys fields content ↔
      ∃ field ∈ fields, field.isOptional = false ∧ key ∉ Assoc.keys content ∧ field.key = key := by
  simp only [missingKeys, List.mem_map, List.mem_filter, Bool.and_eq_true, Bool.not_eq_true',
    List.contains_eq_mem, decide_eq_false_iff_not]
  constructor
  · rintro ⟨field, ⟨hmem, hrequired, habsent⟩, rfl⟩
    exact ⟨field, hmem, hrequired, habsent, rfl⟩
  · rintro ⟨field, hmem, hrequired, habsent, rfl⟩
    exact ⟨field, ⟨hmem, hrequired, habsent⟩, rfl⟩

theorem mem_unknownKeys {fields : List Field} {content : List (Text × Json)} {key : Text} :
    key ∈ unknownKeys fields content ↔
      key ∈ Assoc.keys content ∧ ∀ field ∈ fields, field.key ≠ key := by
  simp [unknownKeys]

/-- **Keys before values**: missing keys refuse an object, then unknown ones, and only then are its
values decoded. -/
theorem object_eq (step : Spec → Json → Attempt Data) (description : Text) (fields : List Field)
    (assemble : Rule) (content : List (Text × Json)) :
    object step description fields assemble content =
      if !(missingKeys fields content).isEmpty then
        .refuse (.missingKeys (missingKeys fields content))
      else if !(unknownKeys fields content).isEmpty then
        .refuse (.unknownKeys (unknownKeys fields content))
      else
        (declared step content fields).bind fun entries =>
          .ofRule description (.object content) (assemble (.dict entries)) := by
  simp only [object, missingKeys, unknownKeys, List.isEmpty_map]
  rfl

end Decoder

end JsonDecoding
