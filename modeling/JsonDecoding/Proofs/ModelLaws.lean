import JsonDecoding.Models.Family
import JsonDecoding.Proofs.Outcomes

/-!
# Laws of model classes

How a library of models builds a model is its own affair. What the schemas of model classes rely on
is little: that a validation reports what its validators reject (`ModelClass.Reports`), that it fills
each field from its alias, and that a model which is built as it stands takes for each field the
value under its alias, else the one under its name (`ModelClass.Lawful`). Declared models keep these
laws (`DeclaredModel.lawful`).
-/

namespace JsonDecoding

namespace ModelClass

/-! ## Validators -/

/-- Where validators object to the input, the validation complains in a report of them. -/
structure Reports (c : ModelClass) (objectionable : Values → Prop) : Prop where
  validation : ∀ input, objectionable input →
    ∃ message, c.validate input = .error ⟨.validation, message⟩

/-! ## Instances -/

/-- The values that fields hold: what is taken for them, else their default. -/
def held (taken : ModelField → Option Data) (fields : List ModelField) : Values :=
  fields.filterMap fun field =>
    ((taken field).or field.default).map fun value => (field.name, value)

/-- The names of the fields for which something is taken. -/
def given (taken : ModelField → Option Data) (fields : List ModelField) : List Text :=
  (fields.filter fun field => (taken field).isSome).map ModelField.name

/-- The instance of a class for whose fields this is taken. -/
def filled (c : ModelClass) (taken : ModelField → Option Data) : Data :=
  .model c.name (held taken c.fields) (given taken c.fields)

/-! ## Building a model as it stands -/

/-- The name under which a field takes a value: its alias, or else its own name. -/
def source? (field : ModelField) (input : Values) : Option Text :=
  ((field.publicName.filter fun name => !name.isEmpty).toList ++ [field.name]).find? fun source =>
    (input.lookup source).isSome

/-- Fields take values one after the other: each that finds one takes it away, each other one keeps
its default, if it has one. -/
inductive Takings : List ModelField → Values → Values → List Text → Prop where
  | nil {input : Values} : Takings [] input [] []
  | taken {field : ModelField} {rest : List ModelField} {input values : Values}
      {names : List Text} {source : Text} {value : Data} (hsource : source? field input = some source)
      (hvalue : input.lookup source = some value)
      (hrest : Takings rest (input.filter fun entry => entry.1 != source) values names) :
      Takings (field :: rest) input ((field.name, value) :: values) (field.name :: names)
  | missed {field : ModelField} {rest : List ModelField} {input values : Values}
      {names : List Text} (hsource : source? field input = none)
      (hrest : Takings rest input values names) :
      Takings (field :: rest) input
        ((field.default.map fun value => (field.name, value)).toList ++ values) names

/-- What schemas rely on. `keeps` says which values of a field validation leaves as they are. -/
structure Lawful (c : ModelClass) (keeps : ModelField → Data → Prop) : Prop where
  /-- A validation fills each field from its alias, or its name if it has none, where it changes no
  value and every field without a default finds one. -/
  validate_eq : ∀ (input : Values) (reading : ModelField → Option Data),
    (∀ field ∈ c.fields, input.lookup field.inputName = reading field) →
    (∀ field ∈ c.fields, ∀ data, reading field = some data → keeps field data) →
    (∀ field ∈ c.fields, field.default = none → reading field ≠ none) →
    c.validate input = .ok (c.filled reading)
  /-- A model that is built as it stands takes for each field the value under its alias, if there is
  one, else the one under its name; no value is taken twice. -/
  construct_eq : ∀ input : Values, ∃ values names, Takings c.fields input values names ∧
    c.construct input = .ok (.model c.name values names)

end ModelClass

/-! ## Declared models -/

namespace DeclaredModel

open ModelClass

variable {help : Help} {c : DeclaredModel} {instances : Conform.Instances}
  {reading : ModelField → Option Data} {field : ModelField}

/-- A value is one of the annotated type as it is. -/
def Keeps (instances : Conform.Instances) (field : ModelField) (data : Data) : Prop :=
  ∃ m, Conform.conform instances field.hint data = .ok m ∧ m.result = data

theorem lookup_str (input : Values) (name : Text) :
    (input.map fun entry => (Data.str entry.1, entry.2)).lookup (.str name) =
      input.lookup name := by
  induction input with
  | nil => rfl
  | cons entry rest ih =>
      have hkeys : (Data.str name == Data.str entry.1) = (name == entry.1) := by
        simp only [BEq.beq, Data.same]
      rw [List.map_cons, List.lookup_cons, hkeys, ih, List.lookup_cons]

/-- A field without validators keeps a value of its type. -/
theorem fieldValue_of_keeps (hvalidators : c.validators = []) {data : Data}
    (hkeeps : Keeps instances field data) :
    ∃ m, c.fieldValue instances field data = .ok m ∧ m.result = data := by
  obtain ⟨m, hconform, hresult⟩ := hkeeps
  refine ⟨m, ?_, hresult⟩
  simp only [fieldValue, hvalidators, hconform]
  rfl

/-- Fields that find what was read for them hold it. -/
theorem readFields_of_keeps (hvalidators : c.validators = []) {input : List (Data × Data)}
    {fields : List ModelField}
    (hinput : ∀ field ∈ fields, input.lookup (.str field.inputName) = reading field)
    (hkeeps : ∀ field ∈ fields, ∀ data, reading field = some data → Keeps instances field data)
    (hrequired : ∀ field ∈ fields, field.default = none → reading field ≠ none) :
    ∃ m, c.readFields instances input fields = .ok m ∧
      m.result = (held reading fields, given reading fields) := by
  induction fields with
  | nil => exact ⟨_, rfl, rfl⟩
  | cons field rest ih =>
      obtain ⟨others, hothers, hresult⟩ := ih (fun other h => hinput other (.tail _ h))
        (fun other h => hkeeps other (.tail _ h)) (fun other h => hrequired other (.tail _ h))
      have hown := hinput field (.head _)
      cases hread : reading field with
      | some data =>
          obtain ⟨m, hvalue, rfl⟩ :=
            fieldValue_of_keeps (c := c) hvalidators (hkeeps field (.head _) data hread)
          refine ⟨_, by simp only [readFields, hown, hread, hvalue, hothers]; rfl, ?_⟩
          simp [Match.both, hresult, held, given, hread]
      | none =>
          obtain ⟨default, hdefault⟩ :=
            Option.ne_none_iff_exists'.mp fun h => hrequired field (.head _) h hread
          refine ⟨_, by simp only [readFields, hown, hread, hdefault, hothers]; rfl, ?_⟩
          simp [Match.both, hresult, held, given, hread, hdefault]

/-- What the fields of a declared model take. -/
theorem takings_takeFields (fields : List ModelField) (input : Values) :
    Takings fields input (takeFields fields input).1 (takeFields fields input).2 := by
  induction fields generalizing input with
  | nil => exact .nil
  | cons field rest ih =>
      cases hsource : source? field input with
      | some source =>
          have hsome : (input.lookup source).isSome = true :=
            List.find?_some (p := fun source => (input.lookup source).isSome) hsource
          obtain ⟨value, hvalue⟩ := Option.isSome_iff_exists.mp hsome
          have htakings := Takings.taken hsource hvalue (ih _)
          rw [source?] at hsource
          simpa only [takeFields, hsource, hvalue, Option.getD_some] using htakings
      | none =>
          have htakings := Takings.missed hsource (ih input)
          rw [source?] at hsource
          simp only [takeFields, hsource]
          cases hdefault : field.default <;> simpa [hdefault] using htakings

/-- **Declared models keep the laws**, where their class is complete and has no validators. -/
theorem lawful (hcomplete : c.missing = none) (hvalidators : c.validators = []) :
    (c.modelClass help instances).Lawful (Keeps instances) where
  validate_eq input reading hinput hkeeps hrequired := by
    obtain ⟨m, hfields, hresult⟩ := readFields_of_keeps (c := c) hvalidators
      (fun field h => (lookup_str input _).trans (hinput field h)) hkeeps hrequired
    simp only [modelClass] at hfields hresult
    simp only [modelClass, validate, hcomplete, readModel, hfields, Except.map, hresult, Match.made,
      Match.map, Checked.settled, Except.mapError]
    rfl
  construct_eq input := ⟨_, _, takings_takeFields c.fields input, rfl⟩

end DeclaredModel

end JsonDecoding
