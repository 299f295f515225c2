import JsonDecoding.Proofs.Closed
import JsonDecoding.Proofs.OwnKeys

/-!
# Restrained rules

A rule is restrained when it never breaks down: it gives data, or complains about the value. The
rules of an instance, be it of a record class or of a model class, are restrained where its
constructor is and no required field can be lost (`Recipe.schema_restrained`). Only what builds a
model without validation is not listened to when it complains about the value.
-/

namespace JsonDecoding

/-- A property of data that decoding keeps when it makes data of parts. To be any data is one. -/
structure Data.Kept (fine : Data → Prop) : Prop where
  scalar : ∀ (value : Json) (data : Data), value.scalar? = some data → fine data
  list : ∀ items : List Data, (∀ item ∈ items, fine item) → fine (.list items)
  tuple : ∀ items : List Data, (∀ item ∈ items, fine item) → fine (.tuple items)
  dict : ∀ entries : List (Data × Data),
    (∀ entry ∈ entries, (∃ key, entry.1 = .str key) ∧ fine entry.2) → fine (.dict entries)
  set : ∀ items : List Data, (∀ item ∈ items, fine item) → Data.unhashableItem? items = none →
    fine (Data.setOf items)

/-- An answer is good, or a complaint of those that may be raised. -/
def Permitted {α : Type} (good : α → Prop) (raised : Complaint → Prop) :
    Except Complaint α → Prop
  | .ok a => good a
  | .error complaint => raised complaint

namespace Complaint

/-- A complaint about the value. -/
def Rejects (complaint : Complaint) : Prop := complaint.concern.rejects = true

/-- One of the complaints `raised` where only those of a validation are listened for. -/
def Passes (raised : Complaint → Prop) (complaint : Complaint) : Prop :=
  ∃ original, raised original ∧ complaint = original.unlessValidation

end Complaint

/-- The keys that the initial fields of a record class are read under. -/
def RecordClass.initialKeys (c : RecordClass) (mapping : List (Text × Text)) : List Text :=
  (c.fields.filter RecordField.isInitial).map fun field =>
    KeyRequest.renamed mapping field.name

/-- Every initial field without a default has a value among the given ones. -/
def RecordClass.IsGiven (c : RecordClass) (given : Values) : Prop :=
  ∀ field ∈ c.fields, field.isInitial = true → field.default = none →
    (given.lookup field.name).isSome = true

/-- The rules of a recipe are restrained, asked about fine data only: they complain about the value
only, except that what builds a model without validation may raise other complaints. Fields of a
record class have distinct keys, and its constructor is only asked about values for all required
fields. -/
def Recipe.Restrained (fine : Data → Prop) (raised : Complaint → Prop) : Recipe → Prop
  | .object _ _ _ assemble => ∀ data, fine data → Permitted fine Complaint.Rejects (assemble data)
  | .array _ _ assemble => ∀ data, fine data → Permitted fine Complaint.Rejects (assemble data)
  | .scalar _ _ convert => ∀ data, fine data → Permitted fine Complaint.Rejects (convert data)
  | .record c mapping _ =>
      (c.initialKeys mapping).Nodup ∧
      ∀ given, (∀ entry ∈ given, fine entry.2) → c.IsGiven given →
        Permitted fine Complaint.Rejects (c.construct given)
  | .model c _ true _ => ∀ input, (∀ entry ∈ input, fine entry.2) →
      Permitted fine (fun complaint => complaint.concern = .validation) (c.validate input)
  | .model c _ false _ => ∀ input, (∀ entry ∈ input, fine entry.2) →
      Permitted fine raised (c.construct input)

/-- The rules of a schema are restrained on what decoding hands to them: an object of declared keys
has all that are not optional. Beside complaints about the value there are those that may pass. -/
def Schema.Restrained (fine : Data → Prop) (passes : Complaint → Prop) : Schema → Prop
  | .object _ fields assemble =>
      ∀ entries : List (Data × Data),
        (∀ entry ∈ entries, (∃ key, entry.1 = .str key) ∧ fine entry.2) →
        (∀ field ∈ fields, field.isOptional = false → ∃ data, (.str field.key, data) ∈ entries) →
        Permitted fine (fun complaint => complaint.Rejects ∨ passes complaint)
          (assemble (.dict entries))
  | .array _ _ assemble => ∀ items : List Data, (∀ item ∈ items, fine item) →
      Permitted fine (fun complaint => complaint.Rejects ∨ passes complaint)
        (assemble (.list items))
  | .scalar _ _ convert => ∀ data, fine data →
      Permitted fine (fun complaint => complaint.Rejects ∨ passes complaint) (convert data)
  | .raw .. => False

namespace Permitted

variable {α β : Type} {good : α → Prop} {raised passes : Complaint → Prop}
  {answer : Except Complaint α}

theorem mono (h : Permitted good raised answer)
    (hraised : ∀ complaint, raised complaint → passes complaint) :
    Permitted good passes answer := by
  cases answer with
  | ok a => exact h
  | error complaint => exact hraised complaint h

theorem map {better : β → Prop} (h : Permitted good raised answer) {f : α → β}
    (hf : ∀ a, good a → better (f a)) : Permitted better raised (answer.map f) := by
  cases answer with
  | ok a => exact hf a h
  | error complaint => exact h

/-- Where only the complaints of a validation are listened for, they reject the value, and all others
pass. -/
theorem unlessValidation (h : Permitted good raised answer) :
    Permitted good (fun complaint => complaint.Rejects ∨ complaint.Passes raised)
      (answer.mapError Complaint.unlessValidation) := by
  cases answer with
  | ok a => exact h
  | error complaint => exact .inr ⟨complaint, h, rfl⟩

theorem of_validation (h : Permitted good (fun complaint => complaint.concern = .validation) answer) :
    Permitted good Complaint.Rejects (answer.mapError Complaint.unlessValidation) := by
  cases answer with
  | ok a => exact h
  | error complaint =>
      have hconcern : complaint.concern = .validation := h
      show complaint.concern.unlessValidation.rejects = true
      rw [hconcern]
      rfl

end Permitted

/-! ## Constructors -/

namespace RecordClass

variable {c : RecordClass} {given : Values}

/-- When all initial fields without a default are given, and all arguments have one, the constructor
lacks no value. -/
theorem missing_eq_nil
    (harguments : ∀ field ∈ c.fields, field.role = .argument → field.default.isSome = true)
    (hgiven : c.IsGiven given) : c.missing given = [] := by
  rw [missing, List.filter_eq_nil_iff]
  intro field hfield
  cases hrole : field.role with
  | internal => simp [RecordField.isTaken, hrole]
  | argument =>
      obtain ⟨default, hdefault⟩ := Option.isSome_iff_exists.mp (harguments field hfield hrole)
      simp [RecordField.valueOf, RecordField.isTaken, hrole, hdefault]
  | initial =>
      cases hdefault : field.default with
      | some default => simp [RecordField.valueOf, RecordField.isTaken, hrole, hdefault]
      | none =>
          have hsome := hgiven field hfield (by simp [RecordField.isInitial, hrole]) hdefault
          obtain ⟨value, hvalue⟩ := Option.isSome_iff_exists.mp hsome
          simp [RecordField.valueOf, RecordField.isTaken, hrole, hvalue]

/-- A generated constructor that lacks no value complains only where its hook does. -/
theorem construct_permitted {raised : Complaint → Prop} (hown : c.ownConstructor = none)
    (hcomplete : ∀ values arguments,
      Permitted (fun _ => True) raised (c.complete values arguments))
    (harguments : ∀ field ∈ c.fields, field.role = .argument → field.default.isSome = true)
    (hgiven : c.IsGiven given) : Permitted (fun _ => True) raised (c.construct given) := by
  simp only [construct, initialized, hown, missing_eq_nil harguments hgiven, List.isEmpty_nil,
    if_true]
  exact (hcomplete _ _).map fun _ _ => trivial

end RecordClass

/-! ## Schemas of recipes -/

namespace Recipe

variable {fine : Data → Prop} {raised : Complaint → Prop} {schema : Schema}

/-- Reading the annotations of a record class changes no key. -/
theorem keys_requests {c : RecordClass} {fields : List RecordField}
    (h : c.resolvedFields = .ok fields) (mapping : List (Text × Text)) :
    (RecordClass.requests fields mapping).map KeyRequest.key = c.initialKeys mapping := by
  have heach := Outcomes.mapM_ok.mp h
  unfold RecordClass.initialKeys RecordClass.requests
  generalize c.fields = declared at heach
  clear h
  induction heach with
  | nil => rfl
  | @cons field resolved _ _ hfirst _ ih =>
      obtain ⟨hint, -, rfl⟩ := Outcomes.map_ok.mp hfirst
      cases hrole : field.role <;> simp_all [RecordField.isInitial]

theorem record_restrained {c : RecordClass} {mapping : List (Text × Text)} {description : Text}
    (hkeys : (c.initialKeys mapping).Nodup)
    (hconstruct : ∀ given, (∀ entry ∈ given, fine entry.2) → c.IsGiven given →
      Permitted fine Complaint.Rejects (c.construct given))
    (h : c.schema mapping description = .ok schema) :
    schema.Restrained fine (Complaint.Passes raised) := by
  obtain ⟨fields, hfields, hschema⟩ := Outcomes.bind_ok.mp h
  rw [← keys_requests hfields] at hkeys
  obtain ⟨declared, rfl, hdeclared⟩ := KeyRequest.exists_declared hschema hkeys
  intro entries hentries hpresent
  refine (hconstruct _ ?_ ?_).mono fun _ => .inl
  · intro renamed hrenamed
    obtain ⟨entry, hentry, hvalue⟩ := KeyRequest.mem_renamedEntries hrenamed
    exact hvalue ▸ (hentries entry hentry).2
  · -- a required field owns its key, which an object that was decoded has
    intro field hfield hinitial hdefault
    obtain ⟨resolved, hresolved, hmade⟩ := Outcomes.exists_of_mapM_ok hfields hfield
    obtain ⟨hint, -, rfl⟩ := Outcomes.map_ok.mp hmade
    have hrequest : ⟨KeyRequest.renamed mapping field.name, field.name, hint, false⟩ ∈
        RecordClass.requests fields mapping :=
      List.mem_map.mpr ⟨_, List.mem_filter.mpr ⟨hresolved, hinitial⟩, by simp [hdefault]⟩
    obtain ⟨owner, howner, hkey, -, hrequired⟩ := Outcomes.exists_of_forall₂ hdeclared hrequest
    obtain ⟨data, hdata⟩ := hpresent owner howner hrequired
    exact KeyRequest.lookup_renamedEntries (KeyRequest.lookup_owners hkeys hrequest) (hkey ▸ hdata)

theorem model_restrained {c : ModelClass} {mapping : List (Text × Text)} {validates : Bool}
    {description : Text}
    (hrecipe : (Recipe.model c mapping validates description).Restrained fine raised)
    (h : c.schema mapping validates description = .ok schema) :
    schema.Restrained fine (Complaint.Passes raised) := by
  obtain ⟨declared, rfl⟩ := KeyRequest.schema_ok h
  intro entries hentries _
  have hrenamed {names : List (Text × Text)} {renamed : Text × Data}
      (hmem : renamed ∈ KeyRequest.renamedEntries names (.dict entries)) : fine renamed.2 := by
    obtain ⟨entry, hentry, hvalue⟩ := KeyRequest.mem_renamedEntries hmem
    exact hvalue ▸ (hentries entry hentry).2
  cases validates with
  | true =>
      have hvalidated := hrecipe (Assoc.ofPairs (KeyRequest.renamedEntries
          (c.validationNames mapping) (.dict entries))) fun entry hentry => by
        obtain ⟨renamed, hmem, hvalue⟩ := Assoc.mem_ofPairs hentry
        exact hvalue ▸ hrenamed hmem
      exact hvalidated.of_validation.mono fun _ => .inl
  | false => exact (hrecipe _ fun _ => hrenamed).unlessValidation

/-- **A restrained recipe** makes a schema whose rules are restrained. -/
theorem schema_restrained (hfine : Data.Kept fine) {recipe : Recipe}
    (hrecipe : recipe.Restrained fine raised) (h : recipe.schema = .ok schema) :
    schema.Restrained fine (Complaint.Passes raised) := by
  cases recipe with
  | object description fields optional assemble =>
      obtain ⟨declared, rfl⟩ := Schema.ofFields_ok h
      exact fun entries hentries _ => (hrecipe _ (hfine.dict entries hentries)).mono fun _ => .inl
  | array description element assemble =>
      obtain ⟨spec, -, rfl⟩ := Outcomes.map_ok.mp h
      exact fun items hitems => (hrecipe _ (hfine.list items hitems)).mono fun _ => .inl
  | scalar description shape convert =>
      cases shape <;> cases h <;> exact fun data hdata => (hrecipe data hdata).mono fun _ => .inl
  | record definition mapping description => exact record_restrained hrecipe.1 hrecipe.2 h
  | model definition mapping validates description => exact model_restrained hrecipe h

end Recipe

/-! ## Registries -/

/-- A factory is sound for a registry when its defaults are closed, and its body never raises: of
well-formed arguments, as many as there are parameters, it makes a schema by a restrained recipe,
and what it writes is closed over the arguments. -/
structure Factory.IsSound (registry : Registry) (allowed : Spec → Prop) (fine : Data → Prop)
    (raised : Complaint → Prop) (f : Factory) : Prop where
  defaults : ∀ spec ∈ f.defaults, Closed registry allowed spec
  build : ∀ arguments : List Spec, arguments.length = f.parameters →
    (∀ argument ∈ arguments, argument.WellFormed) →
    ∃ (recipe : Recipe) (schema : Schema), recipe.schema = .ok schema ∧
      f.build arguments = .ok schema ∧ recipe.Restrained fine raised ∧
      ∀ spec ∈ schema.specs, ClosedOver registry allowed arguments spec

/-- All factories of a registry are sound for it. -/
def Registry.IsSound (r : Registry) (allowed : Spec → Prop) (fine : Data → Prop)
    (raised : Complaint → Prop) : Prop :=
  ∀ entry ∈ r.entries, entry.2.IsSound r allowed fine raised

/-- **A sound factory** makes of closed arguments a schema that is restrained and closed. -/
theorem Factory.IsSound.call {registry : Registry} {allowed : Spec → Prop} {fine : Data → Prop}
    {raised : Complaint → Prop} {f : Factory} (h : f.IsSound registry allowed fine raised)
    (hfine : Data.Kept fine) {arguments : List Spec} (hleast : f.least ≤ arguments.length)
    (hmost : arguments.length ≤ f.parameters)
    (harguments : ∀ argument ∈ arguments, Closed registry allowed argument) :
    ∃ schema, f.call arguments = .ok schema ∧
      schema.Restrained fine (Complaint.Passes raised) ∧
      ∀ spec ∈ schema.specs, Closed registry allowed spec := by
  have hfilled : ∀ argument ∈ f.filled arguments, Closed registry allowed argument := fun argument hmem =>
    (Factory.mem_filled hmem).elim (harguments argument) (h.defaults argument)
  obtain ⟨recipe, schema, hrecipe, hbuild, hrestrained, hspecs⟩ :=
    h.build _ (Factory.length_filled hleast hmost) fun argument hmem =>
      (hfilled argument hmem).wellFormed
  -- what is closed over the arguments is closed, since they are
  refine ⟨schema, ?_, Recipe.schema_restrained hfine hrestrained hrecipe,
    fun spec hspec => (hspecs spec hspec).instantiate hfilled⟩
  rw [Factory.call, if_pos ⟨hleast, hmost⟩, hbuild]

end JsonDecoding
