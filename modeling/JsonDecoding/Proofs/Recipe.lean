import JsonDecoding.Registry
import JsonDecoding.Schema.Class
import JsonDecoding.Proofs.Outcomes

/-!
# Recipes

A schema is made by one of five recipes: of declared fields, of one kind of element, of one kind of
scalar, of a record class, or of a model class. None of them has a handler of its own, so what such
a schema does with a value is known from its fields, its element or its shape.
-/

namespace JsonDecoding

/-- A way of making a schema. -/
inductive Recipe where
  | object (description : Text) (fields : List (Text × Spec)) (optional : List Text)
      (assemble : Rule)
  | array (description : Text) (element : Spec) (assemble : Rule)
  | scalar (description : Text) (shape : Tag) (convert : Rule)
  | record (definition : RecordClass) (mapping : List (Text × Text)) (description : Text)
  | model (definition : ModelClass) (mapping : List (Text × Text)) (validates : Bool)
      (description : Text)

namespace Recipe

/-- The schema that a recipe makes, or the fault of misusing an annotation in it. -/
def schema : Recipe → Except Fault Schema
  | object description fields optional assemble =>
      Schema.ofFields description fields optional assemble
  | array description element assemble => Schema.ofElement description element assemble
  | scalar description shape convert => Schema.ofScalar description shape convert
  | record definition mapping description => definition.schema mapping description
  | model definition mapping validates description =>
      definition.schema mapping validates description

end Recipe

/-- Whether a schema has a handler of its own. -/
def Schema.IsRaw : Schema → Prop
  | .raw .. => True
  | _ => False

/-- The schemas that a factory builds are made by recipes. -/
def Factory.IsMade (f : Factory) : Prop :=
  ∀ arguments schema, f.build arguments = .ok schema → ∃ recipe : Recipe, recipe.schema = .ok schema

/-- The schemas of a registry are made by recipes. -/
def Registry.IsMade (r : Registry) : Prop := ∀ entry ∈ r.entries, entry.2.IsMade

/-! ## What recipes make -/

theorem Schema.ofFields_ok {description : Text} {fields : List (Text × Spec)}
    {optional : List Text} {assemble : Rule} {schema : Schema}
    (h : Schema.ofFields description fields optional assemble = .ok schema) :
    ∃ declared, schema = .object description declared assemble := by
  obtain ⟨declared, -, hschema⟩ := Outcomes.map_ok.mp h
  exact ⟨declared, hschema.symm⟩

theorem KeyRequest.schema_ok {description : Text} {requests : List KeyRequest} {assemble : Rule}
    {schema : Schema} (h : KeyRequest.schema description requests assemble = .ok schema) :
    ∃ declared, schema = .object description declared assemble := by
  obtain ⟨specs, -, hschema⟩ := Outcomes.bind_ok.mp h
  exact Schema.ofFields_ok hschema

namespace Recipe

/-- **What a recipe makes** has no handler of its own. -/
theorem not_raw {recipe : Recipe} {schema : Schema} (h : recipe.schema = .ok schema) :
    ¬schema.IsRaw := by
  cases recipe with
  | object description fields optional assemble =>
      obtain ⟨declared, rfl⟩ := Schema.ofFields_ok h
      exact id
  | array description element assemble =>
      obtain ⟨spec, -, rfl⟩ := Outcomes.map_ok.mp h
      exact id
  | scalar description shape convert =>
      cases shape <;> cases h <;> exact id
  | record definition mapping description =>
      obtain ⟨fields, -, hschema⟩ := Outcomes.bind_ok.mp h
      obtain ⟨declared, rfl⟩ := KeyRequest.schema_ok hschema
      exact id
  | model definition mapping validates description =>
      obtain ⟨declared, rfl⟩ := KeyRequest.schema_ok h
      exact id

end Recipe

/-! ## What a registry of recipes gives -/

/-- What an identity resolves to is registered. -/
theorem Registry.mem_of_resolve {r : Registry} {identity : Spec} {factory : Factory}
    (h : r.resolve identity = some factory) : ∃ key, (key, factory) ∈ r.entries := by
  unfold Registry.resolve at h
  split at h
  · rw [List.lookup_eq_findSome?, List.findSome?_eq_some_iff] at h
    obtain ⟨before, entry, after, hentries, hentry, -⟩ := h
    split at hentry
    · cases hentry
      exact ⟨entry.1, by simp [hentries]⟩
    · cases hentry
  · cases h

/-- A factory that gives a schema builds it of the filled arguments. -/
theorem Factory.call_ok {f : Factory} {arguments : List Spec} {schema : Schema}
    (h : f.call arguments = .ok schema) : f.build (f.filled arguments) = .ok schema := by
  unfold Factory.call at h
  split at h
  · exact h
  · cases h

/-- A registry of recipes gives no schema with a handler of its own. -/
theorem Registry.IsMade.not_raw {r : Registry} (hmade : r.IsMade) {identity : Spec}
    {factory : Factory} (hresolve : r.resolve identity = some factory) {arguments : List Spec}
    {schema : Schema} (hcall : factory.call arguments = .ok schema) : ¬schema.IsRaw := by
  obtain ⟨key, hmem⟩ := Registry.mem_of_resolve hresolve
  obtain ⟨recipe, hrecipe⟩ := hmade (key, factory) hmem _ _ (Factory.call_ok hcall)
  exact Recipe.not_raw hrecipe

end JsonDecoding
