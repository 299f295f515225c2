import JsonDecoding.Proofs.Recipe

/-!
# Closed specifications

A specification is closed for a registry when all it refers to is registered and takes as many
arguments as are given, and all its mappings have strings for keys. What the body of a factory
writes may stand on its parameters as well (`ClosedOver`); with closed arguments in their place it
is closed (`ClosedOver.instantiate`).
-/

namespace JsonDecoding

/-- Closed for a registry, apart from parameters that stand for specifications. All identities in it
are `allowed` ones. -/
inductive ClosedOver (registry : Registry) (allowed : Spec → Prop) (parameters : List Spec) :
    Spec → Prop where
  | parameter {spec : Spec} (h : spec ∈ parameters) : ClosedOver registry allowed parameters spec
  | primitive {kind : Primitive} : ClosedOver registry allowed parameters (.primitive kind)
  | bareArray : ClosedOver registry allowed parameters .bareArray
  | bareObject : ClosedOver registry allowed parameters .bareObject
  | arrayOf {element : Spec} (h : ClosedOver registry allowed parameters element) :
      ClosedOver registry allowed parameters (.arrayOf element)
  | objectOf {content : Spec} (h : ClosedOver registry allowed parameters content) :
      ClosedOver registry allowed parameters (.objectOf content)
  | mapOf {content : Spec} (h : ClosedOver registry allowed parameters content) :
      ClosedOver registry allowed parameters (.mapOf .string content)
  | setOf {element : Spec} (h : ClosedOver registry allowed parameters element) :
      ClosedOver registry allowed parameters (.setOf element)
  | tupleOf {specs : List Spec}
      (h : ∀ spec ∈ specs, ClosedOver registry allowed parameters spec) :
      ClosedOver registry allowed parameters (.tupleOf specs)
  | anyOf {specs : List Spec} (h : ∀ spec ∈ specs, ClosedOver registry allowed parameters spec) :
      ClosedOver registry allowed parameters (.anyOf specs)
  | custom {identity : Spec} {arguments : List Spec} {factory : Factory}
      (hallowed : allowed identity) (hresolve : registry.resolve identity = some factory)
      (hleast : factory.least ≤ arguments.length) (hmost : arguments.length ≤ factory.parameters)
      (h : ∀ argument ∈ arguments, ClosedOver registry allowed parameters argument) :
      ClosedOver registry allowed parameters (.custom identity arguments)

/-- Closed for a registry. -/
abbrev Closed (registry : Registry) (allowed : Spec → Prop) : Spec → Prop :=
  ClosedOver registry allowed []

variable {registry : Registry} {allowed : Spec → Prop} {parameters : List Spec} {spec : Spec}

namespace ClosedOver

/-- **Closed arguments close** what is closed over the parameters. -/
theorem instantiate (h : ClosedOver registry allowed parameters spec)
    (hparameters : ∀ parameter ∈ parameters, Closed registry allowed parameter) :
    Closed registry allowed spec := by
  induction h with
  | parameter h => exact hparameters _ h
  | primitive => exact .primitive
  | bareArray => exact .bareArray
  | bareObject => exact .bareObject
  | arrayOf _ ih => exact .arrayOf ih
  | objectOf _ ih => exact .objectOf ih
  | mapOf _ ih => exact .mapOf ih
  | setOf _ ih => exact .setOf ih
  | tupleOf _ ih => exact .tupleOf ih
  | anyOf _ ih => exact .anyOf ih
  | custom hallowed hresolve hleast hmost _ ih => exact .custom hallowed hresolve hleast hmost ih

end ClosedOver

namespace Closed

/-- A closed specification is well-formed. -/
theorem wellFormed (h : Closed registry allowed spec) : spec.WellFormed := by
  induction h with
  | parameter h => cases h
  | primitive | bareArray | bareObject => rfl
  | arrayOf _ ih | objectOf _ ih | setOf _ ih => exact ih
  | mapOf _ ih => exact Spec.WellFormed.mapOf_iff.mpr ⟨rfl, ih⟩
  | tupleOf _ ih => exact Spec.WellFormed.tupleOf_iff.mpr ih
  | anyOf _ ih => exact Spec.WellFormed.anyOf_iff.mpr ih
  | custom _ _ _ _ _ ih => exact Spec.WellFormed.custom_iff.mpr ih

/-- A closed specification can be described, unless an allowed identity has no name. -/
theorem hasDescription (h : Closed registry allowed spec)
    (hnames : ∀ identity, allowed identity → identity.isNameable = true) :
    spec.HasDescription := by
  induction h with
  | parameter h => cases h
  | primitive | bareArray | bareObject => rfl
  | arrayOf _ ih | objectOf _ ih | setOf _ ih => exact ih
  | mapOf _ ih => exact Spec.HasDescription.mapOf_iff.mpr ⟨rfl, ih⟩
  | tupleOf _ ih => exact Spec.HasDescription.tupleOf_iff.mpr ih
  | anyOf _ ih => exact Spec.HasDescription.anyOf_iff.mpr ih
  | custom hallowed _ _ _ _ ih =>
      exact Spec.HasDescription.custom_iff.mpr ⟨hnames _ hallowed, ih⟩

end Closed

/-- A well-formed specification stands for itself. -/
theorem Spec.WellFormed.specOf_eq (h : spec.WellFormed) : Schema.specOf spec = .ok spec := by
  cases spec with
  | builtin | named | symbol | token | written | generic | union | several => cases h
  | _ => simp [Schema.specOf, Spec.coerce, Except.mapError]

/-! ## Factories -/

/-- The specifications by which a schema decodes parts of values. -/
def Schema.specs : Schema → List Spec
  | .object _ fields _ => fields.map Field.spec
  | .array _ element _ => [element]
  | .scalar .. => []
  | .raw .. => []

namespace Factory

variable {f : Factory} {arguments : List Spec}

/-- Arguments whose number is accepted are filled up to the number of parameters. -/
theorem length_filled (hleast : f.least ≤ arguments.length)
    (hmost : arguments.length ≤ f.parameters) : (f.filled arguments).length = f.parameters := by
  simp only [least] at hleast
  simp only [filled, List.length_append, List.length_drop]
  omega

/-- A filled argument is one of the arguments or a default. -/
theorem mem_filled {argument : Spec} (h : argument ∈ f.filled arguments) :
    argument ∈ arguments ∨ argument ∈ f.defaults :=
  (List.mem_append.mp h).imp_right List.mem_of_mem_drop

end Factory

end JsonDecoding
