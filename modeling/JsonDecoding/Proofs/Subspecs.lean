import JsonDecoding.Spec.Description

/-!
# Specifications inside specifications

Properties that a specification shares with all specifications in it, and how deep these lie.
-/

namespace JsonDecoding

namespace Spec

/-- Whether a specification refers to a schema. -/
def IsCustom : Spec → Prop
  | .custom .. => True
  | _ => False

/-- Whether a specification is one of sets. -/
def IsSet : Spec → Prop
  | .setOf _ => True
  | _ => False

mutual

/-- A property of a specification and of every specification in it, the arguments of custom ones
included. -/
def Every (p : Spec → Prop) : Spec → Prop
  | .arrayOf element => p (.arrayOf element) ∧ Every p element
  | .objectOf content => p (.objectOf content) ∧ Every p content
  | .mapOf key content => p (.mapOf key content) ∧ Every p key ∧ Every p content
  | .setOf element => p (.setOf element) ∧ Every p element
  | .tupleOf specs => p (.tupleOf specs) ∧ EveryAmong p specs
  | .anyOf specs => p (.anyOf specs) ∧ EveryAmong p specs
  | .custom identity arguments => p (.custom identity arguments) ∧ EveryAmong p arguments
  | spec => p spec

/-- A property of several specifications and of every specification in them. -/
def EveryAmong (p : Spec → Prop) : List Spec → Prop
  | [] => True
  | spec :: rest => Every p spec ∧ EveryAmong p rest

end

/-- No part of the specification refers to a schema. -/
def CustomFree (spec : Spec) : Prop := spec.Every fun part => ¬part.IsCustom

/-- No part of the specification is one of sets. -/
def SetFree (spec : Spec) : Prop := spec.Every fun part => ¬part.IsSet

theorem Every.head {p : Spec → Prop} {spec : Spec} (h : spec.Every p) : p spec := by
  cases spec with
  | primitive | bareArray | bareObject | builtin | named | symbol | token | written | generic
  | union | several => exact h
  | _ => exact h.1

theorem isString_iff {spec : Spec} : spec.isString = true ↔ spec = .string := by
  unfold isString
  split <;> simp_all

theorem everyAmong_iff {p : Spec → Prop} {specs : List Spec} :
    EveryAmong p specs ↔ ∀ spec ∈ specs, spec.Every p := by
  induction specs with
  | nil => simp [EveryAmong]
  | cons spec rest ih => simp [EveryAmong, ih]

theorem strayAmong?_eq_none {specs : List Spec} :
    strayAmong? specs = none ↔ ∀ spec ∈ specs, spec.WellFormed := by
  induction specs with
  | nil => simp [strayAmong?]
  | cons spec rest ih => simp [strayAmong?, ih, WellFormed]

/-! ## Well-formed specifications -/

namespace WellFormed

variable {element content key : Spec} {specs : List Spec}

theorem setOf_iff : (setOf element).WellFormed ↔ element.WellFormed := Iff.rfl

theorem mapOf_iff : (mapOf key content).WellFormed ↔ key.WellFormed ∧ content.WellFormed := by
  simp [WellFormed, stray?]

theorem tupleOf_iff : (tupleOf specs).WellFormed ↔ ∀ spec ∈ specs, spec.WellFormed :=
  strayAmong?_eq_none

theorem anyOf_iff : (anyOf specs).WellFormed ↔ ∀ spec ∈ specs, spec.WellFormed :=
  strayAmong?_eq_none

theorem custom_iff {identity : Spec} :
    (custom identity specs).WellFormed ↔ ∀ spec ∈ specs, spec.WellFormed :=
  strayAmong?_eq_none

end WellFormed

theorem WellFormed.desugar {spec : Spec} (h : spec.WellFormed) : spec.desugar.WellFormed := by
  cases spec with
  | bareArray | bareObject => rfl
  | _ => exact h

/-- The specifications that a specification decodes parts of a value or the value itself by. -/
def contents : Spec → List Spec
  | .primitive .any | .bareArray | .bareObject => [.any]
  | .arrayOf element => [element]
  | .objectOf content => [content]
  | .mapOf _ content => [content]
  | .setOf element => [element]
  | .tupleOf specs => specs
  | .anyOf specs => specs
  | _ => []

/-- A property that containers and unions pass on to their parts is one of all that a specification
decodes by. -/
theorem contents_of_parts {p : Spec → Prop} (hany : p .any)
    (harray : ∀ {element}, p (.arrayOf element) → p element)
    (hobject : ∀ {content}, p (.objectOf content) → p content)
    (hmap : ∀ {key content}, p (.mapOf key content) → p content)
    (hset : ∀ {element}, p (.setOf element) → p element)
    (htuple : ∀ {specs}, p (.tupleOf specs) → ∀ spec ∈ specs, p spec)
    (hunion : ∀ {specs}, p (.anyOf specs) → ∀ spec ∈ specs, p spec) {spec : Spec} (h : p spec) :
    ∀ part ∈ spec.contents, p part := by
  intro part hpart
  cases spec with
  | primitive kind =>
      cases kind <;> simp only [contents, List.mem_singleton, List.not_mem_nil] at hpart
      exact hpart ▸ hany
  | bareArray | bareObject => exact List.mem_singleton.mp hpart ▸ hany
  | arrayOf => exact List.mem_singleton.mp hpart ▸ harray h
  | objectOf => exact List.mem_singleton.mp hpart ▸ hobject h
  | mapOf => exact List.mem_singleton.mp hpart ▸ hmap h
  | setOf => exact List.mem_singleton.mp hpart ▸ hset h
  | tupleOf => exact htuple h part hpart
  | anyOf => exact hunion h part hpart
  | _ => cases hpart

/-- A property of well-formed specifications that whatever these decode by has as well. -/
structure Hereditary (p : Spec → Prop) : Prop where
  wellFormed : ∀ {spec}, p spec → spec.WellFormed
  desugar : ∀ {spec}, p spec → p spec.desugar
  contents : ∀ {spec}, p spec → ∀ part ∈ spec.contents, p part
  key : ∀ {key content}, p (.mapOf key content) → p key
  arguments : ∀ {identity arguments}, p (.custom identity arguments) →
    ∀ argument ∈ arguments, p argument

theorem WellFormed.hereditary : Hereditary WellFormed where
  wellFormed := id
  desugar := WellFormed.desugar
  contents := contents_of_parts (p := WellFormed) rfl (fun h => h) (fun h => h)
    (fun h => (WellFormed.mapOf_iff.mp h).2) (fun h => h) WellFormed.tupleOf_iff.mp
    WellFormed.anyOf_iff.mp
  key h := (WellFormed.mapOf_iff.mp h).1
  arguments h := WellFormed.custom_iff.mp h

/-! ## Depth -/

mutual

/-- How many specifications lie around one another at most, not counting custom ones' arguments. -/
def depth : Spec → Nat
  | .arrayOf element => depth element + 1
  | .objectOf content => depth content + 1
  | .mapOf _ content => depth content + 1
  | .setOf element => depth element + 1
  | .tupleOf specs => depthAmong specs + 1
  | .anyOf specs => depthAmong specs + 1
  | _ => 0

/-- The greatest depth among several specifications. -/
def depthAmong : List Spec → Nat
  | [] => 0
  | spec :: rest => max (depth spec) (depthAmong rest)

end

theorem depth_le_depthAmong {specs : List Spec} {spec : Spec} (h : spec ∈ specs) :
    spec.depth ≤ depthAmong specs := by
  induction specs with
  | nil => cases h
  | cons first rest ih =>
      simp only [depthAmong]
      rcases List.mem_cons.mp h with rfl | hrest
      · exact Nat.le_max_left _ _
      · exact Nat.le_trans (ih hrest) (Nat.le_max_right _ _)

end Spec

end JsonDecoding
