import JsonDecoding.Proofs.Closed
import JsonDecoding.Spec.Construction

/-!
# Coercions

What coercion makes of annotations. It gives well-formed specifications only, as long as those that
are in an annotation are well-formed already (`Proper.wellFormed_of_coerce`), and it gives one for
every annotation that is supported (`Supported.coerces`). So do the functions that make a
specification out of annotations (`Construction.made`).
-/

namespace JsonDecoding

/-- Whether parameters of a type are annotations that coercion goes into. -/
def Generic.isContainer : Generic → Bool
  | .type => false
  | .plain _ => false
  | _ => true

namespace Spec

/-! ## Annotations -/

/-- An annotation in which coercion meets well-formed specifications only. The items of tuples and
lists, into which it does not go, are such annotations too if it is `deep`. -/
inductive Proper (deep : Bool) : Spec → Prop where
  | specification {spec : Spec} (h : spec.WellFormed) : Proper deep spec
  | builtin {type : Builtin} : Proper deep (.builtin type)
  | named {name home : Text} {mark : Nat} : Proper deep (.named name home mark)
  | symbol {name label : Text} : Proper deep (.symbol name label)
  | token {value : Data} : Proper deep (.token value)
  | written {text : Text} : Proper deep (.written text)
  | generic {head : Generic} {parameters : List Spec}
      (h : head.isContainer = true → ∀ parameter ∈ parameters, Proper deep parameter) :
      Proper deep (.generic head parameters)
  | union {form : UnionForm} {members : List Spec} (h : ∀ member ∈ members, Proper deep member) :
      Proper deep (.union form members)
  | several {form : SequenceForm} {items : List Spec}
      (h : deep = true → ∀ item ∈ items, Proper deep item) : Proper deep (.several form items)

/-- An annotation that coercion can be given: it makes a well-formed specification of it, if any. -/
abbrev Admissible (hint : Spec) : Prop := hint.Proper false

/-- An annotation that stands for a specification: a specification, a type, a name or a symbol, a
datum that has a hash, an annotation in writing, a type with parameters, of which a mapping type has
not just one, a union, or a tuple. -/
inductive Supported : Spec → Prop where
  | specification {spec : Spec} (h : spec.WellFormed) : Supported spec
  | builtin {type : Builtin} : Supported (.builtin type)
  | named {name home : Text} {mark : Nat} : Supported (.named name home mark)
  | symbol {name label : Text} : Supported (.symbol name label)
  | token {value : Data} (h : value.unhashable? = none) : Supported (.token value)
  | written {text : Text} : Supported (.written text)
  | generic {head : Generic} {parameters : List Spec}
      (hmapping : head = .dict → parameters.length ≠ 1)
      (h : head.isContainer = true → ∀ parameter ∈ parameters, Supported parameter) :
      Supported (.generic head parameters)
  | union {form : UnionForm} {members : List Spec} (h : ∀ member ∈ members, Supported member) :
      Supported (.union form members)
  | tuple {items : List Spec} : Supported (.several .tuple items)

theorem Supported.admissible {hint : Spec} (h : hint.Supported) : hint.Admissible := by
  induction h with
  | specification h => exact .specification h
  | builtin => exact .builtin
  | named => exact .named
  | symbol => exact .symbol
  | token => exact .token
  | written => exact .written
  | generic _ _ ih => exact .generic ih
  | union _ ih => exact .union ih
  | tuple => exact .several (by simp)

/-- What is proper deep down is admissible. -/
theorem Proper.admissible {hint : Spec} (h : hint.Proper true) : hint.Admissible := by
  induction h with
  | specification h => exact .specification h
  | builtin => exact .builtin
  | named => exact .named
  | symbol => exact .symbol
  | token => exact .token
  | written => exact .written
  | generic _ ih => exact .generic ih
  | union _ ih => exact .union ih
  | several => exact .several (by simp)

/-! ## Well-formed specifications -/

theorem WellFormed.any : any.WellFormed := rfl

theorem WellFormed.string : string.WellFormed := rfl

/-- A well-formed specification is coerced to itself. -/
theorem WellFormed.coerce_eq {spec : Spec} (h : spec.WellFormed) : spec.coerce = .ok spec :=
  Outcomes.mapError_ok.mp h.specOf_eq

theorem coerceEach_eq_map (hints : List Spec) : coerceEach hints = hints.map coerce := by
  induction hints with
  | nil => rfl
  | cons hint rest ih => rw [coerceEach, ih, List.map_cons]

section Results

variable {results : List (Except Misuse Spec)} {spec : Spec}

/-- What several results are together is among them. -/
theorem mapM_id_ok {specs : List Spec} (h : results.mapM id = .ok specs) (hmem : spec ∈ specs) :
    .ok spec ∈ results := by
  obtain ⟨result, hresult, hok⟩ := Outcomes.exists_of_mem_mapM h hmem
  exact hok ▸ hresult

theorem firstOrAny_ok (h : firstOrAny results = .ok spec) : spec = .any ∨ .ok spec ∈ results := by
  cases results with
  | nil =>
      cases h
      exact .inl rfl
  | cons first rest =>
      obtain rfl : first = .ok spec := h
      exact .inr (List.mem_cons_self ..)

theorem coercedMap_ok (h : coercedMap results = .ok spec) :
    ∃ key content, spec = .mapOf key content ∧
      (key = .string ∧ content = .any ∨ .ok key ∈ results ∧ .ok content ∈ results) := by
  unfold coercedMap at h
  split at h
  · cases h
    exact ⟨_, _, rfl, .inl ⟨rfl, rfl⟩⟩
  · obtain ⟨key, -, hmissing⟩ := Outcomes.bind_ok.mp h
    cases hmissing
  · obtain ⟨key, hkey, hvalue⟩ := Outcomes.bind_ok.mp h
    obtain ⟨content, hcontent, rfl⟩ := Outcomes.map_ok.mp hvalue
    exact ⟨key, content, rfl, .inr ⟨by simp [hkey], by simp [hcontent]⟩⟩

theorem coercedTuple_ok {parameters : List Spec} (h : coercedTuple parameters results = .ok spec) :
    (∃ element, spec = .arrayOf element ∧ .ok element ∈ results) ∨
      ∃ specs, spec = .tupleOf specs ∧ ∀ part ∈ specs, .ok part ∈ results := by
  unfold coercedTuple at h
  split at h
  · obtain ⟨element, helement, rfl⟩ := Outcomes.map_ok.mp h
    exact .inl ⟨element, rfl, by simp [helement]⟩
  · obtain ⟨specs, hspecs, rfl⟩ := Outcomes.map_ok.mp h
    exact .inr ⟨specs, rfl, fun part => mapM_id_ok hspecs⟩

end Results

/-- What coercion gives is coerced to itself. -/
theorem coerce_eq_of_coerce {hint spec : Spec} (h : hint.coerce = .ok spec) :
    spec.coerce = .ok spec := by
  cases hint with
  | builtin type => cases type <;> cases h <;> rfl
  | token value =>
      rcases eq_of_coerce_token h with rfl | rfl
      · rfl
      · rfl
  | generic head parameters =>
      cases head with
      | list | set | frozenset =>
          obtain ⟨element, -, rfl⟩ := Outcomes.map_ok.mp h
          rfl
      | dict =>
          obtain ⟨key, content, rfl, -⟩ := coercedMap_ok h
          rfl
      | tuple =>
          rcases coercedTuple_ok h with ⟨element, rfl, -⟩ | ⟨specs, rfl, -⟩
          · rfl
          · rfl
      | _ =>
          cases h
          rfl
  | union form members =>
      obtain ⟨specs, -, rfl⟩ := Outcomes.map_ok.mp h
      rfl
  | several form items =>
      cases form with
      | tuple =>
          cases h
          rfl
      | list => cases h
  | _ =>
      cases h
      rfl

section Results

variable {results : List (Except Misuse Spec)} {spec : Spec}

theorem wellFormed_firstOrAny (h : ∀ result, .ok result ∈ results → result.WellFormed)
    (hfirst : firstOrAny results = .ok spec) : spec.WellFormed := by
  rcases firstOrAny_ok hfirst with rfl | hmem
  · exact .any
  · exact h spec hmem

theorem wellFormed_coercedMap (h : ∀ result, .ok result ∈ results → result.WellFormed)
    (hmap : coercedMap results = .ok spec) : spec.WellFormed := by
  obtain ⟨key, content, rfl, ⟨rfl, rfl⟩ | ⟨hkey, hcontent⟩⟩ := coercedMap_ok hmap
  · exact WellFormed.mapOf_iff.mpr ⟨.string, .any⟩
  · exact WellFormed.mapOf_iff.mpr ⟨h key hkey, h content hcontent⟩

theorem wellFormed_coercedTuple {parameters : List Spec}
    (h : ∀ result, .ok result ∈ results → result.WellFormed)
    (htuple : coercedTuple parameters results = .ok spec) : spec.WellFormed := by
  rcases coercedTuple_ok htuple with ⟨element, rfl, helement⟩ | ⟨specs, rfl, hspecs⟩
  · exact h element helement
  · exact WellFormed.tupleOf_iff.mpr fun part hpart => h part (hspecs part hpart)

end Results

/-- **Coercion gives well-formed specifications.** -/
theorem Proper.wellFormed_of_coerce {deep : Bool} {hint : Spec} (h : hint.Proper deep) {spec : Spec}
    (hspec : hint.coerce = .ok spec) : spec.WellFormed := by
  induction h generalizing spec with
  | specification h =>
      cases h.coerce_eq.symm.trans hspec
      exact h
  | @builtin type =>
      cases hspec
      cases type <;> rfl
  | @token value =>
      rcases eq_of_coerce_token hspec with rfl | rfl
      · rfl
      · rfl
  | named | symbol | written =>
      cases hspec
      rfl
  | @generic head parameters _ ih =>
      -- the parameters of other heads than containers are never coerced
      have hresults (hhead : head.isContainer = true) :
          ∀ result, .ok result ∈ coerceEach parameters → result.WellFormed := by
        intro result hresult
        rw [coerceEach_eq_map] at hresult
        obtain ⟨parameter, hmem, hcoerce⟩ := List.mem_map.mp hresult
        exact ih hhead parameter hmem hcoerce
      cases head with
      | list | set | frozenset =>
          obtain ⟨element, helement, rfl⟩ := Outcomes.map_ok.mp hspec
          have hwell := wellFormed_firstOrAny (hresults rfl) helement
          exact hwell
      | dict => exact wellFormed_coercedMap (hresults rfl) hspec
      | tuple => exact wellFormed_coercedTuple (hresults rfl) hspec
      | type | plain =>
          cases hspec
          rfl
  | @union form members _ ih =>
      obtain ⟨specs, hspecs, rfl⟩ := Outcomes.map_ok.mp hspec
      refine WellFormed.anyOf_iff.mpr fun part hpart => ?_
      have hresult := mapM_id_ok hspecs hpart
      rw [coerceEach_eq_map] at hresult
      obtain ⟨member, hmem, hcoerce⟩ := List.mem_map.mp hresult
      exact ih member hmem hcoerce
  | @several form items =>
      cases form with
      | tuple =>
          cases hspec
          rfl
      | list => cases hspec

/-! ## Supported annotations -/

section Results

variable {results : List (Except Misuse Spec)}

theorem exists_firstOrAny (h : ∀ result ∈ results, ∃ spec, result = .ok spec) :
    ∃ spec, firstOrAny results = .ok spec := by
  cases results with
  | nil => exact ⟨_, rfl⟩
  | cons first rest => exact h first (List.mem_cons_self ..)

/-- A mapping type lacks a parameter only where it has just one. -/
theorem exists_coercedMap (h : ∀ result ∈ results, ∃ spec, result = .ok spec)
    (hlength : results.length ≠ 1) : ∃ spec, coercedMap results = .ok spec := by
  match results with
  | [] => exact ⟨_, rfl⟩
  | [_] => exact (hlength rfl).elim
  | key :: content :: rest =>
      simp only [List.mem_cons, forall_eq_or_imp] at h
      obtain ⟨⟨key, rfl⟩, ⟨content, rfl⟩, -⟩ := h
      exact ⟨_, rfl⟩

theorem exists_coercedTuple (parameters : List Spec)
    (h : ∀ result ∈ results, ∃ spec, result = .ok spec) :
    ∃ spec, coercedTuple parameters results = .ok spec := by
  unfold coercedTuple
  split
  · next element _ =>
      obtain ⟨spec, hspec⟩ := h element (List.mem_cons_self ..)
      exact ⟨_, Outcomes.map_ok.mpr ⟨spec, hspec, rfl⟩⟩
  · obtain ⟨specs, hspecs⟩ := Outcomes.exists_mapM_ok (f := id) h
    exact ⟨_, Outcomes.map_ok.mpr ⟨specs, hspecs, rfl⟩⟩

end Results

/-- **A supported annotation stands for a specification.** -/
theorem Supported.exists_coerce {hint : Spec} (h : hint.Supported) :
    ∃ spec, hint.coerce = .ok spec := by
  induction h with
  | specification h => exact ⟨_, h.coerce_eq⟩
  | @token value hvalue =>
      have hmutable := isMutable_of_unhashable? hvalue
      cases value with
      | null => exact ⟨_, rfl⟩
      | _ => exact ⟨_, by simp only [coerce, hmutable]; rfl⟩
  | builtin | named | symbol | written | tuple => exact ⟨_, rfl⟩
  | @generic head parameters hmapping _ ih =>
      have hresults (hhead : head.isContainer = true) :
          ∀ result ∈ coerceEach parameters, ∃ spec, result = .ok spec := by
        rw [coerceEach_eq_map]
        exact List.forall_mem_map.mpr (ih hhead)
      cases head with
      | list | set | frozenset =>
          obtain ⟨element, helement⟩ := exists_firstOrAny (hresults rfl)
          exact ⟨_, Outcomes.map_ok.mpr ⟨element, helement, rfl⟩⟩
      | dict =>
          refine exists_coercedMap (hresults rfl) ?_
          rw [coerceEach_eq_map, List.length_map]
          exact hmapping rfl
      | tuple => exact exists_coercedTuple parameters (hresults rfl)
      | type | plain => exact ⟨_, rfl⟩
  | @union form members _ ih =>
      have hresults : ∀ result ∈ coerceEach members, ∃ spec, result = .ok spec := by
        rw [coerceEach_eq_map]
        exact List.forall_mem_map.mpr ih
      obtain ⟨specs, hspecs⟩ := Outcomes.exists_mapM_ok (f := id) hresults
      exact ⟨_, Outcomes.map_ok.mpr ⟨specs, hspecs, rfl⟩⟩

/-- **Coercion is final**: what a supported annotation stands for is well-formed and stands for
itself. -/
theorem Supported.coerces {hint : Spec} (h : hint.Supported) :
    ∃ spec, hint.coerce = .ok spec ∧ spec.WellFormed ∧ spec.coerce = .ok spec := by
  obtain ⟨spec, hspec⟩ := h.exists_coerce
  have hwell := h.admissible.wellFormed_of_coerce hspec
  exact ⟨spec, hspec, hwell, hwell.coerce_eq⟩

theorem wellFormed_of_coerceAll {hints specs : List Spec} (h : ∀ hint ∈ hints, hint.Admissible)
    (hspecs : coerceAll hints = .ok specs) : ∀ spec ∈ specs, spec.WellFormed := by
  intro spec hmem
  obtain ⟨hint, hhint, hcoerce⟩ := Outcomes.exists_of_mem_mapM hspecs hmem
  exact (h hint hhint).wellFormed_of_coerce hcoerce

/-- Several supported annotations stand for well-formed specifications together. -/
theorem exists_coerceAll {hints : List Spec} (h : ∀ hint ∈ hints, hint.Supported) :
    ∃ specs, coerceAll hints = .ok specs ∧ ∀ spec ∈ specs, spec.WellFormed := by
  obtain ⟨specs, hspecs⟩ := Outcomes.exists_mapM_ok fun hint hmem => (h hint hmem).exists_coerce
  exact ⟨specs, hspecs, wellFormed_of_coerceAll (fun hint hmem => (h hint hmem).admissible) hspecs⟩

end Spec

/-! ## Specifications that are made -/

namespace Construction

/-- A part that is given is supported, and so is the specification in the place of one that is
not. -/
theorem exists_part {part : Option Spec} {otherwise : Spec} (h : ∀ hint ∈ part, hint.Supported)
    (hotherwise : otherwise.WellFormed) :
    ∃ spec, (part.getD otherwise).coerce = .ok spec ∧ spec.WellFormed := by
  have hpart : (part.getD otherwise).Supported := by
    cases part with
    | none => exact .specification hotherwise
    | some hint => exact h hint rfl
  obtain ⟨spec, hspec, hwell, -⟩ := hpart.coerces
  exact ⟨spec, hspec, hwell⟩

/-- **What is made of supported annotations** is a well-formed specification. -/
theorem made {construction : Construction} (h : ∀ hint ∈ construction.hints, hint.Supported) :
    ∃ spec, construction.spec = .ok spec ∧ spec.WellFormed := by
  cases construction with
  | array part | object part | set part =>
      obtain ⟨spec, hspec, hwell⟩ := exists_part (by simpa [hints] using h) .any
      exact ⟨_, Outcomes.map_ok.mpr ⟨spec, hspec, rfl⟩, hwell⟩
  | map key content =>
      simp only [hints, List.mem_append, Option.mem_toList] at h
      obtain ⟨key, hkey, hkeyWell⟩ := exists_part (fun hint hmem => h hint (.inl hmem)) .string
      obtain ⟨content, hcontent, hcontentWell⟩ :=
        exists_part (fun hint hmem => h hint (.inr hmem)) .any
      exact ⟨.mapOf key content,
        Outcomes.bind_ok.mpr ⟨key, hkey, Outcomes.map_ok.mpr ⟨content, hcontent, rfl⟩⟩,
        Spec.WellFormed.mapOf_iff.mpr ⟨hkeyWell, hcontentWell⟩⟩
  | tuple =>
      obtain ⟨specs, hspecs, hwell⟩ := Spec.exists_coerceAll h
      exact ⟨_, Outcomes.map_ok.mpr ⟨specs, hspecs, rfl⟩, Spec.WellFormed.tupleOf_iff.mpr hwell⟩
  | anyOf =>
      obtain ⟨specs, hspecs, hwell⟩ := Spec.exists_coerceAll h
      exact ⟨_, Outcomes.map_ok.mpr ⟨specs, hspecs, rfl⟩, Spec.WellFormed.anyOf_iff.mpr hwell⟩
  | custom =>
      obtain ⟨specs, hspecs, hwell⟩ := Spec.exists_coerceAll h
      exact ⟨_, Outcomes.map_ok.mpr ⟨specs, hspecs, rfl⟩, Spec.WellFormed.custom_iff.mpr hwell⟩

end Construction

end JsonDecoding
