import JsonDecoding.Proofs.Coercions
import JsonDecoding.Proofs.Isolation

/-!
# Warnings about native types

A registration under a native type has no effect, since the type as an annotation stands for a
specification that looks nothing up (`decode_of_native`), and a warning says so. But native types
are not the only annotations that are never looked up (`isLookedUp_iff`): specifications, aliases,
containers with parameters and unions stand for specifications by their form. No warning is given
for these (`warnings_of_registration`).
-/

namespace JsonDecoding

namespace Spec

/-- Whether an annotation is looked up in the registry: it becomes a custom specification with
itself as identity. -/
def IsLookedUp (hint : Spec) : Prop := hint.coerce = .ok (.custom hint [])

/-- Whether an annotation stands for a specification by its form: it is a specification, an alias, a
container with parameters, or a union. -/
def isStructural : Spec → Bool
  | .builtin type => type.alias?.isSome
  | .generic head _ => head.isContainer
  | .named .. | .symbol .. | .token _ | .written _ | .several .. => false
  | _ => true

/-! ## What is looked up -/

section Results

variable {results : List (Except Misuse Spec)} {identity : Spec} {arguments : List Spec}

theorem coercedMap_ne_custom : coercedMap results ≠ .ok (.custom identity arguments) := by
  intro h
  obtain ⟨key, content, hmap, -⟩ := coercedMap_ok h
  cases hmap

theorem coercedTuple_ne_custom {parameters : List Spec} :
    coercedTuple parameters results ≠ .ok (.custom identity arguments) := by
  intro h
  rcases coercedTuple_ok h with ⟨element, harray, -⟩ | ⟨specs, htuple, -⟩
  · cases harray
  · cases htuple

end Results

theorem isLookedUp_builtin {type : Builtin} :
    (builtin type).IsLookedUp ↔ type.native? = none ∧ type.alias? = none := by
  cases type <;> simp [IsLookedUp, coerce, Builtin.native?, Builtin.alias?]

theorem isLookedUp_token {value : Data} (hhash : value.unhashable? = none) :
    (token value).IsLookedUp ↔ value ≠ .null := by
  have hmutable := isMutable_of_unhashable? hhash
  cases value with
  | null => simp [IsLookedUp, coerce]
  | _ => simp [IsLookedUp, coerce, hmutable]

theorem isLookedUp_generic {head : Generic} {parameters : List Spec} :
    (generic head parameters).IsLookedUp ↔ head.isContainer = false := by
  unfold IsLookedUp
  cases head with
  | list | set | frozenset =>
      simp only [Generic.isContainer, Bool.true_eq_false, iff_false]
      intro h
      obtain ⟨element, -, hcustom⟩ := Outcomes.map_ok.mp h
      cases hcustom
  | dict => simp [Generic.isContainer, coerce, coercedMap_ne_custom]
  | tuple => simp [Generic.isContainer, coerce, coercedTuple_ne_custom]
  | type | plain => simp [Generic.isContainer, coerce]

theorem not_isLookedUp_union {form : UnionForm} {members : List Spec} :
    ¬(union form members).IsLookedUp := by
  intro h
  obtain ⟨specs, -, hcustom⟩ := Outcomes.map_ok.mp h
  cases hcustom

/-- A custom specification stands for itself and not for one that has it as identity. -/
theorem not_isLookedUp_custom {identity : Spec} {arguments : List Spec} :
    ¬(custom identity arguments).IsLookedUp := by
  intro h
  have hsize := congrArg sizeOf (Except.ok.inj h)
  simp only [custom.sizeOf_spec] at hsize
  omega

/-- **What is looked up** are the possible keys that are neither native nor stand for a
specification by their form. -/
theorem isLookedUp_iff {hint : Spec} (hhash : hint.unhashable? = none) :
    hint.IsLookedUp ↔ hint.isNative = false ∧ hint.isStructural = false := by
  cases hint with
  | builtin type => simp [isLookedUp_builtin, isNative, isStructural]
  | token value => cases value <;> simp [isLookedUp_token hhash, isNative, isStructural]
  | generic => simp [isLookedUp_generic, isNative, isStructural]
  | union => simp [not_isLookedUp_union, isStructural]
  | custom => simp [not_isLookedUp_custom, isStructural]
  | several form items =>
      cases form with
      | tuple => simp [IsLookedUp, coerce, isNative, isStructural]
      | list => cases hhash
  | named | symbol | written => simp [IsLookedUp, coerce, isNative, isStructural]
  | _ => simp [IsLookedUp, coerce, isStructural]

/-- A native type does not stand for its specification by its form, and refers to no identities. -/
theorem of_isNative {hint : Spec} (h : hint.isNative = true) :
    hint.isStructural = false ∧ hint.mentions = [] ∧ ∃ spec, hint.coerce = .ok spec := by
  cases hint with
  | builtin type =>
      cases type <;> simp_all [isNative, isStructural, mentions, coerce, Builtin.native?,
        Builtin.alias?]
  | token value => cases value <;> simp_all [isNative, isStructural, mentions, coerce]
  | _ => cases h

end Spec

namespace Decoder

variable {hint spec : Spec}

/-- **What refers to no identities looks nothing up**: it decodes with every registry alike. -/
theorem decode_of_no_mentions (h : hint.mentions = []) (hspec : hint.coerce = .ok spec)
    (r s : Registry) (room : Nat) (value : Json) :
    decode r room spec value = decode s room spec value := by
  have hwithin : spec.RefersWithin fun _ => False := by
    intro identity hidentity
    have hhint := Spec.mentions_coerce hspec hidentity
    rw [h] at hhint
    cases hhint
  -- where nothing is referred to, every registry agrees with the one that has no entries
  have hempty (r : Registry) : decode r room spec = decode .empty room spec :=
    decode_agree (r := .empty) nofun ⟨nofun, fun h => (h .any).elim⟩ room spec hwithin
  rw [hempty r, hempty s]

/-- A native type as an annotation stands for a specification that decodes with every registry
alike. -/
theorem decode_of_native (h : hint.isNative = true) :
    ∃ spec, hint.coerce = .ok spec ∧ ∀ (r s : Registry) (room : Nat) (value : Json),
      decode r room spec value = decode s room spec value := by
  obtain ⟨-, hmentions, spec, hspec⟩ := Spec.of_isNative h
  exact ⟨spec, hspec, decode_of_no_mentions hmentions hspec⟩

end Decoder

/-! ## Warnings -/

namespace Registry

variable {r extended : Registry} {registration : Registration} {records : List Log.Record}

/-- The only warning that an accepted registration leaves is the one about native types. -/
theorem warnings_records (r : Registry) (identity : Spec) :
    ((r.records identity).filter fun record => record.level = .warning) =
      if identity.isNative then [.alwaysNative identity.identityName] else [] := by
  unfold records
  cases identity.isNative <;> cases (r.entries.lookup identity).isSome <;> rfl

/-- **Warnings are true, but not all that would be true are given.** An accepted registration leaves
one warning if its identity is a native type, and none otherwise. A native type is not looked up as
an annotation, and decodes with every registry alike; but of the identities that are not looked up
only those get the warning that do not stand for a specification by their form. -/
theorem warnings_of_registration (h : r.add registration = .ok (extended, records)) :
    let identity := registration.identity
    (records.filter fun record => record.level = .warning) =
      (if identity.isNative then [.alwaysNative identity.identityName] else []) ∧
    (identity.isNative = true → ∃ spec, identity.coerce = .ok spec ∧
      ∀ (s t : Registry) (room : Nat) (value : Json),
        Decoder.decode s room spec value = Decoder.decode t room spec value) ∧
    (identity.isNative = true ↔ ¬identity.IsLookedUp ∧ identity.isStructural = false) ∧
    (identity.isStructural = true → ¬identity.IsLookedUp) := by
  intro identity
  obtain ⟨factory, hfactory, hpair⟩ := Outcomes.map_ok.mp h
  cases hpair
  have hlooked := Spec.isLookedUp_iff (isHashable_of_factoryOf hfactory)
  refine ⟨warnings_records r _, Decoder.decode_of_native, ?_, ?_⟩
  · constructor
    · intro hnative
      exact ⟨by simp [identity, hlooked, hnative], (Spec.of_isNative hnative).1⟩
    · rintro ⟨hnot, hform⟩
      simpa [identity, hlooked, hform] using hnot
  · intro hform
    simp [identity, hlooked, hform]

/-- The warning about a schema for truth values. -/
theorem warnings_of_registration_for_bool :
    let identity : Spec := .builtin .bool
    let registration : Registration :=
      ⟨identity, .schema (.scalar (Text.lit "Flag") .string .ok), none, []⟩
    ∃ extended records, empty.add registration = .ok (extended, records) ∧
      (records.filter fun record => record.level = .warning) = [.alwaysNative (Text.lit "bool")] ∧
      ¬identity.IsLookedUp := by
  intro identity registration
  obtain ⟨extended, records, hadd⟩ : ∃ extended records,
    empty.add registration = .ok (extended, records) := ⟨_, _, rfl⟩
  obtain ⟨hwarnings, -, hnative, -⟩ := warnings_of_registration hadd
  exact ⟨extended, records, hadd, hwarnings, (hnative.mp rfl).1⟩

/-- A schema for the alias of lists is accepted without a word, although the alias is never looked
up: whatever is registered, it decodes as arrays of anything. -/
theorem alias_goes_unwarned :
    let identity : Spec := .builtin .listAlias
    let registration : Registration :=
      ⟨identity, .schema (.scalar (Text.lit "Items") .string .ok), none, []⟩
    (∃ extended, empty.add registration = .ok (extended, [])) ∧
      identity.coerce = .ok (.arrayOf .any) ∧ ¬identity.IsLookedUp ∧
      ∀ (r s : Registry) (room : Nat) (value : Json),
        Decoder.decode r room (.arrayOf .any) value =
          Decoder.decode s room (.arrayOf .any) value := by
  intro identity registration
  have hcoerce : identity.coerce = .ok (.arrayOf .any) := rfl
  exact ⟨⟨_, rfl⟩, hcoerce, nofun, Decoder.decode_of_no_mentions rfl hcoerce⟩

end Registry

end JsonDecoding
