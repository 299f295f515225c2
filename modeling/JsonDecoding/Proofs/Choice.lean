import JsonDecoding.Proofs.Arrivals
import JsonDecoding.Proofs.Termination

/-!
# Ordered choice

A union decodes a value as the first of its alternatives that does (`yields_anyOf`). What the
alternatives in front of it failed of is not told: where none decodes the value, the failure is one
frame that names them all (`unmatched`). Only an alternative that ends in a fault stops the search.
-/

namespace JsonDecoding

open Attempt Decoder

variable {registry : Registry} {spec : Spec} {specs : List Spec} {value : Json}
  {result : Except Stop Data}

/-! ## What decoding yields -/

/-- The result of decoding a value by a specification with room enough. -/
def Yields (registry : Registry) (spec : Spec) (value : Json) (result : Except Stop Data) : Prop :=
  result ≠ .error .exhausted ∧ ∃ room, (decode registry room spec value).result = result

/-- All of some specifications fail on a value. -/
def AllFail (registry : Registry) (value : Json) (specs : List Spec) : Prop :=
  ∀ spec ∈ specs, ∃ e, Yields registry spec value (.error (.failed e))

namespace Yields

theorem exists_room (h : Yields registry spec value result) :
    ∃ room, (decode registry room spec value).Finishes := by
  obtain ⟨hresult, room, rfl⟩ := h
  exact ⟨room, hresult⟩

/-- Wherever there is room enough, decoding ends in what it yields. -/
theorem result_eq (h : Yields registry spec value result) {room : Nat}
    (hroom : (decode registry room spec value).Finishes) :
    (decode registry room spec value).result = result := by
  obtain ⟨hresult, other, rfl⟩ := h
  rw [← decode_of_le (Nat.le_max_left room other) hroom,
    decode_of_le (Nat.le_max_right room other) hresult]

/-- Decoding yields one result at most. -/
theorem unique {other : Except Stop Data} (h : Yields registry spec value result)
    (hother : Yields registry spec value other) : result = other := by
  obtain ⟨room, hroom⟩ := h.exists_room
  rw [← h.result_eq hroom, hother.result_eq hroom]

end Yields

/-- Specifications that fail with some room all fail. -/
theorem AllFail.of_room {room : Nat}
    (h : ∀ spec ∈ specs, ∃ e, (decode registry room spec value).result = .error (.failed e)) :
    AllFail registry value specs := by
  intro spec hspec
  obtain ⟨e, he⟩ := h spec hspec
  exact ⟨e, by simp, room, he⟩

/-! ## Failures that can be told -/

/-- The errors that handlers answer name only specifications that can be described, as long as the
errors of what they have decoded do so. -/
def Registry.AnswersWell (r : Registry) : Prop :=
  ∀ entry ∈ r.entries, ∀ arguments description shape act,
    entry.2.build arguments = .ok (.raw description shape (.script act)) →
      ∀ value, (act value).Within (fun _ => True) (fun _ => True) Spec.HasDescription

/-- A specification that can be described refuses a value without blame for one that cannot. -/
theorem Decoder.Refusal.within_of_hasDescription {step : Spec → Json → Attempt Data} {cause : Cause}
    (h : Refusal registry step spec value cause) (hspec : spec.HasDescription) :
    cause.Within Spec.HasDescription := by
  cases h with
  | key => exact (Spec.HasDescription.mapOf_iff.mp hspec).1
  | unregistered => exact hspec
  | _ => trivial

/-- So does a registered schema, whatever its arguments are. -/
theorem Decoder.Refusal.within_of_resolve {step : Spec → Json → Attempt Data} {cause : Cause}
    {identity : Spec} {arguments : List Spec} {factory : Factory}
    (h : Refusal registry step (.custom identity arguments) value cause)
    (hresolve : registry.resolve identity = some factory) :
    cause.Within Spec.HasDescription := by
  cases h with
  | unregistered hnone => cases hresolve.symm.trans hnone
  | _ => trivial

/-- What the step that decodes the parts fails with can be told. -/
def TellsFailures (step : Spec → Json → Attempt Data) : Prop :=
  ∀ spec value e, (step spec value).result = .error (.failed e) →
    e.cause.Within Spec.HasDescription

/-- A failure can be told if every refusal and every failure of a part can. -/
theorem Decoder.FailsAs.within {step : Spec → Json → Attempt Data} {e : DecodeError}
    (h : FailsAs registry step spec value e)
    (hrefusal : ∀ cause, Refusal registry step spec value cause →
      cause.Within Spec.HasDescription)
    (hstep : TellsFailures step) : e.cause.Within Spec.HasDescription := by
  rcases h with ⟨cause, rfl, h⟩ | ⟨location, inner, part, deeper, -, -, hdeeper, rfl⟩
  · exact hrefusal cause h
  · rw [DecodeError.cause_locatedAt]
    exact hstep inner part deeper hdeeper

namespace Registry.AnswersWell

/-- What a handler answers or hands on fails in a way that can be told. -/
theorem within_of_handled (h : registry.AnswersWell) {identity : Spec} {arguments : List Spec}
    {factory : Factory} {description : Text} {shape : Option Tag} {handler : Handler}
    (hresolve : registry.resolve identity = some factory)
    (hcall : factory.call arguments = .ok (.raw description shape handler))
    {step : Spec → Json → Attempt Data} (hstep : TellsFailures step) {room : Nat} {e : DecodeError}
    (hfailed : (handled registry step room handler value).result = .error (.failed e)) :
    e.cause.Within Spec.HasDescription := by
  cases handler with
  | delegate hint label =>
      rcases bind_error.mp hfailed with hhint | ⟨next, -, hnext⟩
      · obtain ⟨fault, -, hstop⟩ := ofExcept_error.mp hhint
        cases hstop
      · exact hstep _ _ _ (map_error.mp hnext)
  | script act =>
      obtain ⟨key, hmem⟩ := mem_of_resolve hresolve
      have hact := h _ hmem _ _ _ _ (Factory.call_ok hcall) value
      have hanswer := (Procedure.run_failed hfailed).within
        (fun spec value e _ _ he => hstep spec value e he) hact
      exact hanswer

/-- So does a registered schema. -/
theorem within_of_bySchema (h : registry.AnswersWell) {identity : Spec} {arguments : List Spec}
    {factory : Factory} {schema : Schema} (hresolve : registry.resolve identity = some factory)
    (hcall : factory.call arguments = .ok schema) {step : Spec → Json → Attempt Data}
    (hstep : TellsFailures step) {room : Nat} {e : DecodeError}
    (hfailed : (bySchema registry step room schema value).result = .error (.failed e)) :
    e.cause.Within Spec.HasDescription := by
  by_cases hraw : schema.IsRaw
  · cases schema with
    | raw description shape handler =>
        simp only [bySchema] at hfailed
        split at hfailed
        · exact h.within_of_handled hresolve hcall hstep hfailed
        · cases hfailed
          trivial
    | _ => exact hraw.elim
  · exact (bySchema_failed hresolve hcall hraw hfailed).within
      (fun _ hrefusal => hrefusal.within_of_resolve hresolve) hstep

/-- **A failure can be told**, whatever stands in the registry: where decoding comes to a specification
that cannot be described, it ends in a fault. -/
theorem tellsFailures (h : registry.AnswersWell) (room : Nat) :
    TellsFailures (decode registry room) := by
  intro spec value e hfailed
  induction room generalizing spec value e with
  | zero => cases hfailed
  | succ room ih =>
      by_cases hcustom : spec.IsCustom
      · obtain ⟨identity, arguments, rfl⟩ : ∃ identity arguments,
            spec = .custom identity arguments := by
          cases spec <;> first | exact ⟨_, _, rfl⟩ | exact hcustom.elim
        simp only [decode, Spec.desugar, custom] at hfailed
        split at hfailed
        · next hresolve =>
            obtain ⟨hspec, inner, hinner, -, rfl⟩ := framedBy_failed.mp hfailed
            cases hinner
            exact hspec
        · next factory hresolve =>
            rcases bind_error.mp hfailed with hcall | ⟨schema, hschema, hdecoded⟩
            · obtain ⟨fault, -, hstop⟩ := ofExcept_error.mp hcall
              cases hstop
            · obtain ⟨inner, hinner, -, rfl⟩ := framed_failed.mp hdecoded
              rw [DecodeError.cause_within]
              exact h.within_of_bySchema hresolve (ofExcept_ok.mp hschema) ih hinner
      · rw [decode_of_not_custom hcustom] at hfailed
        obtain ⟨hspec, inner, hinner, -, rfl⟩ := framedBy_failed.mp hfailed
        have hfails : FailsAs registry (decode registry room) spec.desugar value inner :=
          matching_failed hinner
        exact hfails.within (fun _ hrefusal => hrefusal.within_of_hasDescription hspec) ih

end Registry.AnswersWell

/-! ## What alternatives decide -/

/-- What a union takes over from an alternative: success and faults. A failure decides nothing,
unless the record of it cannot be written. -/
def decision : Except Stop Data → Option (Except Stop Data)
  | .error (.failed ⟨.unknownSpec spec, _⟩) =>
      spec.flaw?.map fun flaw => .error (.faulted (.ofFlaw flaw))
  | .error (.failed _) => none
  | result => some result

theorem decision_of_not_failed (h : ∀ e, result ≠ .error (.failed e)) :
    decision result = some result := by
  unfold decision
  split
  · exact absurd rfl (h _)
  · exact absurd rfl (h _)
  · rfl

/-- A decision that was taken is no failure. -/
theorem not_failed_of_decision {decided : Except Stop Data} (h : decision result = some decided)
    (e : DecodeError) : decided ≠ .error (.failed e) := by
  rintro rfl
  unfold decision at h
  split at h
  · obtain ⟨hint, -, hfault⟩ := Option.map_eq_some_iff.mp h
    cases hfault
  · cases h
  · next hresult =>
      cases h
      exact hresult e rfl

/-- Failures that can be told decide nothing. -/
theorem decision_eq_none :
    decision result = none ↔
      ∃ e, result = .error (.failed e) ∧ e.cause.Within Spec.HasDescription := by
  rcases result with ⟨⟨cause, frames⟩ | fault | _⟩ | data
  · cases cause <;> simp [decision, Cause.Within, Spec.HasDescription]
  all_goals simp [decision]

namespace Decoder

variable {step : Spec → Json → Attempt Data} {whole : Spec}

/-- The record of an alternative is in the way of what follows exactly when it cannot be written. -/
theorem result_unresolved_eq {alternative : Spec} {e : DecodeError} (hwhole : whole.HasDescription)
    (halternative : alternative.HasDescription) (t : Attempt Data) :
    (unresolved whole alternative e t).result =
      (decision (.error (.failed e))).getD t.result := by
  obtain ⟨cause, frames⟩ := e
  cases cause with
  | unknownSpec spec =>
      simp only [unresolved]
      rw [describable_of_hasDescription halternative, describable_of_hasDescription hwhole]
      simp only [describable, decision]
      cases spec.flaw? <;> rfl
  | _ => rfl

/-- **A union is decided** by the first of its alternatives that decides anything. -/
theorem result_firstOf (hwhole : whole.HasDescription)
    (hspecs : ∀ spec ∈ specs, spec.HasDescription) :
    (firstOf step whole value specs).result =
      (specs.findSome? fun spec => decision (step spec value).result).getD
        (.error (.failed (.ofCause (.typeMismatch whole.describe value.tag.name value)))) := by
  induction specs with
  | nil =>
      rw [firstOf, describable_of_hasDescription hwhole]
      rfl
  | cons spec rest ih =>
      have hrest := ih fun other hother => hspecs other (List.mem_cons_of_mem _ hother)
      have hspec := hspecs spec (List.mem_cons_self ..)
      simp only [firstOf, List.findSome?_cons]
      split
      · next e he =>
          rw [result_after, he, result_unresolved_eq hwhole hspec, hrest]
          cases decision (.error (.failed e)) <;> rfl
      · next hother =>
          rw [decision_of_not_failed hother]
          rfl

end Decoder

/-! ## Choice -/

/-- What a union of some specifications expects. -/
def expectation : List Spec → Text
  | [] => Text.lit "nothing"
  | specs => Text.joined (Text.lit " or ") (specs.map Spec.describe)

/-- The error of a value that none of some specifications decodes: one frame, at the root. -/
def unmatched (specs : List Spec) (value : Json) : DecodeError :=
  ⟨.typeMismatch (expectation specs) value.tag.name value,
    [⟨expectation specs, value.seen, none⟩]⟩

/-- How a union of alternatives ends: as the first one that does not fail, with a failure of its own
if there is none. -/
inductive Chosen (registry : Registry) (value : Json) : List Spec → Except Stop Data → Prop where
  | first {before after : List Spec} {alternative : Spec} {result : Except Stop Data}
      (hbefore : AllFail registry value before) (h : Yields registry alternative value result)
      (hresult : ∀ e, result ≠ .error (.failed e)) :
      Chosen registry value (before ++ alternative :: after) result
  | none {specs : List Spec} (h : AllFail registry value specs) :
      Chosen registry value specs (.error (.failed (unmatched specs value)))

theorem Spec.describeAll_eq_map (specs : List Spec) :
    Spec.describeAll specs = specs.map Spec.describe := by
  induction specs with
  | nil => rfl
  | cons spec rest ih => rw [Spec.describeAll, ih, List.map_cons]

theorem Spec.describe_anyOf (specs : List Spec) :
    (Spec.anyOf specs).describe = expectation specs := by
  cases specs with
  | nil => rfl
  | cons spec rest => simp only [Spec.describe, expectation, Spec.describeAll_eq_map]

@[simp] theorem path_unmatched (specs : List Spec) (value : Json) :
    (unmatched specs value).path = [] := rfl

/-- What is left of a union when no alternative decides anything: its own failure, if the value can be
shown. -/
def undecided (room : Nat) (specs : List Spec) (value : Json) : Stop :=
  (unshown? room value).getD (.failed (unmatched specs value))

/-- How decoding by a union ends, in terms of what its alternatives decide. -/
theorem result_decode_anyOf (hspecs : ∀ spec ∈ specs, spec.HasDescription) (room : Nat) :
    (decode registry (room + 1) (.anyOf specs) value).result =
      (specs.findSome? fun spec => decision (decode registry room spec value).result).getD
        (.error (undecided room specs value)) := by
  have hwhole : (Spec.anyOf specs).HasDescription := Spec.HasDescription.anyOf_iff.mpr hspecs
  have hmatching : matching (decode registry room) (.anyOf specs) value =
      firstOf (decode registry room) (.anyOf specs) value specs := rfl
  rw [decode_of_not_custom id, Spec.desugar, framedBy_of_hasDescription hwhole, framed,
    result_mapStop, hmatching, result_firstOf hwhole hspecs, Spec.describe_anyOf]
  · cases hfirst :
        specs.findSome? fun spec => decision (decode registry room spec value).result with
    | none => rfl
    | some decided =>
        obtain ⟨spec, -, hspec⟩ := List.exists_of_findSome?_eq_some hfirst
        have hdecided := not_failed_of_decision hspec
        simp only [Option.getD_some]
        rcases decided with ⟨e | fault | _⟩ | data
        · exact absurd rfl (hdecided e)
        all_goals rfl
  all_goals simp

theorem undecided_of_isShowable {room : Nat} (h : value.IsShowable room) :
    undecided room specs value = .failed (unmatched specs value) := by
  rw [undecided, unshown?_eq_none.mpr h, Option.getD_none]

variable {room : Nat}

/-- Where failures can be told, an alternative that fails decides nothing. -/
theorem decision_decode_eq_none (hregistry : registry.AnswersWell) :
    decision (decode registry room spec value).result = none ↔
      ∃ e, (decode registry room spec value).result = .error (.failed e) := by
  rw [decision_eq_none]
  constructor
  · rintro ⟨e, he, -⟩
    exact ⟨e, he⟩
  · rintro ⟨e, he⟩
    exact ⟨e, he, hregistry.tellsFailures room spec value e he⟩

/-- Any other decides the union. -/
theorem decision_decode_eq_some (hregistry : registry.AnswersWell) :
    decision (decode registry room spec value).result = some result ↔
      (decode registry room spec value).result = result ∧ ∀ e, result ≠ .error (.failed e) := by
  constructor
  · intro h
    have hspec : ∀ e, (decode registry room spec value).result ≠ .error (.failed e) := by
      intro e he
      have hnone := (decision_decode_eq_none hregistry).mpr ⟨e, he⟩
      cases h.symm.trans hnone
    rw [decision_of_not_failed hspec, Option.some_inj] at h
    exact ⟨h, h ▸ hspec⟩
  · rintro ⟨rfl, hspec⟩
    exact decision_of_not_failed hspec

/-- A union ends as it has chosen. -/
theorem chosen_of_yields (hregistry : registry.AnswersWell)
    (hspecs : ∀ spec ∈ specs, spec.HasDescription) (hvalue : value.IsShort)
    (h : Yields registry (.anyOf specs) value result) : Chosen registry value specs result := by
  obtain ⟨hresult, room, hroom⟩ := h
  cases room with
  | zero => exact absurd hroom.symm hresult
  | succ room =>
      rw [result_decode_anyOf hspecs] at hroom
      have hfail {others : List Spec}
          (h : ∀ spec ∈ others, decision (decode registry room spec value).result = none) :
          AllFail registry value others :=
        .of_room fun spec hspec => (decision_decode_eq_none hregistry).mp (h spec hspec)
      cases hfirst : specs.findSome? fun spec =>
          decision (decode registry room spec value).result with
      | none =>
          rw [hfirst, Option.getD_none] at hroom
          by_cases hdepth : value.depth ≤ room
          · rw [undecided_of_isShowable ⟨hdepth, hvalue⟩] at hroom
            subst hroom
            exact .none (hfail (List.findSome?_eq_none_iff.mp hfirst))
          · rw [undecided, unshown?, if_pos (Nat.lt_of_not_le hdepth)] at hroom
            exact absurd hroom.symm hresult
      | some decided =>
          rw [hfirst, Option.getD_some] at hroom
          subst hroom
          obtain ⟨before, alternative, after, rfl, hdecided, hbefore⟩ :=
            List.findSome?_eq_some_iff.mp hfirst
          obtain ⟨hroom, hnot⟩ := (decision_decode_eq_some hregistry).mp hdecided
          exact .first (hfail hbefore) ⟨hresult, room, hroom⟩ hnot

/-- Specifications that all fail do so wherever there is room enough for them. -/
theorem AllFail.decide_nothing (hregistry : registry.AnswersWell) (h : AllFail registry value specs)
    (hroom : ∀ spec ∈ specs, (decode registry room spec value).Finishes) :
    (specs.findSome? fun spec => decision (decode registry room spec value).result) = none := by
  rw [List.findSome?_eq_none_iff]
  intro spec hspec
  obtain ⟨e, he⟩ := h spec hspec
  exact (decision_decode_eq_none hregistry).mpr ⟨e, he.result_eq (hroom spec hspec)⟩

/-- There is room enough for several specifications as soon as there is for each. -/
theorem exists_room_of_forall (h : ∀ spec ∈ specs, ∃ result, Yields registry spec value result) :
    ∃ room, value.depth ≤ room ∧ ∀ spec ∈ specs, (decode registry room spec value).Finishes := by
  have hcalls : ∀ call ∈ specs.map fun spec => (spec, value),
      ∃ room, (decode registry room call.1 call.2).Finishes := fun call hcall => by
    obtain ⟨spec, hspec, rfl⟩ := List.mem_map.mp hcall
    obtain ⟨result, hresult⟩ := h spec hspec
    exact hresult.exists_room
  obtain ⟨room, hroom⟩ := exists_common_room hcalls
  exact ⟨max room value.depth, Nat.le_max_right _ _, fun spec hspec =>
    finishes_of_le (Nat.le_max_left _ _) (hroom (spec, value) (List.mem_map_of_mem hspec))⟩

/-- What a union chooses is how it ends. -/
theorem yields_of_chosen (hregistry : registry.AnswersWell)
    (hspecs : ∀ spec ∈ specs, spec.HasDescription) (hvalue : value.IsShort)
    (h : Chosen registry value specs result) : Yields registry (.anyOf specs) value result := by
  cases h with
  | @first before after alternative _ hbefore halternative hnot =>
      have hyields : ∀ spec ∈ before ++ [alternative], ∃ result,
          Yields registry spec value result := fun spec hspec => by
        rcases List.mem_append.mp hspec with hspec | hspec
        · obtain ⟨e, he⟩ := hbefore spec hspec
          exact ⟨_, he⟩
        · obtain rfl := List.mem_singleton.mp hspec
          exact ⟨_, halternative⟩
      obtain ⟨room, -, hroom⟩ := exists_room_of_forall hyields
      have hresult := halternative.result_eq (hroom alternative (by simp))
      refine ⟨halternative.1, room + 1, ?_⟩
      rw [result_decode_anyOf hspecs, List.findSome?_append,
        hbefore.decide_nothing hregistry fun spec hspec => hroom spec (by simp [hspec]),
        Option.none_or, List.findSome?_cons, hresult, decision_of_not_failed hnot]
      rfl
  | none hall =>
      have hyields : ∀ spec ∈ specs, ∃ result, Yields registry spec value result :=
        fun spec hspec => by
          obtain ⟨e, he⟩ := hall spec hspec
          exact ⟨_, he⟩
      obtain ⟨room, hdepth, hroom⟩ := exists_room_of_forall hyields
      refine ⟨by simp, room + 1, ?_⟩
      rw [result_decode_anyOf hspecs, hall.decide_nothing hregistry hroom, Option.getD_none,
        undecided_of_isShowable ⟨hdepth, hvalue⟩]

/-- **A union is an ordered choice** among its alternatives. -/
theorem yields_anyOf (hregistry : registry.AnswersWell)
    (hspecs : ∀ spec ∈ specs, spec.HasDescription) (hvalue : value.IsShort) :
    Yields registry (.anyOf specs) value result ↔ Chosen registry value specs result :=
  ⟨chosen_of_yields hregistry hspecs hvalue, yields_of_chosen hregistry hspecs hvalue⟩

end JsonDecoding
