import JsonDecoding.Attempt
import JsonDecoding.Proofs.Subspecs

/-!
# Flaws

What keeps a specification from being described and a value from being shown: an annotation where a
specification is due, an integer that has too many digits, or too little room.
-/

namespace JsonDecoding

namespace Spec

/-- A specification that can be described: all of its parts are specifications, and its identities
have names. -/
def HasDescription (spec : Spec) : Prop := spec.flaw? = none

mutual

/-- A stray annotation that a description meets is the first one there is. -/
theorem stray?_of_flaw? (spec : Spec) :
    (spec.flaw? = none → spec.stray? = none) ∧
      ∀ hint, spec.flaw? = some (.stray hint) → spec.stray? = some hint := by
  cases spec with
  | arrayOf element | objectOf element | setOf element =>
      simpa only [flaw?, stray?] using stray?_of_flaw? element
  | mapOf key value =>
      have hkey := stray?_of_flaw? key
      have hvalue := stray?_of_flaw? value
      cases hflaw : key.flaw? with
      | none => simpa [flaw?, stray?, hflaw, hkey.1 hflaw] using hvalue
      | some flaw =>
          refine ⟨by simp [flaw?, hflaw], fun hint h => ?_⟩
          have hstray := hkey.2 hint (by simpa [flaw?, hflaw] using h)
          simp [stray?, hstray]
  | tupleOf specs | anyOf specs =>
      simpa only [flaw?, stray?] using strayAmong?_of_flawAmong? specs
  | custom identity arguments =>
      by_cases hname : identity.isNameable = true
      · simpa [flaw?, stray?, hname] using strayAmong?_of_flawAmong? arguments
      · simp [flaw?, hname]
  | _ => simp [flaw?, stray?]

/-- A stray annotation that descriptions in order meet is the first one there is. -/
theorem strayAmong?_of_flawAmong? (specs : List Spec) :
    (flawAmong? specs = none → strayAmong? specs = none) ∧
      ∀ hint, flawAmong? specs = some (.stray hint) → strayAmong? specs = some hint := by
  cases specs with
  | nil => simp [flawAmong?, strayAmong?]
  | cons spec rest =>
      have hspec := stray?_of_flaw? spec
      cases hflaw : spec.flaw? with
      | none =>
          simpa [flawAmong?, strayAmong?, hflaw, hspec.1 hflaw] using
            strayAmong?_of_flawAmong? rest
      | some flaw =>
          refine ⟨by simp [flawAmong?, hflaw], fun hint h => ?_⟩
          have hstray := hspec.2 hint (by simpa [flawAmong?, hflaw] using h)
          simp [strayAmong?, hstray]

end

theorem HasDescription.wellFormed {spec : Spec} (h : spec.HasDescription) : spec.WellFormed :=
  (stray?_of_flaw? spec).1 h

/-- The only flaw of a specification all of whose parts are specifications is an integer that has too
many digits. -/
theorem WellFormed.flaw?_eq {spec : Spec} (h : spec.WellFormed) :
    spec.HasDescription ∨ spec.flaw? = some .overlong := by
  cases hflaw : spec.flaw? with
  | none => exact .inl hflaw
  | some flaw =>
      cases flaw with
      | overlong => exact .inr rfl
      | stray hint =>
          have hstray := (stray?_of_flaw? spec).2 hint hflaw
          rw [show spec.stray? = none from h] at hstray
          cases hstray

/-! ## Names of identities -/

/-- Whether a custom specification has an identity with a name. -/
def IsNamed : Spec → Prop
  | .custom identity _ => identity.isNameable = true
  | _ => True

/-- Every identity that a description names has a name. -/
def Named (spec : Spec) : Prop := spec.Every IsNamed

theorem flawAmong?_eq_none {specs : List Spec} :
    flawAmong? specs = none ↔ ∀ spec ∈ specs, spec.HasDescription := by
  induction specs with
  | nil => simp [flawAmong?]
  | cons spec rest ih => simp [flawAmong?, ih, HasDescription]

namespace HasDescription

variable {element content key : Spec} {specs : List Spec}

theorem setOf_iff : (setOf element).HasDescription ↔ element.HasDescription := Iff.rfl

theorem mapOf_iff :
    (mapOf key content).HasDescription ↔ key.HasDescription ∧ content.HasDescription := by
  simp [HasDescription, flaw?]

theorem tupleOf_iff : (tupleOf specs).HasDescription ↔ ∀ spec ∈ specs, spec.HasDescription :=
  flawAmong?_eq_none

theorem anyOf_iff : (anyOf specs).HasDescription ↔ ∀ spec ∈ specs, spec.HasDescription :=
  flawAmong?_eq_none

theorem custom_iff {identity : Spec} :
    (custom identity specs).HasDescription ↔
      identity.isNameable = true ∧ ∀ spec ∈ specs, spec.HasDescription := by
  rw [← flawAmong?_eq_none]
  by_cases hname : identity.isNameable = true <;> simp [HasDescription, flaw?, hname]

theorem desugar {spec : Spec} (h : spec.HasDescription) : spec.desugar.HasDescription := by
  cases spec with
  | bareArray | bareObject => rfl
  | _ => exact h

theorem hereditary : Hereditary HasDescription where
  wellFormed := HasDescription.wellFormed
  desugar := HasDescription.desugar
  contents := contents_of_parts (p := HasDescription) rfl (fun h => h) (fun h => h)
    (fun h => (HasDescription.mapOf_iff.mp h).2) (fun h => h) HasDescription.tupleOf_iff.mp
    HasDescription.anyOf_iff.mp
  key h := (HasDescription.mapOf_iff.mp h).1
  arguments h := (HasDescription.custom_iff.mp h).2

end HasDescription

mutual

/-- **A specification can be described** exactly when all of its parts are specifications and all of
its identities have names. -/
theorem hasDescription_iff : (spec : Spec) → (spec.HasDescription ↔ spec.WellFormed ∧ spec.Named)
  | .primitive _ | .bareArray | .bareObject => iff_of_true rfl ⟨rfl, trivial⟩
  | .arrayOf element | .objectOf element | .setOf element => by
      simpa [Named, Every, IsNamed, HasDescription, WellFormed, flaw?, stray?] using
        hasDescription_iff element
  | .mapOf key content => by
      rw [HasDescription.mapOf_iff, WellFormed.mapOf_iff, hasDescription_iff key,
        hasDescription_iff content]
      simp only [Named, Every, IsNamed, true_and]
      exact and_and_and_comm
  | .tupleOf specs => by
      rw [HasDescription.tupleOf_iff, WellFormed.tupleOf_iff, hasDescriptionAmong_iff specs]
      simp [Named, Every, IsNamed]
  | .anyOf specs => by
      rw [HasDescription.anyOf_iff, WellFormed.anyOf_iff, hasDescriptionAmong_iff specs]
      simp [Named, Every, IsNamed]
  | .custom identity arguments => by
      rw [HasDescription.custom_iff, WellFormed.custom_iff, hasDescriptionAmong_iff arguments]
      simp only [Named, Every, IsNamed]
      exact and_left_comm
  | .builtin _ | .named .. | .symbol .. | .token _ | .written _ | .generic .. | .union ..
  | .several .. => by simp [HasDescription, WellFormed, flaw?, stray?]

/-- The same of several specifications. -/
theorem hasDescriptionAmong_iff : (specs : List Spec) →
    ((∀ spec ∈ specs, spec.HasDescription) ↔
      (∀ spec ∈ specs, spec.WellFormed) ∧ EveryAmong IsNamed specs)
  | [] => by simp [EveryAmong]
  | spec :: rest => by
      simp only [List.forall_mem_cons, EveryAmong]
      rw [hasDescription_iff spec, hasDescriptionAmong_iff rest]
      exact and_and_and_comm

end

mutual

theorem CustomFree.named : (spec : Spec) → spec.CustomFree → spec.Named
  | .arrayOf element, h | .objectOf element, h | .setOf element, h =>
      ⟨trivial, CustomFree.named element h.2⟩
  | .mapOf key content, h =>
      ⟨trivial, CustomFree.named key h.2.1, CustomFree.named content h.2.2⟩
  | .tupleOf specs, h | .anyOf specs, h => ⟨trivial, CustomFree.namedAmong specs h.2⟩
  | .custom .., h => absurd trivial h.1
  | .primitive _, _ | .bareArray, _ | .bareObject, _ | .builtin _, _ | .named .., _
  | .symbol .., _ | .token _, _ | .written _, _ | .generic .., _ | .union .., _
  | .several .., _ => trivial

theorem CustomFree.namedAmong : (specs : List Spec) →
    EveryAmong (fun part => ¬part.IsCustom) specs → EveryAmong IsNamed specs
  | [], _ => trivial
  | spec :: rest, h => ⟨CustomFree.named spec h.1, CustomFree.namedAmong rest h.2⟩

end

/-- A well-formed specification without custom ones can be described. -/
theorem WellFormed.hasDescription {spec : Spec} (h : spec.WellFormed) (hfree : spec.CustomFree) :
    spec.HasDescription := (hasDescription_iff spec).mpr ⟨h, CustomFree.named spec hfree⟩

end Spec

/-- A value that a report can show: there is room for its depth, and none of its integers is too
long. -/
structure Json.IsShowable (value : Json) (room : Nat) : Prop where
  depth_le : value.depth ≤ room
  isShort : value.IsShort

namespace Attempt

theorem unshown?_eq_none {room : Nat} {value : Json} :
    unshown? room value = none ↔ value.IsShowable room := by
  unfold unshown?
  constructor
  · intro h
    split at h
    · cases h
    · split at h
      · cases h
      · exact ⟨Nat.le_of_not_lt ‹_›, eq_false_of_ne_true ‹_›⟩
  · rintro ⟨hdepth, hshort⟩
    rw [if_neg (Nat.not_lt.mpr hdepth), hshort]
    rfl

/-- A value that cannot be shown ends in want of room or in the fault of a long integer. -/
theorem unshown?_eq_some {room : Nat} {value : Json} {stop : Stop}
    (h : unshown? room value = some stop) :
    stop = .exhausted ∨ stop = .faulted .overlong ∧ value.isOverlong = true := by
  unfold unshown? at h
  split at h
  · cases h
    exact .inl rfl
  · split at h
    · cases h
      exact .inr ⟨rfl, ‹_›⟩
    · cases h

theorem unshown?_ne_exhausted {room : Nat} {value : Json} (hdepth : value.depth ≤ room) :
    unshown? room value ≠ some .exhausted := by
  unfold unshown?
  rw [if_neg (Nat.not_lt.mpr hdepth)]
  split <;> simp

/-- More room changes nothing for a value unless there was too little for its depth. -/
theorem unshown?_of_le {room more : Nat} (hroom : room ≤ more) (value : Json) :
    unshown? room value = some .exhausted ∨ unshown? room value = unshown? more value := by
  unfold unshown?
  by_cases hdepth : room < value.depth
  · exact .inl (if_pos hdepth)
  · have hmore : ¬more < value.depth := by omega
    exact .inr (by rw [if_neg hdepth, if_neg hmore])

theorem shownAs_failed {room : Nat} {description : Text} {value : Json} {inner e : DecodeError} :
    shownAs room description value inner = .failed e ↔
      value.IsShowable room ∧ e = inner.within description value := by
  rw [shownAs, ← unshown?_eq_none]
  cases hshown : unshown? room value with
  | none => simp [eq_comm]
  | some stop =>
      rcases unshown?_eq_some hshown with rfl | ⟨rfl, -⟩ <;> simp

end Attempt

end JsonDecoding
