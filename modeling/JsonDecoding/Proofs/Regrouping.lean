import JsonDecoding.Proofs.Choice
import JsonDecoding.Proofs.Numerals
import JsonDecoding.Schema.Standard

/-!
# Regrouping alternatives

To write the members of a union in place of the union, among the alternatives of another one,
changes nothing about what decoding yields (`Spec.Regrouped.yields_iff`), wherever the two unions
stand in a specification. Records may differ: an alternative that cannot be resolved is told of with
the union that it stands in. Members inside a union need room for one decoding more, so the two
specifications are compared with one room more for the second (`Attempt.Agrees`).
-/

namespace JsonDecoding

open Attempt Decoder

/-! ## Attempts that agree -/

/-- Unless it runs out of room, the first attempt ends as the second one does. -/
def Attempt.Agrees {α : Type} (t u : Attempt α) : Prop :=
  t.result = .error .exhausted ∨ t.result = u.result

namespace Attempt.Agrees

variable {α β : Type} {t u : Attempt α}

theorem refl (t : Attempt α) : t.Agrees t := .inr rfl

theorem of_settles (h : t.Settles u) : t.Agrees u := h.imp_right (congrArg Attempt.result)

theorem mapStop (h : t.Agrees u) {f : Stop → Stop} (hf : f .exhausted = .exhausted) :
    (t.mapStop f).Agrees (u.mapStop f) := by
  rcases h with h | h
  · exact .inl (by simp [h, hf, Except.mapError])
  · exact .inr (by simp [h])

theorem map (h : t.Agrees u) (f : α → β) : (t.map f).Agrees (u.map f) := by
  rcases h with h | h
  · exact .inl (map_error.mpr h)
  · exact .inr (by simp [h])

theorem bind (h : t.Agrees u) {next other : α → Attempt β}
    (hnext : ∀ a, (next a).Agrees (other a)) : (t.bind next).Agrees (u.bind other) := by
  rcases h with h | h
  · exact .inl (bind_error.mpr (.inl h))
  · simp only [Agrees, result_bind, ← h]
    cases t.result with
    | error stop => exact .inr rfl
    | ok a => exact hnext a

/-- An attempt at a part, and what comes after it. -/
theorem part (h : t.Agrees u) (location : Location) {next other : α → Attempt β}
    (hnext : ∀ a, (next a).Agrees (other a)) :
    ((t.located location).bind next).Agrees ((u.located location).bind other) :=
  (h.mapStop rfl).bind hnext

theorem framed {t u : Attempt Data} (h : t.Agrees u) {room more : Nat} (hroom : room ≤ more)
    (description : Text) (value : Json) :
    (t.framed room description value).Agrees (u.framed more description value) := by
  rcases h with h | h
  · exact .inl (by simp [Attempt.framed, h, Except.mapError])
  · simp only [Agrees, Attempt.framed, result_mapStop, ← h]
    rcases t.result with ⟨e | fault | _⟩ | data
    · rcases unshown?_of_le hroom value with hexhausted | hsame
      · exact .inl (by simp [Except.mapError, shownAs, hexhausted])
      · exact .inr (by simp [Except.mapError, shownAs, hsame])
    all_goals exact .inr rfl

end Attempt.Agrees

/-! ## Containers -/

namespace Decoder

theorem elements_agrees {f g : Json → Attempt Data} (h : ∀ value, (f value).Agrees (g value))
    (index : Nat) (items : List Json) :
    (elements f index items).Agrees (elements g index items) := by
  induction items generalizing index with
  | nil => exact .refl _
  | cons item rest ih => exact (h item).part _ fun data => (ih _).map _

theorem entries_agrees {f g : Json → Attempt Data} (h : ∀ value, (f value).Agrees (g value))
    (fields : List (Text × Json)) : (entries f fields).Agrees (entries g fields) := by
  induction fields with
  | nil => exact .refl _
  | cons field rest ih => exact (h field.2).part _ fun data => ih.map _

variable {step more : Spec → Json → Attempt Data}

theorem positions_agrees {specs others : List Spec}
    (h : List.Forall₂ (fun spec other => ∀ value, (step spec value).Agrees (more other value))
      specs others) (index : Nat) (items : List Json) :
    (positions step index specs items).Agrees (positions more index others items) := by
  induction h generalizing index items with
  | nil => exact .refl _
  | cons hfirst _ ih =>
      cases items with
      | nil => exact .refl _
      | cons item rest => exact (hfirst item).part _ fun data => (ih _ _).map _

theorem tupleOf_agrees {specs others : List Spec}
    (h : List.Forall₂ (fun spec other => ∀ value, (step spec value).Agrees (more other value))
      specs others) (value : Json) :
    (tupleOf step specs value).Agrees (tupleOf more others value) := by
  simp only [tupleOf, h.length_eq]
  split
  · split
    · exact (positions_agrees h _ _).map _
    · exact .refl _
  · exact .refl _

end Decoder

/-! ## Regrouping -/

/-- The second specification is the first one with alternatives regrouped at one place: the members
of a union stand in place of the union among the alternatives of another one, or the other way
round. -/
inductive Spec.Regrouped : Spec → Spec → Prop where
  | flattened {before members after : List Spec} (h : members ≠ []) :
      Regrouped (.anyOf (before ++ .anyOf members :: after)) (.anyOf (before ++ (members ++ after)))
  | nested {before members after : List Spec} (h : members ≠ []) :
      Regrouped (.anyOf (before ++ (members ++ after))) (.anyOf (before ++ .anyOf members :: after))
  | arrayOf {spec other : Spec} (h : Regrouped spec other) :
      Regrouped (.arrayOf spec) (.arrayOf other)
  | objectOf {spec other : Spec} (h : Regrouped spec other) :
      Regrouped (.objectOf spec) (.objectOf other)
  | mapOf {key spec other : Spec} (h : Regrouped spec other) :
      Regrouped (.mapOf key spec) (.mapOf key other)
  | setOf {spec other : Spec} (h : Regrouped spec other) : Regrouped (.setOf spec) (.setOf other)
  | tupleOf {before after : List Spec} {spec other : Spec} (h : Regrouped spec other) :
      Regrouped (.tupleOf (before ++ spec :: after)) (.tupleOf (before ++ other :: after))
  | anyOf {before after : List Spec} {spec other : Spec} (h : Regrouped spec other) :
      Regrouped (.anyOf (before ++ spec :: after)) (.anyOf (before ++ other :: after))

theorem Text.joined_cons {separator t : Text} {texts : List Text} (h : texts ≠ []) :
    joined separator (t :: texts) = t ++ separator ++ joined separator texts := by
  cases texts with
  | nil => exact absurd rfl h
  | cons => rfl

theorem Text.joined_append {separator : Text} {texts others : List Text} (h : texts ≠ [])
    (hothers : others ≠ []) :
    joined separator (texts ++ others) =
      joined separator texts ++ separator ++ joined separator others := by
  induction texts with
  | nil => exact absurd rfl h
  | cons t rest ih =>
      cases rest with
      | nil => exact joined_cons hothers
      | cons u rest =>
          rw [List.cons_append, joined_cons (by simp), ih (by simp),
            joined_cons (t := t) (List.cons_ne_nil u rest)]
          simp only [List.append_assoc]

/-- Texts that were joined before stand for themselves. -/
theorem Text.joined_splice (separator : Text) (before after : List Text) {members : List Text}
    (h : members ≠ []) :
    joined separator (before ++ joined separator members :: after) =
      joined separator (before ++ (members ++ after)) := by
  induction before with
  | nil =>
      cases after with
      | nil => simp [joined]
      | cons t rest =>
          rw [List.nil_append, List.nil_append, joined_cons (by simp), joined_append h (by simp)]
  | cons t before ih =>
      rw [List.cons_append, List.cons_append, joined_cons (by simp), joined_cons (by simp [h]), ih]

theorem expectation_of_ne_nil {specs : List Spec} (h : specs ≠ []) :
    expectation specs = Text.joined (Text.lit " or ") (specs.map Spec.describe) := by
  cases specs with
  | nil => exact absurd rfl h
  | cons => rfl

/-- A union expects what its members do. -/
theorem expectation_flattened {before members after : List Spec} (h : members ≠ []) :
    expectation (before ++ .anyOf members :: after) =
      expectation (before ++ (members ++ after)) := by
  rw [expectation_of_ne_nil (by simp), expectation_of_ne_nil (by simp [h]), List.map_append,
    List.map_cons, Spec.describe_anyOf, expectation_of_ne_nil h,
    Text.joined_splice _ _ _ (by simpa), List.map_append, List.map_append]

theorem Spec.flawAmong?_append (specs others : List Spec) :
    flawAmong? (specs ++ others) = (flawAmong? specs).or (flawAmong? others) := by
  induction specs with
  | nil => rfl
  | cons spec rest ih => rw [List.cons_append, flawAmong?, ih, flawAmong?, Option.or_assoc]

namespace Spec.Regrouped

variable {spec other : Spec}

theorem symm (h : spec.Regrouped other) : other.Regrouped spec := by
  induction h with
  | flattened h => exact .nested h
  | nested h => exact .flattened h
  | arrayOf _ ih => exact .arrayOf ih
  | objectOf _ ih => exact .objectOf ih
  | mapOf _ ih => exact .mapOf ih
  | setOf _ ih => exact .setOf ih
  | tupleOf _ ih => exact .tupleOf ih
  | anyOf _ ih => exact .anyOf ih

/-- Regrouping takes place inside of containers and unions only. -/
theorem plain (h : spec.Regrouped other) :
    ¬spec.IsCustom ∧ spec.desugar = spec ∧ spec.isAny = false := by
  cases h <;> exact ⟨id, rfl, rfl⟩

/-- Regrouping changes no description. -/
theorem describe_eq (h : spec.Regrouped other) : spec.describe = other.describe := by
  induction h with
  | flattened h => rw [describe_anyOf, describe_anyOf, expectation_flattened h]
  | nested h => rw [describe_anyOf, describe_anyOf, expectation_flattened h]
  | arrayOf h ih => simp [describe, h.plain.2.2, h.symm.plain.2.2, ih]
  | objectOf h ih => simp [describe, h.plain.2.2, h.symm.plain.2.2, ih]
  | mapOf _ ih => simp only [describe, ih]
  | setOf h ih => simp [describe, h.plain.2.2, h.symm.plain.2.2, ih]
  | tupleOf _ ih =>
      simp only [describe, describeAll_eq_map, List.map_append, List.map_cons, ih]
  | anyOf _ ih =>
      rw [describe_anyOf, describe_anyOf, expectation_of_ne_nil (by simp),
        expectation_of_ne_nil (by simp)]
      simp only [List.map_append, List.map_cons, ih]

/-- Regrouping brings in no flaw, and loses none. -/
theorem flaw?_eq (h : spec.Regrouped other) : spec.flaw? = other.flaw? := by
  induction h with
  | flattened | nested => simp only [flaw?, flawAmong?, flawAmong?_append]
  | tupleOf _ ih | anyOf _ ih => simp only [flaw?, flawAmong?, flawAmong?_append, ih]
  | mapOf _ ih => simp only [flaw?, ih]
  | arrayOf _ ih | objectOf _ ih | setOf _ ih => exact ih

theorem hasDescription (h : spec.Regrouped other) (hspec : spec.HasDescription) :
    other.HasDescription := h.flaw?_eq.symm.trans hspec

end Spec.Regrouped

/-! ## Decoding by regrouped specifications -/

namespace Decoder

variable {registry : Registry} {spec other : Spec} {value : Json} {room : Nat}

theorem findSome?_cons_eq_or {α β : Type} (f : α → Option β) (a : α) (rest : List α) :
    (a :: rest).findSome? f = (f a).or (rest.findSome? f) := by
  rw [List.findSome?_cons]
  cases f a <;> rfl

/-- What an alternative decides with some room. -/
abbrev decides (registry : Registry) (room : Nat) (value : Json) (spec : Spec) :
    Option (Except Stop Data) := decision (decode registry room spec value).result

/-- Unless room runs out, two decisions are the same. -/
def Concur (decided other : Option (Except Stop Data)) : Prop :=
  decided = some (.error .exhausted) ∨ decided = other

namespace Concur

variable {decided later same last : Option (Except Stop Data)}

theorem refl (decided : Option (Except Stop Data)) : Concur decided decided := .inr rfl

theorem of_agrees {t u : Attempt Data} (h : t.Agrees u) :
    Concur (decision t.result) (decision u.result) := by
  rcases h with h | h
  · exact .inl (by simp [h, decision])
  · exact .inr (by rw [h])

/-- The first of two decisions, or else the second. -/
theorem or (h : Concur decided same) (hlater : Concur later last) :
    Concur (decided.or later) (same.or last) := by
  rcases h with rfl | rfl
  · exact .inl rfl
  · cases decided with
    | none => exact hlater
    | some => exact .inr rfl

theorem findSome? {f g : Spec → Option (Except Stop Data)} {specs others : List Spec}
    (h : List.Forall₂ (fun spec other => Concur (f spec) (g other)) specs others) :
    Concur (specs.findSome? f) (others.findSome? g) := by
  induction h with
  | nil => exact .inr rfl
  | cons hfirst _ ih =>
      rw [findSome?_cons_eq_or, findSome?_cons_eq_or]
      exact hfirst.or ih

/-- Decisions taken with less room are the same with more. -/
theorem of_le {more : Nat} (hroom : room ≤ more) (specs : List Spec) :
    Concur (specs.findSome? (decides registry room value))
      (specs.findSome? (decides registry more value)) :=
  findSome? (List.forall₂_same.mpr fun spec _ =>
    of_agrees (.of_settles (decode_settles registry hroom spec value)))

end Concur

/-- What a union decides inside of another one: what its members decide. Where none of them decides
anything, the value could be shown. -/
theorem decides_anyOf {members : List Spec} (hmembers : ∀ spec ∈ members, spec.HasDescription)
    (h : members ≠ []) :
    decides registry (room + 1) value (.anyOf members) =
      members.findSome? (decides registry room value) := by
  rw [decides, result_decode_anyOf hmembers]
  cases hfirst : members.findSome? (decides registry room value) with
  | some decided =>
      obtain ⟨spec, -, hspec⟩ := List.exists_of_findSome?_eq_some hfirst
      exact decision_of_not_failed (not_failed_of_decision hspec)
  | none =>
      -- there is a member, and its failure shows the value
      obtain ⟨spec, hspec⟩ := List.exists_mem_of_ne_nil members h
      obtain ⟨e, he, -⟩ := decision_eq_none.mp (List.findSome?_eq_none_iff.mp hfirst spec hspec)
      obtain ⟨-, -, hshowable, -, -⟩ := within_of_failed he
      rw [Option.getD_none, undecided_of_isShowable ⟨by have := hshowable.depth_le; omega,
        hshowable.isShort⟩]
      rfl

/-- A union among alternatives decides what its members decide in its place. -/
theorem concur_flattened {members : List Spec} (hmembers : ∀ spec ∈ members, spec.HasDescription)
    (h : members ≠ []) :
    Concur (decides registry room value (.anyOf members))
      (members.findSome? (decides registry (room + 1) value)) := by
  cases room with
  | zero => exact .inl rfl
  | succ room =>
      rw [decides_anyOf hmembers h]
      exact .of_le (by omega) members

/-- It is enough that both do alike with the value themselves: the frame is the same. -/
theorem agrees_of_matching (h : spec.Regrouped other) (hspec : spec.HasDescription)
    (hmatching : ∀ room, (matching (decode registry room) spec value).Agrees
      (matching (decode registry (room + 1)) other value)) (room : Nat) :
    (decode registry room spec value).Agrees (decode registry (room + 1) other value) := by
  cases room with
  | zero => exact .inl rfl
  | succ room =>
      rw [decode_of_not_custom h.plain.1, decode_of_not_custom h.symm.plain.1, h.plain.2.1,
        h.symm.plain.2.1, framedBy_of_hasDescription hspec,
        framedBy_of_hasDescription (h.hasDescription hspec), h.describe_eq]
      exact (hmatching room).framed (by omega) _ _

/-- Unions agree when their alternatives concur. -/
theorem matching_anyOf_agrees {step more : Spec → Json → Attempt Data} {specs others : List Spec}
    (hspecs : (Spec.anyOf specs).HasDescription) (hothers : (Spec.anyOf others).HasDescription)
    (hdescribe : (Spec.anyOf specs).describe = (Spec.anyOf others).describe)
    (h : Concur (specs.findSome? fun spec => decision (step spec value).result)
      (others.findSome? fun spec => decision (more spec value).result)) :
    (matching step (.anyOf specs) value).Agrees (matching more (.anyOf others) value) := by
  change (firstOf step (.anyOf specs) value specs).Agrees
    (firstOf more (.anyOf others) value others)
  simp only [Agrees, result_firstOf hspecs (Spec.HasDescription.anyOf_iff.mp hspecs),
    result_firstOf hothers (Spec.HasDescription.anyOf_iff.mp hothers), hdescribe]
  rcases h with h | h
  · exact .inl (by rw [h]; rfl)
  · exact .inr (by rw [h])

/-- The set of items depends on its specification only in what a failure tells. -/
theorem setOf_agrees {element other : Spec} (h : element.Regrouped other)
    (hspec : element.HasDescription) (value : Json) (items : List Data) :
    (setOf (.setOf element) value items).Agrees (setOf (.setOf other) value items) := by
  have hset : (Spec.setOf element).HasDescription := hspec
  have hother : (Spec.setOf other).HasDescription := h.hasDescription hspec
  unfold setOf
  split
  · exact .refl _
  · exact .refl _
  · rw [describable_of_hasDescription hset, describable_of_hasDescription hother,
      (Spec.Regrouped.setOf h).describe_eq]
    exact .refl _

/-- **Regrouping agrees**: with one room more, a regrouped specification ends as the first one. -/
theorem decode_agrees (h : spec.Regrouped other) (hspec : spec.HasDescription) (room : Nat)
    (value : Json) :
    (decode registry room spec value).Agrees (decode registry (room + 1) other value) := by
  induction h generalizing room value with
  | @flattened before members after hmembers =>
      have h : (Spec.anyOf (before ++ .anyOf members :: after)).Regrouped
          (.anyOf (before ++ (members ++ after))) := .flattened hmembers
      refine agrees_of_matching h hspec (fun room => ?_) room
      have hunion := Spec.HasDescription.anyOf_iff.mp hspec (.anyOf members) (by simp)
      refine matching_anyOf_agrees hspec (h.hasDescription hspec) h.describe_eq ?_
      rw [List.findSome?_append, findSome?_cons_eq_or, List.findSome?_append,
        List.findSome?_append]
      exact (Concur.of_le (by omega) before).or
        ((concur_flattened (Spec.HasDescription.anyOf_iff.mp hunion) hmembers).or
          (Concur.of_le (by omega) after))
  | @nested before members after hmembers =>
      have h : (Spec.anyOf (before ++ (members ++ after))).Regrouped
          (.anyOf (before ++ .anyOf members :: after)) := .nested hmembers
      refine agrees_of_matching h hspec (fun room => ?_) room
      have hspecs := Spec.HasDescription.anyOf_iff.mp hspec
      refine matching_anyOf_agrees hspec (h.hasDescription hspec) h.describe_eq ?_
      rw [List.findSome?_append, List.findSome?_append, List.findSome?_append,
        findSome?_cons_eq_or]
      have hnested : decides registry (room + 1) value (.anyOf members) =
          members.findSome? (decides registry room value) :=
        decides_anyOf (fun spec hmem => hspecs spec (by simp [hmem])) hmembers
      exact (Concur.of_le (by omega) before).or
        (Concur.or (.inr hnested.symm) (Concur.of_le (by omega) after))
  | arrayOf h ih =>
      refine agrees_of_matching (.arrayOf h) hspec (fun room => ?_) room
      cases value with
      | array items => exact (elements_agrees (ih hspec room) 0 items).map _
      | _ => exact .refl _
  | objectOf h ih =>
      refine agrees_of_matching (.objectOf h) hspec (fun room => ?_) room
      cases value with
      | object fields => exact (entries_agrees (ih hspec room) fields).map _
      | _ => exact .refl _
  | mapOf h ih =>
      refine agrees_of_matching (.mapOf h) hspec (fun room => ?_) room
      have hcontent := (Spec.HasDescription.mapOf_iff.mp hspec).2
      simp only [matching]
      split
      · cases value with
        | object fields => exact (entries_agrees (ih hcontent room) fields).map _
        | _ => exact .refl _
      · exact .refl _
  | setOf h ih =>
      refine agrees_of_matching (.setOf h) hspec (fun room => ?_) room
      cases value with
      | array items => exact (elements_agrees (ih hspec room) 0 items).bind (setOf_agrees h hspec _)
      | _ => exact .refl _
  | @tupleOf before after spec other h ih =>
      refine agrees_of_matching (.tupleOf h) hspec (fun room => ?_) room
      have hinner := Spec.HasDescription.tupleOf_iff.mp hspec spec (by simp)
      have hsame {specs : List Spec} : List.Forall₂ (fun spec other => ∀ value,
          (decode registry room spec value).Agrees (decode registry (room + 1) other value))
          specs specs :=
        List.forall₂_same.mpr fun spec _ value =>
          .of_settles (decode_settles registry (by omega) spec value)
      exact tupleOf_agrees (List.rel_append hsame (.cons (ih hinner room) hsame)) value
  | @anyOf before after spec other h ih =>
      refine agrees_of_matching (.anyOf h) hspec (fun room => ?_) room
      have hinner := Spec.HasDescription.anyOf_iff.mp hspec spec (by simp)
      refine matching_anyOf_agrees hspec ((Spec.Regrouped.anyOf h).hasDescription hspec)
        (Spec.Regrouped.anyOf h).describe_eq ?_
      rw [List.findSome?_append, findSome?_cons_eq_or, List.findSome?_append,
        findSome?_cons_eq_or]
      exact (Concur.of_le (by omega) before).or
        ((Concur.of_agrees (ih hinner room value)).or (Concur.of_le (by omega) after))

end Decoder

/-! ## What regrouping leaves alone -/

namespace Spec.Regrouped

variable {registry : Registry} {spec other : Spec} {value : Json} {result : Except Stop Data}

theorem yields (h : spec.Regrouped other) (hspec : spec.HasDescription)
    (hyields : Yields registry spec value result) : Yields registry other value result := by
  obtain ⟨hresult, room, rfl⟩ := hyields
  refine ⟨hresult, room + 1, ?_⟩
  exact (((decode_agrees h hspec room value).resolve_left hresult)).symm

/-- **Regrouping changes nothing** about what decoding yields. -/
theorem yields_iff (h : spec.Regrouped other) (hspec : spec.HasDescription) :
    Yields registry spec value result ↔ Yields registry other value result :=
  ⟨h.yields hspec, h.symm.yields (h.hasDescription hspec)⟩

end Spec.Regrouped

/-- **A union is an ordered choice with a flat report**, as long as its alternatives can be described
and the errors that handlers answer name only what can be. It ends as the first of its alternatives
that does not fail on the value; if all of them fail, it fails in one frame at the root, which names
the alternatives and nothing of their failures. So grouping is irrelevant: the members of a union
may stand in its place among the alternatives of another one, anywhere in a specification, and what
decoding yields is the same, be it data, a failure with its frames or a fault. -/
theorem unions_choose_in_order (registry : Registry) :
    (registry.AnswersWell → ∀ specs : List Spec, (∀ spec ∈ specs, spec.HasDescription) →
      ∀ value : Json, value.IsShort → ∀ result,
        (Yields registry (.anyOf specs) value result ↔ Chosen registry value specs result) ∧
        (unmatched specs value).path = []) ∧
    ∀ spec other : Spec, spec.Regrouped other → spec.HasDescription →
      other.describe = spec.describe ∧
      ∀ value result, Yields registry spec value result ↔ Yields registry other value result :=
  ⟨fun hregistry specs hspecs value hvalue _ =>
    ⟨yields_anyOf hregistry hspecs hvalue, path_unmatched specs value⟩,
    fun _ _ h hspec => ⟨h.describe_eq.symm, fun _ _ => h.yields_iff hspec⟩⟩

/-- An array of ghosts that no schema is known for stands in front of a union. -/
theorem unions_choose_in_order_for_ghosts :
    let registry : Registry := Standard.registry
    let ghosts : Spec := .arrayOf (.custom (.symbol (Text.lit "Ghost") []) [])
    let grouped : List Spec := [ghosts, .anyOf [.primitive .boolean, .string]]
    let flat : List Spec := [ghosts, .primitive .boolean, .string]
    let value : Json := .array [.null]
    registry.AnswersWell ∧ (∀ spec ∈ grouped, spec.HasDescription) ∧ value.IsShort ∧
      (Spec.anyOf grouped).Regrouped (.anyOf flat) ∧
      Yields registry (.anyOf grouped) value (.error (.failed (unmatched grouped value))) ∧
      Yields registry (.anyOf flat) value (.error (.failed (unmatched grouped value))) := by
  intro registry ghosts grouped flat value
  have hregistry : registry.AnswersWell := by
    intro entry hentry arguments description shape act hbuild
    simp only [registry, Standard.registry, List.mem_cons, List.not_mem_nil, or_false] at hentry
    rcases hentry with rfl | rfl | rfl | rfl <;> cases hbuild
  have hspecs : ∀ spec ∈ grouped, spec.HasDescription := by
    simp only [grouped, List.mem_cons, List.not_mem_nil, or_false]
    rintro spec (rfl | rfl) <;> rfl
  have hregrouped : (Spec.anyOf grouped).Regrouped (.anyOf flat) :=
    @Spec.Regrouped.flattened [ghosts] [.primitive .boolean, .string] [] (by simp)
  have hall : AllFail registry value grouped := by
    intro spec hspec
    simp only [grouped, List.mem_cons, List.not_mem_nil, or_false] at hspec
    rcases hspec with rfl | rfl <;> exact ⟨_, by simp, 3, rfl⟩
  obtain ⟨hchoice, hgroups⟩ := unions_choose_in_order registry
  have hyields := (hchoice hregistry grouped hspecs value rfl _).1.mpr (.none hall)
  exact ⟨hregistry, hspecs, rfl, hregrouped, hyields,
    ((hgroups _ _ hregrouped (Spec.HasDescription.anyOf_iff.mpr hspecs)).2 value _).mp hyields⟩

/-- A union of well-formed alternatives does not get past one whose failure cannot be told. Here a
handler answers that an annotation is an unknown specification; there the union itself cannot be
described, since the identity of the alternative that would decode the value shows an integer that
has too many digits. -/
theorem unions_do_not_get_past_untold_failures :
    (let stranger : Spec := .symbol (Text.lit "Stranger") []
      let blaming : DecodeError := .ofCause (.unknownSpec (.builtin .int))
      let schema : Schema := .raw (Text.lit "Stranger") none (.answer fun _ => .error blaming)
      let registry : Registry := ⟨[(stranger, ⟨fun _ => .ok schema, 0, [], Text.lit "Stranger"⟩)]⟩
      let specs : List Spec := [.custom stranger [], .any]
      (∀ spec ∈ specs, spec.HasDescription) ∧ Chosen registry .null specs (.ok .null) ∧
        Yields registry (.anyOf specs) .null (.error (.faulted (.notASpecification (.builtin .int))))) ∧
    ∃ great : Nat, great = 10 ^ Text.digitLimit ∧
      let ghost : Spec := .custom (.symbol (Text.lit "Ghost") []) []
      let unnamed : Spec := .arrayOf (.custom (.token (.int great)) [])
      let specs : List Spec := [ghost, unnamed]
      Registry.empty.AnswersWell ∧ (∀ spec ∈ specs, spec.WellFormed) ∧
        Chosen .empty (.array []) specs (.ok (.list [])) ∧
        Yields .empty (.anyOf specs) (.array []) (.error (.faulted .overlong)) := by
  constructor
  · intro stranger blaming schema registry specs
    have hfails : AllFail registry .null [.custom stranger []] := by
      simp only [AllFail, List.mem_singleton, forall_eq]
      exact ⟨_, by simp, 1, rfl⟩
    have hany : Yields registry .any .null (.ok .null) := ⟨by simp, 1, rfl⟩
    refine ⟨?_, @Chosen.first registry .null _ [] _ _ hfails hany (by simp), by simp, 2, rfl⟩
    simp only [specs, List.mem_cons, List.not_mem_nil, or_false]
    rintro spec (rfl | rfl) <;> rfl
  · obtain ⟨great, hgreat⟩ : ∃ great : Nat, great = 10 ^ Text.digitLimit := ⟨_, rfl⟩
    have hlong := Text.isOverlong_of_eq hgreat
    refine ⟨great, hgreat, ?_⟩
    intro ghost unnamed specs
    have hfails : AllFail .empty (.array []) [ghost] := by
      simp only [AllFail, List.mem_singleton, forall_eq]
      exact ⟨_, by simp, 2, rfl⟩
    have harray : Yields .empty unnamed (.array []) (.ok (.list [])) := ⟨by simp, 1, rfl⟩
    have hflaw : (Spec.anyOf specs).flaw? = some .overlong := by
      simp [specs, ghost, unnamed, Spec.flaw?, Spec.flawAmong?, Spec.isNameable, Spec.isOverlong,
        Data.isOverlong, hlong]
    refine ⟨by simp [Registry.AnswersWell, Registry.empty], ?_,
      @Chosen.first .empty (.array []) _ [] _ _ hfails harray (by simp), by simp, 3, ?_⟩
    · simp only [specs, List.mem_cons, List.not_mem_nil, or_false]
      rintro spec (rfl | rfl) <;> rfl
    · have hghost : ∃ frames, (decode .empty 2 ghost (.array [])).result =
          .error (.failed ⟨.unknownSpec ghost, frames⟩) := ⟨_, rfl⟩
      obtain ⟨frames, hghost⟩ := hghost
      have hunion : (matching (decode .empty 2) (.anyOf specs) (.array [])).result =
          .error (.faulted .overlong) := by
        simp only [matching, firstOf, specs, hghost, result_after, unresolved]
        rw [describable_of_hasDescription (show ghost.HasDescription from rfl)]
        simp only [describable, show (Spec.anyOf [ghost, unnamed]).flaw? = _ from hflaw]
        rfl
      rw [decode_of_not_custom id, Spec.desugar, framedBy, result_mapStop]
      · rw [hunion]
        rfl
      all_goals simp

end JsonDecoding
