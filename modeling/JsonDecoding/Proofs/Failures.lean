import JsonDecoding.Proofs.Containers
import JsonDecoding.Proofs.Places
import JsonDecoding.Proofs.Recipe
import JsonDecoding.Proofs.Subspecs

/-!
# Failures

Where a failed decoding comes from. Either a specification refuses its value itself, for one of a
few reasons (`Refusal`), or the decoding of one part failed, and the failure is that part's with
its location (`decode_failed`).
-/

namespace JsonDecoding

open Attempt

/-- A location for the outermost frame goes to the front of the path. -/
theorem DecodeError.path_locatedAt {e : DecodeError} {description seen : Text}
    {rest : List Frame} (h : e.frames = ⟨description, seen, none⟩ :: rest) (location : Location) :
    (e.locatedAt location).path = location :: e.path := by
  obtain ⟨cause, frames⟩ := e
  cases h
  rfl

namespace Decoder

/-- Why a value is refused by a specification itself, and not on account of one of its parts. -/
inductive Refusal (registry : Registry) (step : Spec → Json → Attempt Data) :
    Spec → Json → Cause → Prop where
  | mismatch {spec : Spec} {value : Json} {expected actual : Text} :
      Refusal registry step spec value (.typeMismatch expected actual value)
  | unhashable {element : Spec} {items : List Json} {data : List Data}
      {reason : Data.Unhashable} {description detail : Text}
      (hitems : (elements (step element) 0 items).result = .ok data)
      (hreason : Data.unhashableItem? data = some reason) :
      Refusal registry step (.setOf element) (.array items)
        (.invalid description (.array items) detail)
  | key {key content : Spec} {value : Json} (h : key.isString = false) :
      Refusal registry step (.mapOf key content) value (.unknownSpec key)
  | unregistered {identity : Spec} {arguments : List Spec} {value : Json}
      (h : registry.resolve identity = none) :
      Refusal registry step (.custom identity arguments) value
        (.unknownSpec (.custom identity arguments))
  | missing {identity : Spec} {arguments : List Spec} {factory : Factory} {description : Text}
      {fields : List Field} {assemble : Rule} {content : List (Text × Json)}
      (hresolve : registry.resolve identity = some factory)
      (hcall : factory.call arguments = .ok (.object description fields assemble)) :
      Refusal registry step (.custom identity arguments) (.object content)
        (.missingKeys (missingKeys fields content))
  | unknown {identity : Spec} {arguments : List Spec} {factory : Factory} {description : Text}
      {fields : List Field} {assemble : Rule} {content : List (Text × Json)}
      (hresolve : registry.resolve identity = some factory)
      (hcall : factory.call arguments = .ok (.object description fields assemble)) :
      Refusal registry step (.custom identity arguments) (.object content)
        (.unknownKeys (unknownKeys fields content))
  | rejected {identity : Spec} {arguments : List Spec} {factory : Factory} {schema : Schema}
      {value : Json} {detail : Text} (hresolve : registry.resolve identity = some factory)
      (hcall : factory.call arguments = .ok schema) :
      Refusal registry step (.custom identity arguments) value
        (.invalid schema.description value detail)

/-- How a specification fails on a value: it refuses the value, or one part has failed. -/
def FailsAs (registry : Registry) (step : Spec → Json → Attempt Data) (spec : Spec) (value : Json)
    (e : DecodeError) : Prop :=
  (∃ cause, e = .ofCause cause ∧ Refusal registry step spec value cause) ∨
  ∃ location inner part deeper, spec.Inner registry location inner ∧ value.HasPart location part ∧
    (step inner part).result = .error (.failed deeper) ∧ e = deeper.locatedAt location

variable {registry : Registry} {step : Spec → Json → Attempt Data}

/-! ## Failures of parts -/

theorem elements_failed {step : Json → Attempt Data} {items : List Json} {e : DecodeError}
    (h : (elements step 0 items).result = .error (.failed e)) :
    ∃ (index : Nat) (item : Json) (deeper : DecodeError), items[index]? = some item ∧
      (step item).result = .error (.failed deeper) ∧ e = deeper.locatedAt (.index index) := by
  rw [elements_eq] at h
  obtain ⟨location, t, deeper, hmem, ht, rfl⟩ := inOrder_failed h
  obtain ⟨⟨item, index⟩, hitem, heq⟩ := List.mem_map.mp hmem
  cases heq
  exact ⟨index, item, deeper, List.mem_zipIdx_iff_getElem?.mp hitem, ht, rfl⟩

theorem entries_failed {step : Json → Attempt Data} {fields : List (Text × Json)}
    {e : DecodeError} (h : (entries step fields).result = .error (.failed e)) :
    ∃ key item deeper, (key, item) ∈ fields ∧
      (step item).result = .error (.failed deeper) ∧ e = deeper.locatedAt (.key key) := by
  rw [entries_eq] at h
  obtain ⟨location, t, deeper, hmem, ht, rfl⟩ := inOrder_failed h
  obtain ⟨⟨key, item⟩, hfield, heq⟩ := List.mem_map.mp hmem
  cases heq
  exact ⟨key, item, deeper, hfield, map_error.mp ht, rfl⟩

theorem positions_failed {specs : List Spec} {items : List Json} {e : DecodeError}
    (h : (positions step 0 specs items).result = .error (.failed e)) :
    ∃ (index : Nat) (spec : Spec) (item : Json) (deeper : DecodeError),
      specs[index]? = some spec ∧ items[index]? = some item ∧
      (step spec item).result = .error (.failed deeper) ∧
      e = deeper.locatedAt (.index index) := by
  rw [positions_eq] at h
  obtain ⟨location, t, deeper, hmem, ht, rfl⟩ := inOrder_failed h
  obtain ⟨⟨⟨spec, item⟩, index⟩, hpart, heq⟩ := List.mem_map.mp hmem
  cases heq
  obtain ⟨hspec, hitem⟩ :=
    List.getElem?_zip_eq_some.mp (List.mem_zipIdx_iff_getElem?.mp hpart)
  exact ⟨index, spec, item, deeper, hspec, hitem, ht, rfl⟩

theorem declared_failed {object : List (Text × Json)} {fields : List Field} {e : DecodeError}
    (h : (declared step object fields).result = .error (.failed e)) :
    ∃ field item deeper, field ∈ fields ∧ object.lookup field.key = some item ∧
      (step field.spec item).result = .error (.failed deeper) ∧
      e = deeper.locatedAt (.key field.key) := by
  rw [declared_eq] at h
  obtain ⟨location, t, deeper, hmem, ht, rfl⟩ := inOrder_failed h
  obtain ⟨⟨field, item⟩, hpart, heq⟩ := List.mem_map.mp hmem
  cases heq
  obtain ⟨hfield, hitem⟩ := mem_present.mp hpart
  exact ⟨field, item, deeper, hfield, hitem, map_error.mp ht, rfl⟩

/-! ## Failures of specifications -/

/-- A refusal at once is the refusal of the specification. -/
theorem failsAs_of_refuse {spec : Spec} {value : Json} {cause : Cause} {e : DecodeError}
    {α : Type} (h : (refuse cause : Attempt α).result = .error (.failed e))
    (hcause : Refusal registry step spec value cause) : FailsAs registry step spec value e := by
  cases h
  exact .inl ⟨cause, rfl, hcause⟩

theorem failsAs_of_mismatch {spec : Spec} {value : Json} {expected : Text} {e : DecodeError}
    (h : (mismatch expected value).result = .error (.failed e)) :
    FailsAs registry step spec value e := failsAs_of_refuse h .mismatch

theorem failsAs_of_elements {spec element : Spec} {items : List Json} {e : DecodeError}
    (h : (elements (step element) 0 items).result = .error (.failed e))
    (hinner : ∀ index : Nat, spec.Inner registry (.index index) element) :
    FailsAs registry step spec (.array items) e := by
  obtain ⟨index, item, deeper, hitem, hfailed, rfl⟩ := elements_failed h
  exact .inr ⟨_, _, _, deeper, hinner index, .item hitem, hfailed, rfl⟩

theorem failsAs_of_entries {spec content : Spec} {fields : List (Text × Json)} {e : DecodeError}
    (h : (entries (step content) fields).result = .error (.failed e))
    (hinner : ∀ key : Text, spec.Inner registry (.key key) content) :
    FailsAs registry step spec (.object fields) e := by
  obtain ⟨key, item, deeper, hfield, hfailed, rfl⟩ := entries_failed h
  exact .inr ⟨_, _, _, deeper, hinner key, .field hfield, hfailed, rfl⟩

/-- Where a specification has a description, nothing is in the way of the attempt. -/
theorem describable_of_hasDescription {spec : Spec} (hspec : spec.HasDescription)
    (t : Attempt Data) : describable spec t = t := by
  have hflaw : spec.flaw? = none := hspec
  simp only [describable, hflaw]

/-- The first attempt ends as the second one does, unless it meets a flaw. -/
def UnlessFlawed (t u : Attempt Data) : Prop :=
  t.result = u.result ∨ ∃ flaw, t.result = .error (.faulted (.ofFlaw flaw))

namespace UnlessFlawed

variable {t u : Attempt Data}

theorem describable (h : UnlessFlawed t u) (spec : Spec) :
    UnlessFlawed (describable spec t) u := by
  unfold Decoder.describable
  split
  · exact h
  · exact .inr ⟨_, rfl⟩

theorem unresolved (h : UnlessFlawed t u) (whole alternative : Spec) (e : DecodeError) :
    UnlessFlawed (unresolved whole alternative e t) u := by
  cases hcause : e.cause with
  | unknownSpec spec =>
      have hafter {records} : UnlessFlawed (t.after records) u := h
      simpa only [Decoder.unresolved, hcause] using
        ((hafter.describable spec).describable whole).describable alternative
  | _ => simpa only [Decoder.unresolved, hcause, id] using h

theorem ok (h : UnlessFlawed t u) {data : Data} (hdata : t.result = .ok data) :
    u.result = .ok data := by
  rcases h with h | ⟨flaw, h⟩
  · exact h ▸ hdata
  · cases h.symm.trans hdata

theorem failed (h : UnlessFlawed t u) {e : DecodeError} (he : t.result = .error (.failed e)) :
    u.result = .error (.failed e) := by
  rcases h with h | ⟨flaw, h⟩
  · exact h ▸ he
  · cases h.symm.trans he

end UnlessFlawed

/-- A union fails in one way only: no alternative matches. -/
theorem firstOf_failed {whole : Spec} {value : Json} {alternatives : List Spec} {e : DecodeError}
    (h : (firstOf step whole value alternatives).result = .error (.failed e)) :
    e = .ofCause (.typeMismatch whole.describe value.tag.name value) := by
  induction alternatives with
  | nil =>
      cases (UnlessFlawed.describable (.inl rfl) _).failed h
      rfl
  | cons alternative rest ih =>
      simp only [firstOf] at h
      split at h
      · exact ih ((UnlessFlawed.unresolved (.inl rfl) _ _ _).failed h)
      · next hother => exact absurd h (hother e)

theorem scalar_failed {kind : Primitive} {value : Json} {e : DecodeError}
    (h : (scalar step kind value).result = .error (.failed e)) :
    FailsAs registry step (.primitive kind) value e := by
  unfold scalar at h
  split at h
  · split at h
    · split at h
      · cases h
      · exact failsAs_of_mismatch h
    · exact failsAs_of_mismatch h
  · next hany =>
      obtain rfl : kind = .any := by cases kind <;> simp_all [tagOf?]
      split at h
      · exact failsAs_of_elements (map_error.mp h) fun _ => .any
      · exact failsAs_of_entries (map_error.mp h) fun _ => .any
      · cases h

theorem tupleOf_failed {specs : List Spec} {value : Json} {e : DecodeError}
    (h : (tupleOf step specs value).result = .error (.failed e)) :
    FailsAs registry step (.tupleOf specs) value e := by
  unfold tupleOf at h
  simp only at h
  split at h
  · split at h
    · obtain ⟨index, spec, item, deeper, hspec, hitem, hfailed, rfl⟩ :=
        positions_failed (map_error.mp h)
      exact .inr ⟨_, _, _, deeper, .tupleOf hspec, .item hitem, hfailed, rfl⟩
    · exact failsAs_of_refuse h .mismatch
  · exact failsAs_of_mismatch h

theorem setOf_failed {element : Spec} {items : List Json} {e : DecodeError}
    (h : ((elements (step element) 0 items).bind
      (setOf (.setOf element) (.array items))).result = .error (.failed e)) :
    FailsAs registry step (.setOf element) (.array items) e := by
  rcases bind_error.mp h with h | ⟨data, hdata, h⟩
  · exact failsAs_of_elements h fun _ => .setOf
  · unfold setOf at h
    split at h
    · cases h
    · cases h
    · next reason hlacking hreason =>
        exact failsAs_of_refuse ((UnlessFlawed.describable (.inl rfl) _).failed h)
          (.unhashable hdata hreason)

/-- Where the failure of a specification on a value comes from; custom ones are looked up and
never get here. -/
theorem matching_failed {spec : Spec} {value : Json} {e : DecodeError}
    (h : (matching step spec value).result = .error (.failed e)) :
    FailsAs registry step spec value e := by
  unfold matching at h
  split at h
  · exact scalar_failed h
  · split at h
    · exact failsAs_of_elements (map_error.mp h) fun _ => .arrayOf
    · exact failsAs_of_mismatch h
  · split at h
    · exact failsAs_of_entries (map_error.mp h) fun _ => .objectOf
    · exact failsAs_of_mismatch h
  · next key content =>
      split at h
      · next hkey =>
          obtain rfl := Spec.isString_iff.mp hkey
          split at h
          · exact failsAs_of_entries (map_error.mp h) fun _ => .mapOf
          · exact failsAs_of_mismatch h
      · next hkey => exact failsAs_of_refuse h (.key (by simpa using hkey))
  · split at h
    · exact setOf_failed h
    · exact failsAs_of_mismatch h
  · exact tupleOf_failed h
  · exact .inl ⟨_, firstOf_failed h, .mismatch⟩
  · cases h

/-- A bare container fails as the container of any values does. -/
theorem FailsAs.of_desugar {spec : Spec} {value : Json} {e : DecodeError}
    (h : FailsAs registry step spec.desugar value e) : FailsAs registry step spec value e := by
  rcases h with ⟨cause, rfl, hrefusal⟩ | ⟨location, inner, part, deeper, hinner, h⟩
  · refine .inl ⟨cause, rfl, ?_⟩
    cases spec with
    | bareArray => cases hrefusal; exact .mismatch
    | bareObject => cases hrefusal; exact .mismatch
    | _ => exact hrefusal
  · refine .inr ⟨location, inner, part, deeper, ?_, h⟩
    cases spec with
    | bareArray => cases hinner; exact .bareArray
    | bareObject => cases hinner; exact .bareObject
    | _ => exact hinner

/-! ## Failures of schemas -/

theorem ofRule_failsAs {identity : Spec} {arguments : List Spec} {factory : Factory}
    {schema : Schema} {value : Json} {answer : Except Complaint Data} {e : DecodeError}
    (hresolve : registry.resolve identity = some factory)
    (hcall : factory.call arguments = .ok schema)
    (h : (ofRule schema.description value answer).result = .error (.failed e)) :
    FailsAs registry step (.custom identity arguments) value e := by
  obtain ⟨detail, rfl⟩ := ofRule_failed h
  exact .inl ⟨_, rfl, .rejected hresolve hcall⟩

theorem object_failed {identity : Spec} {arguments : List Spec} {factory : Factory}
    {description : Text} {fields : List Field} {assemble : Rule} {content : List (Text × Json)}
    {e : DecodeError} (hresolve : registry.resolve identity = some factory)
    (hcall : factory.call arguments = .ok (.object description fields assemble))
    (h : (object step description fields assemble content).result = .error (.failed e)) :
    FailsAs registry step (.custom identity arguments) (.object content) e := by
  rw [object_eq] at h
  split at h
  · exact failsAs_of_refuse h (.missing hresolve hcall)
  · split at h
    · exact failsAs_of_refuse h (.unknown hresolve hcall)
    · rcases bind_error.mp h with h | ⟨data, -, h⟩
      · obtain ⟨field, item, deeper, hfield, hitem, hfailed, rfl⟩ := declared_failed h
        refine .inr ⟨_, _, item, deeper, .custom hresolve hcall (.field hfield), ?_, hfailed, rfl⟩
        rw [List.lookup_eq_some_iff] at hitem
        -- the value that was looked up is one of the fields
        obtain ⟨before, after, rfl, -⟩ := hitem
        exact .field (by simp)
      · exact ofRule_failsAs hresolve hcall h

/-- Where the failure of a schema made by a recipe comes from. -/
theorem bySchema_failed {identity : Spec} {arguments : List Spec} {factory : Factory}
    {schema : Schema} {value : Json} {room : Nat} {e : DecodeError}
    (hresolve : registry.resolve identity = some factory)
    (hcall : factory.call arguments = .ok schema) (hraw : ¬schema.IsRaw)
    (h : (bySchema registry step room schema value).result = .error (.failed e)) :
    FailsAs registry step (.custom identity arguments) value e := by
  unfold bySchema at h
  split at h
  · exact object_failed hresolve hcall h
  · rcases bind_error.mp h with h | ⟨data, -, h⟩
    · exact failsAs_of_elements h fun _ => .custom hresolve hcall .item
    · exact ofRule_failsAs hresolve hcall h
  · split at h
    · split at h
      · exact ofRule_failsAs hresolve hcall h
      · exact failsAs_of_mismatch h
    · exact failsAs_of_mismatch h
  · exact absurd trivial hraw
  · exact failsAs_of_mismatch h

/-! ## Failures of decoding -/

/-- A specification that refers to no schema is matched, and a failure names it. -/
theorem decode_of_not_custom {spec : Spec} (h : ¬spec.IsCustom) (room : Nat) (value : Json) :
    decode registry (room + 1) spec value =
      (matching (decode registry room) spec.desugar value).framedBy room spec.desugar value := by
  cases spec with
  | custom => exact absurd trivial h
  | _ => rfl

/-- **Where a failure comes from**: a decoding that failed adds one frame, which shows the value, to
a refusal of its specification or to the failure of a part. -/
theorem decode_failed {room : Nat} {spec : Spec} {value : Json} {e : DecodeError}
    (hmade : spec.IsCustom → registry.IsMade)
    (h : (decode registry room spec value).result = .error (.failed e)) :
    ∃ less description inner, room = less + 1 ∧ e = inner.within description value ∧
      FailsAs registry (decode registry less) spec value inner := by
  cases room with
  | zero => cases h
  | succ less =>
      unfold decode at h
      simp only at h
      split at h
      · next identity arguments hspec =>
          obtain rfl : spec = .custom identity arguments := by
            cases spec <;> simp_all [Spec.desugar]
          unfold custom at h
          simp only at h
          split at h
          · next hresolve =>
              obtain ⟨-, inner, hinner, -, rfl⟩ := framedBy_failed.mp h
              exact ⟨less, _, inner, rfl, rfl, failsAs_of_refuse hinner (.unregistered hresolve)⟩
          · next factory hresolve =>
              rcases bind_error.mp h with h | ⟨schema, hschema, h⟩
              · -- a factory that makes no schema ends in a fault, which is no failure
                obtain ⟨fault, -, hstop⟩ := ofExcept_error.mp h
                cases hstop
              · have hcall := ofExcept_ok.mp hschema
                obtain ⟨inner, hinner, -, rfl⟩ := framed_failed.mp h
                exact ⟨less, _, inner, rfl, rfl,
                  bySchema_failed hresolve hcall ((hmade trivial).not_raw hresolve hcall) hinner⟩
      · obtain ⟨-, inner, hinner, -, rfl⟩ := framedBy_failed.mp h
        exact ⟨less, _, inner, rfl, rfl, (matching_failed hinner).of_desugar⟩

/-- The outermost frame of a failure shows the value and has no location. -/
theorem frames_of_failed {room : Nat} {spec : Spec} {value : Json} {e : DecodeError}
    (hmade : spec.IsCustom → registry.IsMade)
    (h : (decode registry room spec value).result = .error (.failed e)) :
    ∃ description deeper, e.frames = ⟨description, value.seen, none⟩ :: deeper := by
  obtain ⟨-, description, inner, -, rfl, -⟩ := decode_failed hmade h
  exact ⟨description, inner.frames, rfl⟩

/-- The parts of a specification without custom ones are such specifications. -/
theorem customFree_of_inner {spec inner : Spec} {location : Location}
    (h : spec.Inner registry location inner) (hfree : spec.CustomFree) : inner.CustomFree := by
  cases h with
  | any | bareArray | bareObject => exact id
  | arrayOf | objectOf | setOf => exact hfree.2
  | mapOf => exact hfree.2.2
  | tupleOf hspec => exact Spec.everyAmong_iff.mp hfree.2 _ (List.mem_of_getElem? hspec)
  | custom => exact absurd trivial hfree.1

/-- The parts of a well-formed specification without custom ones are well-formed. -/
theorem wellFormed_of_inner {spec inner : Spec} {location : Location}
    (h : spec.Inner registry location inner) (hfree : spec.CustomFree) (hspec : spec.WellFormed) :
    inner.WellFormed := by
  cases h with
  | any | bareArray | bareObject => rfl
  | arrayOf | objectOf | setOf => exact hspec
  | mapOf => exact (Spec.WellFormed.mapOf_iff.mp hspec).2
  | tupleOf hget => exact Spec.WellFormed.tupleOf_iff.mp hspec _ (List.mem_of_getElem? hget)
  | custom => exact absurd trivial hfree.1

/-- What is reached from a specification without custom ones is well-formed if the whole is. -/
theorem wellFormed_of_reaches {spec last : Spec} {value part : Json} {path : List Location}
    (h : Reaches registry spec value path last part) (hfree : spec.CustomFree)
    (hspec : spec.WellFormed) : last.CustomFree ∧ last.WellFormed := by
  induction h with
  | here => exact ⟨hfree, hspec⟩
  | inside hinner _ _ ih =>
      exact ih (customFree_of_inner hinner hfree) (wellFormed_of_inner hinner hfree hspec)

/-- **The origin of a failure**: along its path, decoding came to a part whose specification refused
it for the cause of the failure. -/
theorem failure_origin {room : Nat} {spec : Spec} {value : Json} {e : DecodeError}
    (hmade : ¬spec.CustomFree → registry.IsMade)
    (h : (decode registry room spec value).result = .error (.failed e)) :
    ∃ less last part, Reaches registry spec value e.path last part ∧
      Refusal registry (decode registry less) last part e.cause := by
  induction room generalizing spec value e with
  | zero => cases h
  | succ room ih =>
      have hcustom {spec : Spec} (hmade : ¬spec.CustomFree → registry.IsMade) :
          spec.IsCustom → registry.IsMade := fun h => hmade fun hfree => hfree.head h
      obtain ⟨less, description, inner, hless, rfl, hfails⟩ := decode_failed (hcustom hmade) h
      obtain rfl : room = less := by omega
      rcases hfails with
        ⟨cause, rfl, hrefusal⟩ | ⟨location, next, part, deeper, hnext, hpart, hdeeper, rfl⟩
      · exact ⟨room, spec, value, .here, hrefusal⟩
      · -- the failure of the part has an origin below it, to which one more location leads
        have hmadeNext : ¬next.CustomFree → registry.IsMade := fun hnot =>
          hmade fun hfree => hnot (customFree_of_inner hnext hfree)
        obtain ⟨last, lastSpec, found, hreaches, hrefusal⟩ := ih hmadeNext hdeeper
        obtain ⟨name, rest, hframes⟩ := frames_of_failed (hcustom hmadeNext) hdeeper
        refine ⟨last, lastSpec, found, ?_, by simpa using hrefusal⟩
        rw [DecodeError.path_within, DecodeError.path_locatedAt hframes]
        exact .inside hnext hpart hreaches

end Decoder

end JsonDecoding
