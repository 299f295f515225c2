import JsonDecoding.Proofs.Alike
import JsonDecoding.Proofs.Containment
import JsonDecoding.Proofs.Termination

/-!
# The order of keys

Whether a value decodes does not depend on the order of object keys, at any depth, and neither does
the data up to the order of dictionaries (`success_ignores_key_order`). Values that are reorderings
of each other decode alike unless a fault comes in between (`decode_alike`). Where all that is
written can be described, every factory that is come to gives a schema, and rules complain about
values only, the one fault there is comes from a value that fails and cannot be shown
(`not_raised`), and no such value is come to in the one order where the other order decodes
(`not_unshown_of_ok`).
-/

namespace JsonDecoding

open Attempt Decoder

variable {frozen : Text → Bool} {registry : Registry}

/-! ## What is come to -/

theorem course_ne_delegated (hmade : registry.IsMade) {spec next : Spec} {value : Json}
    {build : Data → Data} : course registry spec value ≠ .delegated next build := by
  intro hcourse
  have hown := course_isStructural hmade spec value
  rw [hcourse] at hown
  exact hown

theorem course_ne_scripted (hmade : registry.IsMade) {spec : Spec} {value : Json}
    {procedure : Procedure} : course registry spec value ≠ .scripted procedure := by
  intro hcourse
  have hown := course_isStructural hmade spec value
  rw [hcourse] at hown
  exact hown

/-- What decoding a value comes to has what the parts of the value inherit. -/
theorem Arrives.inherited (hmade : registry.IsMade) {q : Json → Prop} (hq : Json.Inherited q)
    {unions : Bool} {room less : Nat} {spec last : Spec} {value found : Json}
    {path : List Location} (h : Arrives registry unions room spec value path less last found)
    (hvalue : q value) : q found := by
  induction h with
  | here => exact hvalue
  | @part room less spec last value found path before after part finish hcourse _ _ ih =>
      have hsplits := course_splits registry spec value
      rw [hcourse] at hsplits
      exact ih (hq (hsplits part (by simp)) hvalue)
  | alternative _ _ _ _ ih => exact ih hvalue
  | delegated hcourse => exact (course_ne_delegated hmade hcourse).elim
  | loaded _ hcourse => exact (course_ne_scripted hmade hcourse).elim

/-- Every factory that decoding a value comes to gives a schema. -/
def FactoriesSucceed (registry : Registry) (spec : Spec) (value : Json) : Prop :=
  ∀ (room : Nat) (path : List Location) (less : Nat) (identity : Spec) (arguments : List Spec)
    (found : Json) (factory : Factory),
    Arrives registry true room spec value path (less + 1) (.custom identity arguments) found →
    registry.resolve identity = some factory → ∃ schema, factory.call arguments = .ok schema

theorem Course.IsOfSpec.mem_contents {spec : Spec} {value : Json} {c : Course}
    (h : IsOfSpec spec value c) {call : Spec × Json} (hcall : call ∈ c.calls value) :
    call.1 ∈ spec.contents := by
  cases h with
  | items hmem =>
      obtain ⟨part, hpart, rfl⟩ := List.mem_map.mp hcall
      exact Part.spec_of_items hpart ▸ hmem
  | fields hmem =>
      obtain ⟨part, hpart, rfl⟩ := List.mem_map.mp hcall
      exact Part.spec_of_fields hpart ▸ hmem
  | distinct hset =>
      subst hset
      obtain ⟨part, hpart, rfl⟩ := List.mem_map.mp hcall
      exact List.mem_singleton.mpr (Part.spec_of_items hpart)
  | positions htuple =>
      subst htuple
      obtain ⟨part, hpart, rfl⟩ := List.mem_map.mp hcall
      exact Part.spec_of_positions hpart
  | alternatives hunion =>
      subst hunion
      obtain ⟨alternative, hmem, rfl⟩ := List.mem_map.mp hcall
      exact hmem
  | settled => cases hcall

theorem Course.IsOfSchema.mem_specs {schema : Schema} (hraw : ¬schema.IsRaw) {value : Json}
    {c : Course} (h : IsOfSchema schema value c) {call : Spec × Json}
    (hcall : call ∈ c.calls value) : call.1 ∈ schema.specs := by
  cases h with
  | object hschema =>
      subst hschema
      obtain ⟨part, hpart, rfl⟩ := List.mem_map.mp hcall
      exact Part.spec_of_declared hpart
  | array hschema =>
      subst hschema
      obtain ⟨part, hpart, rfl⟩ := List.mem_map.mp hcall
      exact List.mem_singleton.mpr (Part.spec_of_items hpart)
  | delegated hschema | scripted hschema =>
      subst hschema
      exact (hraw trivial).elim
  | settled => cases hcall

/-- Specifications that decoding does not lead out of, as every factory among them succeeds. -/
structure ClosedUnderDecoding (registry : Registry) (p : Spec → Prop) : Prop where
  contents : ∀ spec, p spec → ∀ part ∈ spec.contents, p part
  schemas : ∀ identity arguments factory, p (.custom identity arguments) →
    registry.resolve identity = some factory →
    ∃ schema, factory.call arguments = .ok schema ∧ ∀ part ∈ schema.specs, p part

namespace ClosedUnderDecoding

variable {p : Spec → Prop}

theorem nested (h : ClosedUnderDecoding registry p) (hmade : registry.IsMade) {spec : Spec}
    {value : Json} (hspec : p spec) {call : Spec × Json}
    (hcall : call ∈ nested registry spec value) : p call.1 := by
  unfold JsonDecoding.nested at hcall
  have hcourse := isCourse registry spec value
  generalize course registry spec value = c at hcourse hcall
  cases hcourse with
  | unregistered | failed => cases hcall
  | schema hcustom hresolve hschema hcourse =>
      subst hcustom
      obtain ⟨schema, hsucceeds, hspecs⟩ := h.schemas _ _ _ hspec hresolve
      cases hschema.symm.trans hsucceeds
      exact hspecs _ (hcourse.mem_specs (hmade.not_raw hresolve hschema) hcall)
  | plain _ hcourse =>
      refine h.contents spec hspec _ ?_
      have hcontents := hcourse.mem_contents hcall
      cases spec <;> exact hcontents

/-- So it suffices that a specification is among some that decoding does not lead out of. -/
theorem factoriesSucceed (h : ClosedUnderDecoding registry p) (hmade : registry.IsMade)
    {spec : Spec} (hspec : p spec) (value : Json) : FactoriesSucceed registry spec value := by
  have harrives {room less : Nat} {spec last : Spec} {value found : Json} {path : List Location}
      (harrives : Arrives registry true room spec value path less last found) (hspec : p spec) :
      p last := by
    induction harrives with
    | here => exact hspec
    | @part _ _ spec _ value _ _ _ _ part _ hcourse _ _ ih =>
        have hcall : (part.spec, part.value) ∈ JsonDecoding.nested registry spec value := by
          simp [JsonDecoding.nested, hcourse, Course.calls]
        exact ih (h.nested hmade hspec hcall)
    | @alternative _ _ spec _ alternative _ value _ _ _ _ _ hcourse _ _ ih =>
        have hcall : (alternative, value) ∈ JsonDecoding.nested registry spec value := by
          simp [JsonDecoding.nested, hcourse, Course.calls]
        exact ih (h.nested hmade hspec hcall)
    | delegated hcourse => exact (course_ne_delegated hmade hcourse).elim
    | loaded _ hcourse => exact (course_ne_scripted hmade hcourse).elim
  intro room path less identity arguments found factory hcustom hresolve
  obtain ⟨schema, hschema, -⟩ := h.schemas _ _ _ (harrives hcustom hspec) hresolve
  exact ⟨schema, hschema⟩

end ClosedUnderDecoding

/-! ## No faults -/

/-- What a rule is asked about a value with distinct keys is alike to itself. -/
theorem Schema.Answers.asks {step : Spec → Json → Attempt Data}
    (h : IgnoresOrder frozen step) {schema : Schema} {value : Json}
    {answer : Except Complaint Data} (hanswer : schema.Answers step value answer)
    (hvalue : value.KeysDistinct) :
    ∃ data, schema.Asks data answer ∧ Data.Alike frozen data data := by
  have hlike := Json.Like.refl hvalue
  cases hanswer with
  | @object _ fields _ content entries _ _ hentries =>
      have halike := declared_alike h fields hlike.fieldsLike
      exact ⟨_, .object entries, .dict (.of_forall₂ (halike.related hentries hentries))⟩
  | @array _ element _ items data hitems =>
      have halike := elements_alike h element hlike.itemsLike 0
      exact ⟨_, .array data, .list (halike.related hitems hitems)⟩
  | scalar hdata hshape =>
      exact ⟨_, .scalar hdata hshape, Json.alike_scalar hdata⟩

/-- **Nothing raises a fault** where every factory that is come to gives a schema and rules answer
alike about equal data. -/
theorem not_raised (hmade : registry.IsMade) (hrespects : registry.Respects frozen) {spec : Spec}
    {value : Json} (hvalue : value.KeysDistinct) (hfactories : FactoriesSucceed registry spec value)
    {room less : Nat} {path : List Location} {last : Spec} {found : Json} {fault : Fault}
    (harrives : Arrives registry true room spec value path (less + 1) last found) :
    ¬Raises registry (decode registry less) less last found fault := by
  have hignores := decode_alike hmade hrespects less
  have hfound := harrives.inherited hmade (fun hpart => hpart.keysDistinct) hvalue
  intro hraises
  cases hraises with
  | factory hresolve hcall =>
      obtain ⟨schema, hschema⟩ := hfactories _ _ _ _ _ _ _ harrives hresolve
      cases hcall.symm.trans hschema
  | rule hschema hanswer hconcern =>
      obtain ⟨identity, arguments, factory, -, hresolve, hcall⟩ := hschema
      obtain ⟨key, hmem⟩ := Registry.mem_of_resolve hresolve
      obtain ⟨data, hasks, halike⟩ := hanswer.asks hignores hfound
      -- a rule that is asked twice about the same answers alike, so that it complains about values
      cases hrespects _ hmem _ _ (Factory.call_ok hcall) _ _ _ _ hasks hasks halike with
      | complaints hvalue _ => cases hvalue.symm.trans hconcern
  | handler hschema | script hschema =>
      obtain ⟨identity, arguments, factory, -, hresolve, hcall⟩ := hschema
      exact hmade.not_raw hresolve hcall trivial
  | @element element items data className field hitems hlacking =>
      have halike := (elements_alike hignores element (Json.Like.refl hfound).itemsLike 0).related
        hitems hitems
      obtain ⟨d, hd, hreason⟩ := Data.exists_of_unhashableItem? hlacking
      exact ((Data.Alike.lawful_of_forall₂ halike).1 d hd).unhashable?_ne_lacking _ _ hreason

/-- A rule that changes nothing answers alike about equal data. -/
theorem Schema.respects_object {description : Text} {fields : List Field} :
    (Schema.object description fields .ok).Respects frozen := by
  rintro a b x y ⟨⟩ ⟨⟩ halike
  exact .data halike

theorem Schema.respects_array {description : Text} {element : Spec} :
    (Schema.array description element .ok).Respects frozen := by
  rintro a b x y ⟨⟩ ⟨⟩ halike
  exact .data halike

/-! ## The decodings inside -/

namespace Course

theorem calls_ofItems {element : Spec} {items : List Json} {finish : List Data → Attempt Data}
    (value : Json) :
    (parts (Part.ofItems element items) finish).calls value =
      items.map fun item => (element, item) := by
  simp only [calls, Part.ofItems, List.map_map, Function.comp_def]
  conv_rhs => rw [← List.zipIdx_map_fst 0 items]
  rw [List.map_map]
  rfl

theorem calls_ofFields (content : Spec) (fields : List (Text × Json)) (value : Json) :
    (ofFields content fields).calls value = fields.map fun field => (content, field.2) := by
  simp only [ofFields, calls, Part.ofFields, List.map_map, Function.comp_def]

theorem calls_ofPositions {specs : List Spec} {items : List Json}
    {finish : List Data → Attempt Data} (value : Json) :
    (parts (Part.ofPositions specs items) finish).calls value = specs.zip items := by
  simp only [calls, Part.ofPositions, List.map_map, Function.comp_def, Prod.mk.eta]
  exact List.zipIdx_map_fst ..

theorem calls_ofDeclared {fields : List Field} {content : List (Text × Json)}
    {finish : List Data → Attempt Data} (value : Json) :
    (parts (Part.ofDeclared fields content) finish).calls value =
      (present content fields).map fun part => (part.1.spec, part.2) := by
  simp only [calls, Part.ofDeclared, List.map_map, Function.comp_def]

/-- A decoding has its like among others: one by the same specification, of a reordered value. -/
def HasLike (calls : List (Spec × Json)) (call : Spec × Json) : Prop :=
  ∃ like ∈ calls, like.1 = call.1 ∧ Json.Like like.2 call.2

variable {call : Spec × Json} {value other seen found : Json}
  {finish build : List Data → Attempt Data}

theorem hasLike_of_items {element : Spec} {items others : List Json}
    (hitems : List.Forall₂ Json.Like items others)
    (hcall : call ∈ (parts (Part.ofItems element others) finish).calls seen) :
    HasLike ((parts (Part.ofItems element items) build).calls found) call := by
  rw [calls_ofItems] at hcall
  obtain ⟨other, hother, rfl⟩ := List.mem_map.mp hcall
  obtain ⟨item, hitem, hlike⟩ := Outcomes.exists_of_forall₂ hitems.flip hother
  refine ⟨(element, item), ?_, rfl, hlike⟩
  rw [calls_ofItems]
  exact List.mem_map_of_mem hitem

theorem hasLike_of_fields {content : Spec} {fields others : List (Text × Json)}
    (hfields : Json.FieldsLike fields others)
    (hcall : call ∈ (ofFields content others).calls seen) :
    HasLike ((ofFields content fields).calls found) call := by
  rw [calls_ofFields] at hcall
  obtain ⟨other, hother, rfl⟩ := List.mem_map.mp hcall
  obtain ⟨value, hvalue, hlike⟩ := hfields.exists_field hother
  refine ⟨(content, value), ?_, rfl, hlike⟩
  rw [calls_ofFields]
  exact List.mem_map_of_mem hvalue

theorem hasLike_of_positions {specs : List Spec} {items others : List Json}
    (hitems : List.Forall₂ Json.Like items others)
    (hcall : call ∈ (parts (Part.ofPositions specs others) finish).calls seen) :
    HasLike ((parts (Part.ofPositions specs items) build).calls found) call := by
  rw [calls_ofPositions] at hcall
  induction hitems generalizing specs with
  | nil => simp at hcall
  | @cons item other items others hitem _ ih =>
      cases specs with
      | nil => simp at hcall
      | cons spec specs =>
          rcases List.mem_cons.mp hcall with rfl | hrest
          · exact ⟨(spec, item), by simp [calls_ofPositions], rfl, hitem⟩
          · obtain ⟨like, hmem, hlike⟩ := ih hrest
            rw [calls_ofPositions] at hmem
            exact ⟨like, by simp [calls_ofPositions, hmem], hlike⟩

theorem hasLike_of_declared {declarations : List Field} {fields others : List (Text × Json)}
    (hfields : Json.FieldsLike fields others)
    (hcall : call ∈ (parts (Part.ofDeclared declarations others) finish).calls seen) :
    HasLike ((parts (Part.ofDeclared declarations fields) build).calls found) call := by
  rw [calls_ofDeclared] at hcall
  obtain ⟨⟨field, item⟩, hpart, rfl⟩ := List.mem_map.mp hcall
  obtain ⟨hfield, hitem⟩ := mem_present.mp hpart
  rcases hfields.lookup field.key with ⟨-, hnone⟩ | ⟨value, other, hvalue, hother, hlike⟩
  · cases hnone.symm.trans hitem
  · cases hother.symm.trans hitem
    refine ⟨(field.spec, value), ?_, rfl, hlike⟩
    rw [calls_ofDeclared]
    exact List.mem_map.mpr ⟨(field, value), mem_present.mpr ⟨hfield, hvalue⟩, rfl⟩

/-- A call is one of a course that leads inside, so the cases that lead nowhere are ruled out by the
value that has the call. -/
theorem hasLike_ofSpec {spec : Spec} (hlike : Json.Like value other)
    (hcall : call ∈ (ofSpec spec other).calls other) :
    HasLike ((ofSpec spec value).calls value) call := by
  cases spec with
  | anyOf alternatives =>
      obtain ⟨alternative, hmem, rfl⟩ := List.mem_map.mp hcall
      exact ⟨(alternative, value), List.mem_map_of_mem hmem, rfl, hlike⟩
  | primitive kind =>
      cases kind with
      | any =>
          cases other with
          | array others =>
              obtain ⟨items, rfl, hitems⟩ := hlike.exists_items
              exact hasLike_of_items hitems hcall
          | object others =>
              obtain ⟨fields, rfl, hfields⟩ := hlike.exists_fields
              exact hasLike_of_fields hfields hcall
          | _ => cases hcall
      | _ => cases hcall
  | arrayOf element | setOf element =>
      cases other with
      | array others =>
          obtain ⟨items, rfl, hitems⟩ := hlike.exists_items
          exact hasLike_of_items hitems hcall
      | _ => cases hcall
  | tupleOf specs =>
      cases other with
      | array others =>
          obtain ⟨items, rfl, hitems⟩ := hlike.exists_items
          simp only [ofSpec, hitems.length_eq] at hcall ⊢
          by_cases hlength : others.length = specs.length
          · rw [if_pos hlength] at hcall ⊢
            exact hasLike_of_positions hitems hcall
          · rw [if_neg hlength] at hcall
            cases hcall
      | _ => cases hcall
  | objectOf content =>
      cases other with
      | object others =>
          obtain ⟨fields, rfl, hfields⟩ := hlike.exists_fields
          exact hasLike_of_fields hfields hcall
      | _ => cases hcall
  | mapOf key content =>
      cases other with
      | object others =>
          obtain ⟨fields, rfl, hfields⟩ := hlike.exists_fields
          simp only [ofSpec] at hcall ⊢
          by_cases hkey : key.isString = true
          · rw [if_pos hkey] at hcall ⊢
            exact hasLike_of_fields hfields hcall
          · rw [if_neg hkey] at hcall
            cases hcall
      | _ => cases hcall
  | _ => cases hcall

theorem hasLike_ofSchema {schema : Schema} (hraw : ¬schema.IsRaw) (hlike : Json.Like value other)
    (hcall : call ∈ (ofSchema schema other).calls other) :
    HasLike ((ofSchema schema value).calls value) call := by
  cases schema with
  | object description declarations assemble =>
      cases other with
      | object others =>
          obtain ⟨fields, rfl, hfields⟩ := hlike.exists_fields
          have hmissing : missingKeys declarations fields = missingKeys declarations others := by
            simp only [missingKeys, List.contains_eq_mem, hfields.keys.mem_iff]
          have hunknown : unknownKeys declarations fields = [] ↔
              unknownKeys declarations others = [] := by
            rw [← List.isEmpty_iff, ← List.isEmpty_iff, unknownKeys, unknownKeys,
              (hfields.keys.filter _).isEmpty_eq]
          simp only [ofSchema, hmissing, hunknown] at hcall ⊢
          by_cases hkeys : missingKeys declarations others = [] ∧
              unknownKeys declarations others = []
          · rw [if_pos hkeys] at hcall ⊢
            exact hasLike_of_declared hfields hcall
          · rw [if_neg hkeys] at hcall
            cases hcall
      | _ => cases hcall
  | array description element assemble =>
      cases other with
      | array others =>
          obtain ⟨items, rfl, hitems⟩ := hlike.exists_items
          exact hasLike_of_items hitems hcall
      | _ => cases hcall
  | scalar => cases hcall
  | raw => exact (hraw trivial).elim

end Course

/-- **Decodings inside have their like** when the keys of the value are in another order. -/
theorem hasLike_nested (hmade : registry.IsMade) {spec : Spec} {value other : Json}
    (hlike : Json.Like value other) {call : Spec × Json}
    (hcall : call ∈ nested registry spec other) :
    Course.HasLike (nested registry spec value) call := by
  unfold nested course at hcall ⊢
  split at hcall
  · next identity arguments hcustom =>
      cases hresolve : registry.resolve identity with
      | none => simp [hresolve, Course.calls] at hcall
      | some factory =>
          cases hschema : factory.call arguments with
          | error fault => simp [hresolve, hschema, Course.calls] at hcall
          | ok schema =>
              simp only [hresolve, hschema] at hcall ⊢
              exact Course.hasLike_ofSchema (hmade.not_raw hresolve hschema) hlike hcall
  · exact Course.hasLike_ofSpec hlike hcall

/-! ## Success -/

/-- The decodings of parts of a value that decodes all give data. -/
theorem ok_of_part {room : Nat} {spec : Spec} {value : Json} {members : List Part}
    {finish : List Data → Attempt Data} {data : Data}
    (hcourse : course registry spec value = .parts members finish)
    (h : (decode registry (room + 1) spec value).result = .ok data) {part : Part}
    (hpart : part ∈ members) :
    ∃ inner, (decode registry room part.spec part.value).result = .ok inner := by
  rw [decode_eq_follow, hcourse] at h
  obtain ⟨results, hresults, -⟩ := bind_ok.mp (headed_ok.mp h)
  obtain ⟨inner, -, hinner⟩ := Outcomes.exists_of_forall₂ (inOrder_ok.mp hresults)
    (List.mem_map_of_mem hpart)
  exact ⟨inner, hinner⟩

/-- Where a union gives data, each alternative gives data or fails, or one before it gives data. -/
theorem alternative_of_ok {step : Spec → Json → Attempt Data} {whole alternative : Spec}
    {value : Json} {before after : List Spec} {data : Data}
    (h : (firstOf step whole value (before ++ alternative :: after)).result = .ok data) :
    (∃ data, (step alternative value).result = .ok data) ∨
      (∃ e, (step alternative value).result = .error (.failed e)) ∨
        ∃ earlier ∈ before, ∃ data, (step earlier value).result = .ok data := by
  induction before with
  | nil =>
      rw [List.nil_append, firstOf] at h
      split at h
      · next e he => exact .inr (.inl ⟨e, he⟩)
      · exact .inl ⟨data, h⟩
  | cons spec before ih =>
      rw [List.cons_append, firstOf] at h
      split at h
      · next e he =>
          rcases ih ((UnlessFlawed.unresolved (.inl rfl) _ _ _).ok h) with
            hdata | hfailed | ⟨earlier, hmem, hdata⟩
          · exact .inl hdata
          · exact .inr (.inl hfailed)
          · exact .inr (.inr ⟨earlier, List.mem_cons_of_mem _ hmem, hdata⟩)
      · exact .inr (.inr ⟨spec, List.mem_cons_self, data, h⟩)

/-- **Where one order decodes, the other comes to no failure that cannot be shown.** The way there
leads through decodings that have their like in the first order, and these decode as well; an
alternative that is passed over there has failed on a value that could be shown. -/
theorem not_unshown_of_ok (hmade : registry.IsMade) (hrespects : registry.Respects frozen)
    {room : Nat} {spec : Spec} {value other : Json} (hlike : Json.Like value other) {data : Data}
    (h : (decode registry room spec value).result = .ok data) :
    ¬Unshown registry room spec other := by
  rintro ⟨path, less, last, found, e, harrives, hfailed, hlong⟩
  generalize hmore : less + 1 = more at harrives
  induction harrives generalizing value data with
  | @here room spec other =>
      subst hmore
      have halike := follow_alike (decode_alike hmade hrespects less) hmade hrespects spec hlike
      rw [decode_eq_follow] at h
      exact halike.not_failed (headed_ok.mp h) hfailed
  | @part room more spec last other found path before after part finish hcourse _ harrives ih =>
      have hcall : (part.spec, part.value) ∈ nested registry spec other := by
        simp [nested, hcourse, Course.calls]
      obtain ⟨⟨same, seen⟩, hmem, rfl, hseen⟩ := hasLike_nested hmade hlike hcall
      cases hfirst : course registry spec value with
      | settled outcome => simp [nested, hfirst, Course.calls] at hmem
      | parts members build =>
          obtain ⟨member, hmember, heq⟩ : ∃ member ∈ members, (member.spec, member.value) =
              (part.spec, seen) := by simpa [nested, hfirst, Course.calls] using hmem
          obtain ⟨hspec, rfl⟩ := Prod.mk.inj heq
          obtain ⟨inner, hinner⟩ := ok_of_part hfirst h hmember
          exact ih hseen (hspec ▸ hinner) hfailed hlong hmore
      | alternatives whole specs =>
          obtain rfl := eq_anyOf_of_course hfirst
          cases hcourse
      | delegated next build => exact (course_ne_delegated hmade hfirst).elim
      | scripted procedure => exact (course_ne_scripted hmade hfirst).elim
  | @alternative room more spec whole alternative last other found path before after _ hcourse
      hbefore harrives ih =>
      obtain rfl := eq_anyOf_of_course hcourse
      cases hcourse
      rw [decode_eq_follow] at h
      have halike := decode_alike hmade hrespects room
      rcases alternative_of_ok (headed_ok.mp h) with
        ⟨data, hdata⟩ | ⟨failure, hfailure⟩ | ⟨earlier, hearlier, data, hdata⟩
      · exact ih hlike hdata hfailed hlong hmore
      · obtain ⟨-, -, ⟨-, hshort⟩, -, -⟩ := within_of_failed hfailure
        have hfound := harrives.inherited hmade Json.inherited_isShort
          (hlike.reordered.isShort hshort)
        exact Bool.false_ne_true (hfound.symm.trans hlong)
      · obtain ⟨failure, hfailure⟩ := hbefore earlier hearlier
        exact (halike earlier _ _ hlike).not_failed hdata hfailure
  | delegated hcourse => exact (course_ne_delegated hmade hcourse).elim
  | loaded _ hcourse => exact (course_ne_scripted hmade hcourse).elim

/-- **Where one order decodes, the other does**, given room. -/
theorem exists_ok_of_ok (hmade : registry.IsMade)
    (hregistry : registry.Within Spec.HasDescription fun _ => True)
    (hrespects : registry.Respects frozen) {room : Nat} {spec : Spec} (hspec : spec.HasDescription)
    {value other : Json} (hlike : Json.Like value other)
    (hfactories : FactoriesSucceed registry spec other)
    (hroom : (decode registry room spec other).result ≠ .error .exhausted) {data : Data}
    (h : (decode registry room spec value).result = .ok data) :
    ∃ data, (decode registry room spec other).result = .ok data := by
  rcases (decode registry room spec other).ends with hok | ⟨e, he⟩ | ⟨stop, hstop, hdisturbs⟩
  · exact hok
  · exact ((decode_alike hmade hrespects room spec value other hlike).not_failed h he).elim
  · cases stop with
    | failed e => exact (hdisturbs e rfl).elim
    | exhausted => exact (hroom hstop).elim
    | faulted fault =>
        rcases traced_of_faulted Spec.HasDescription.hereditary Json.inherited_true hregistry hspec
          trivial hstop with ⟨path, less, last, found, harrives, hraises⟩ | ⟨-, hnone | hunshown⟩
        · exact (not_raised hmade hrespects hlike.keysDistinctOther hfactories harrives
            hraises).elim
        · exact (not_someUndescribed hnone).elim
        · exact (not_unshown_of_ok hmade hrespects hlike h hunshown).elim

/-- **Success does not depend on the order of keys.** Let the specification and all that is
registered have descriptions, rules answer alike about equal data, and every factory that is come to
give a schema. Then of two values that differ in the order of object keys only, at any depth, both
decode or neither does, and they decode to equal data, wherever there is room for both; and there is
room enough. -/
theorem success_ignores_key_order (hmade : registry.IsMade)
    (hregistry : registry.Within Spec.HasDescription fun _ => True)
    (hrespects : registry.Respects frozen) {spec : Spec} (hspec : spec.HasDescription)
    {value other : Json} (hlike : Json.Like value other)
    (hvalue : FactoriesSucceed registry spec value)
    (hother : FactoriesSucceed registry spec other) :
    (∀ room, (decode registry room spec value).result ≠ .error .exhausted →
      (decode registry room spec other).result ≠ .error .exhausted →
      ((∃ data, (decode registry room spec value).result = .ok data) ↔
        ∃ data, (decode registry room spec other).result = .ok data) ∧
      ∀ a b, (decode registry room spec value).result = .ok a →
        (decode registry room spec other).result = .ok b → a.same b = true) ∧
    ∃ room, ∀ more, room ≤ more →
      (decode registry more spec value).result ≠ .error .exhausted ∧
      (decode registry more spec other).result ≠ .error .exhausted := by
  constructor
  · intro room hroom hroom'
    have halike := decode_alike hmade hrespects room spec value other hlike
    refine ⟨⟨?_, ?_⟩, fun a b ha hb => (halike.related ha hb).same⟩
    · rintro ⟨data, hdata⟩
      exact exists_ok_of_ok hmade hregistry hrespects hspec hlike hother hroom' hdata
    · rintro ⟨data, hdata⟩
      exact exists_ok_of_ok hmade hregistry hrespects hspec hlike.symm hvalue hroom hdata
  · obtain ⟨room, hroom⟩ := exists_finishing_room hmade spec value
    obtain ⟨more, hmore⟩ := exists_finishing_room hmade spec other
    refine ⟨max room more, fun most hmost => ⟨?_, ?_⟩⟩
    · exact finishes_of_le (le_trans (Nat.le_max_left _ _) hmost) hroom
    · exact finishes_of_le (le_trans (Nat.le_max_right _ _) hmost) hmore

/-- Pairs of any value and a set of numbers, in an object, with the keys of all three objects the
other way round. -/
theorem success_ignores_key_order_for_pairs :
    let pair : Spec := .symbol (Text.lit "Pair") []
    let fields : List (Text × Spec) :=
      [(Text.lit "left", .any), (Text.lit "right", .setOf (.primitive .number))]
    let build : List Spec → Except Fault Schema := fun _ =>
      Schema.ofFields (Text.lit "Pair") fields [] .ok
    let registry : Registry := ⟨[(pair, ⟨build, 0, [], Text.lit "Pair"⟩)]⟩
    let spec : Spec := .anyOf [.arrayOf .any, .objectOf (.custom pair [])]
    let numbers : Json := .array [.number (.int 2), .number (.int 1), .number (.int 2)]
    let content : Json := .object [(Text.lit "left", .null), (Text.lit "right", numbers)]
    let reversed : Json := .object [(Text.lit "right", numbers), (Text.lit "left", .null)]
    let value : Json := .object [(Text.lit "a", content), (Text.lit "b", content)]
    let other : Json := .object [(Text.lit "b", reversed), (Text.lit "a", reversed)]
    ∃ a b, (decode registry 10 spec value).result = .ok a ∧
      (decode registry 10 spec other).result = .ok b ∧ a.same b = true := by
  intro pair fields build registry spec numbers content reversed value other
  let schema : Schema := .object (Text.lit "Pair") [⟨Text.lit "left", .any, false⟩,
    ⟨Text.lit "right", .setOf (.primitive .number), false⟩] .ok
  have hbuilt : ∀ entry ∈ registry.entries, ∀ arguments built,
      entry.2.build arguments = .ok built → built = schema := by
    intro entry hentry arguments built hbuilt
    obtain rfl := List.mem_singleton.mp hentry
    exact (Except.ok.inj hbuilt).symm
  have hspecs : ∀ part ∈ schema.specs, part.HasDescription := by
    simp only [schema, Schema.specs, List.map_cons, List.map_nil, List.forall_mem_cons]
    exact ⟨rfl, rfl, by simp⟩
  have hmade : registry.IsMade := by
    intro entry hentry arguments built h
    obtain rfl := hbuilt entry hentry arguments built h
    exact ⟨.object (Text.lit "Pair") fields [] .ok, rfl⟩
  have hregistry : registry.Within Spec.HasDescription fun _ => True := by
    intro entry hentry
    refine ⟨?_, fun arguments built _ h => ?_⟩
    · obtain rfl := List.mem_singleton.mp hentry
      simp
    · obtain rfl := hbuilt entry hentry arguments built h
      exact hspecs
  have hrespects : registry.Respects fun _ => true := by
    intro entry hentry arguments built h
    obtain rfl := hbuilt entry hentry arguments built h
    exact Schema.respects_object
  have hclosed : ClosedUnderDecoding registry fun part =>
      part ∈ [spec, .arrayOf .any, .objectOf (.custom pair []), .custom pair [], .any,
        .setOf (.primitive .number), .primitive .number] := by
    constructor
    · simp [spec, Spec.contents]
    · intro identity arguments factory hmem hresolve
      obtain ⟨rfl, rfl⟩ : identity = pair ∧ arguments = [] := by simpa [spec] using hmem
      cases hresolve
      exact ⟨schema, rfl, by simp [schema, Schema.specs]⟩
  have hlike : Json.Like value other := by
    have houter : Text.lit "a" ≠ Text.lit "b" := by decide
    have hinner : Text.lit "left" ≠ Text.lit "right" := by decide
    have hnull : Json.null.KeysDistinct := trivial
    have hnumbers : numbers.KeysDistinct := by
      simp [numbers, Json.KeysDistinct, Json.KeysDistinctItems]
    have hcontent : content.KeysDistinct := .pair hinner hnull hnumbers
    have hreversed : reversed.KeysDistinct := .pair hinner.symm hnumbers hnull
    have hturned : Json.Reordered content reversed :=
      .swap hinner hnull.reordered_self hnumbers.reordered_self
    exact ⟨.swap houter hturned hturned, .pair houter hcontent hcontent,
      .pair houter.symm hreversed hreversed⟩
  have hspec : spec.HasDescription := rfl
  have hfactories (seen : Json) : FactoriesSucceed registry spec seen :=
    hclosed.factoriesSucceed hmade (by simp) seen
  obtain ⟨a, ha⟩ : ∃ a, (decode registry 10 spec value).result = .ok a := ⟨_, rfl⟩
  obtain ⟨b, hb⟩ : ∃ b, (decode registry 10 spec other).result = .ok b := ⟨_, rfl⟩
  obtain ⟨hsuccess, -⟩ := success_ignores_key_order hmade hregistry hrespects hspec hlike
    (hfactories value) (hfactories other)
  obtain ⟨-, hsame⟩ := hsuccess 10 (by simp [ha]) (by simp [hb])
  exact ⟨a, b, ha, hb, hsame a b ha hb⟩

/-- What is registered has to have descriptions: an element that has none raises its flaw where a
value fails, which happens in one order of keys only, as the other order makes the first alternative
fail before. -/
theorem success_depends_on_key_order_for_flawed_elements {element : Spec} {flaw : Spec.Flaw}
    (hflaw : (Spec.arrayOf element).flaw? = some flaw) :
    let x : Spec := .symbol (Text.lit "X") []
    let build : List Spec → Except Fault Schema := fun _ =>
      .ok (.array (Text.lit "X") (.arrayOf element) .ok)
    let registry : Registry := ⟨[(x, ⟨build, 0, [], Text.lit "X"⟩)]⟩
    let spec : Spec := .anyOf [.objectOf (.custom x []), .any]
    let value : Json := .object [(Text.lit "b", .array [.null]), (Text.lit "a", .null)]
    let other : Json := .object [(Text.lit "a", .null), (Text.lit "b", .array [.null])]
    (decode registry 5 spec value).result = .error (.faulted (.ofFlaw flaw)) ∧
    ∃ data, (decode registry 5 spec other).result = .ok data := by
  intro x build registry spec value other
  have hpart {room : Nat} {spec : Spec} {value : Json} {part : Part} {after : List Part}
      {finish : List Data → Attempt Data}
      (hcourse : course registry spec value = .parts ([] ++ part :: after) finish)
      (hfault : (decode registry room part.spec part.value).result =
        .error (.faulted (.ofFlaw flaw))) :
      (decode registry (room + 1) spec value).result = .error (.faulted (.ofFlaw flaw)) := by
    rw [decode_eq_follow, hcourse]
    exact headed_of_faulted
      (follow_of_stopped_part (by simp) (located_faulted.mpr hfault) finish room value)
  have hitem : (decode registry 2 (.arrayOf element) .null).result =
      .error (.faulted (.ofFlaw flaw)) := by
    have hplain : decode registry 2 (.arrayOf element) .null =
        (mismatch (Text.lit "array") .null).framedBy 1 (.arrayOf element) .null := rfl
    rw [hplain, framedBy, hflaw]
    rfl
  have hobject : (decode registry 4 (.objectOf (.custom x [])) value).result =
      .error (.faulted (.ofFlaw flaw)) := hpart rfl (hpart rfl hitem)
  refine ⟨?_, _, rfl⟩
  have hunion : course registry spec value = .alternatives spec [.objectOf (.custom x []), .any] :=
    rfl
  rw [decode_eq_follow, hunion]
  refine headed_of_faulted ?_
  rw [Course.follow, firstOf_of_not_failed (by simp [hobject]), hobject]

/-- What is registered has to be well-formed: with an element that is no specification, the fault
comes up in one order of keys only, as the other order makes the first alternative fail before. -/
theorem success_depends_on_key_order_for_stray_elements :
    let x : Spec := .symbol (Text.lit "X") []
    let build : List Spec → Except Fault Schema := fun _ =>
      Schema.ofElement (Text.lit "X") (.arrayOf (.builtin .int)) .ok
    let registry : Registry := ⟨[(x, ⟨build, 0, [], Text.lit "X"⟩)]⟩
    let spec : Spec := .anyOf [.objectOf (.custom x []), .any]
    let nested : Json := .array [.array [.number (.int 1)]]
    let value : Json := .object [(Text.lit "b", nested), (Text.lit "a", .null)]
    let other : Json := .object [(Text.lit "a", .null), (Text.lit "b", nested)]
    registry.IsMade ∧ (registry.Respects fun _ => true) ∧ spec.WellFormed ∧
    Json.Like value other ∧ FactoriesSucceed registry spec value ∧
    FactoriesSucceed registry spec other ∧
    (decode registry defaultRoom spec value).result =
      .error (.faulted (.notASpecification (.builtin .int))) ∧
    ∃ data, (decode registry defaultRoom spec other).result = .ok data := by
  intro x build registry spec nested value other
  have hbuilt : ∀ entry ∈ registry.entries, ∀ arguments schema,
      entry.2.build arguments = .ok schema →
      schema = .array (Text.lit "X") (.arrayOf (.builtin .int)) .ok := by
    intro entry hentry arguments schema hschema
    obtain rfl := List.mem_singleton.mp hentry
    exact (Except.ok.inj hschema).symm
  have hmade : registry.IsMade := by
    intro entry hentry arguments schema hschema
    obtain rfl := hbuilt entry hentry arguments schema hschema
    exact ⟨.array (Text.lit "X") (.arrayOf (.builtin .int)) .ok, rfl⟩
  have hrespects : registry.Respects fun _ => true := by
    intro entry hentry arguments schema hschema
    obtain rfl := hbuilt entry hentry arguments schema hschema
    exact Schema.respects_array
  have hclosed : ClosedUnderDecoding registry fun part =>
      part ∈ [spec, .objectOf (.custom x []), .custom x [], .any, .arrayOf (.builtin .int),
        .builtin .int] := by
    constructor
    · simp [spec, Spec.contents]
    · intro identity arguments factory hmem hresolve
      obtain ⟨rfl, rfl⟩ : identity = x ∧ arguments = [] := by simpa [spec] using hmem
      cases hresolve
      exact ⟨_, rfl, by simp [Schema.specs]⟩
  have hlike : Json.Like value other := by
    have hne : Text.lit "b" ≠ Text.lit "a" := by decide
    have hnested : nested.KeysDistinct := by
      simp [nested, Json.KeysDistinct, Json.KeysDistinctItems]
    have hnull : Json.null.KeysDistinct := trivial
    exact ⟨.swap hne hnested.reordered_self hnull.reordered_self, .pair hne hnested hnull,
      .pair hne.symm hnull hnested⟩
  refine ⟨hmade, hrespects, rfl, hlike, hclosed.factoriesSucceed hmade (by simp) value,
    hclosed.factoriesSucceed hmade (by simp) other, rfl, _, rfl⟩

end JsonDecoding
