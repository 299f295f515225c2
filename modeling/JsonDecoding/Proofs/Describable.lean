import JsonDecoding.Parser
import JsonDecoding.Proofs.Containment
import JsonDecoding.Proofs.History
import JsonDecoding.Proofs.Meanings

/-!
# Describable specifications

Everything that decoding comes to can be described. The schemas that recipes make of admissible
annotations are well-formed (`Recipe.Admissible.wellFormed`), and so is all that registering them
gives (`History.strayFree_run`). Hence no decoding comes to an annotation where a specification is
due, and no frame, record or report of one meets any (`Parser.never_stray`).
-/

namespace JsonDecoding

open Decoder

/-- Whether a fault is that of an annotation where a specification is due. -/
def Fault.IsStray : Fault → Prop
  | .notASpecification _ => True
  | _ => False

namespace Cause.Within

variable {cause : Cause}

theorem stray? (h : cause.Within Spec.WellFormed) : cause.stray? = none := by
  cases cause with
  | unknownSpec => exact h
  | _ => rfl

/-- What is in the way of the reason is no stray annotation. -/
theorem not_stray (h : cause.Within Spec.WellFormed) {flaw : Spec.Flaw}
    (hflaw : cause.flaw? = some flaw) : ¬(Fault.ofFlaw flaw).IsStray := by
  cases cause with
  | unknownSpec spec =>
      rcases Spec.WellFormed.flaw?_eq h with hdescription | hlong
      · cases hdescription.symm.trans hflaw
      · cases hlong.symm.trans hflaw
        exact id
  | typeMismatch expected actual value =>
      simp only [flaw?] at hflaw
      split at hflaw <;> cases hflaw
      exact id
  | _ => cases hflaw

end Cause.Within

/-! ## Recipes -/

theorem Schema.not_stray_of_specOf {hint : Spec} {fault : Fault} (h : specOf hint = .error fault) :
    ¬fault.IsStray := by
  unfold specOf at h
  cases hcoerce : hint.coerce <;> rw [hcoerce] at h <;> cases h
  exact id

theorem Spec.Proper.wellFormed_of_specOf {deep : Bool} {hint spec : Spec} (h : hint.Proper deep)
    (hspec : Schema.specOf hint = .ok spec) : spec.WellFormed :=
  h.wellFormed_of_coerce (Outcomes.mapError_ok.mp hspec)

namespace Schema

variable {description : Text} {fields : List (Text × Spec)} {optional : List Text}
  {assemble : Rule}

theorem wellFormed_ofFields (h : ∀ field ∈ fields, field.2.Admissible) {schema : Schema}
    (hschema : ofFields description fields optional assemble = .ok schema) : schema.WellFormed := by
  obtain ⟨declared, hdeclared, rfl⟩ := Outcomes.map_ok.mp hschema
  intro spec hspec
  obtain ⟨field, hfield, rfl⟩ := List.mem_map.mp hspec
  obtain ⟨entry, hentry, hcoerced⟩ := Outcomes.exists_of_mem_mapM hdeclared hfield
  obtain ⟨spec, hcoerce, rfl⟩ := Outcomes.map_ok.mp hcoerced
  obtain ⟨pair, hpair, heq⟩ := Assoc.mem_ofPairs hentry
  exact (heq ▸ h pair hpair).wellFormed_of_specOf hcoerce

theorem not_stray_of_ofFields {fault : Fault}
    (h : ofFields description fields optional assemble = .error fault) : ¬fault.IsStray := by
  obtain ⟨entry, -, hentry⟩ := Outcomes.exists_of_mapM_error (Outcomes.map_error.mp h)
  exact not_stray_of_specOf (Outcomes.map_error.mp hentry)

end Schema

namespace KeyRequest

variable {description : Text} {requests : List KeyRequest} {assemble : Rule}

theorem wellFormed_schema (h : ∀ request ∈ requests, request.hint.Admissible) {schema : Schema}
    (hschema : KeyRequest.schema description requests assemble = .ok schema) :
    schema.WellFormed := by
  obtain ⟨specs, hspecs, hfields⟩ := Outcomes.bind_ok.mp hschema
  refine Schema.wellFormed_ofFields (fun entry hentry => ?_) hfields
  obtain ⟨request, hrequest, hcoerced⟩ := Outcomes.exists_of_mem_mapM hspecs hentry
  obtain ⟨spec, hspec, rfl⟩ := Outcomes.map_ok.mp hcoerced
  exact .specification ((h request hrequest).wellFormed_of_specOf hspec)

theorem not_stray_of_schema {fault : Fault}
    (h : KeyRequest.schema description requests assemble = .error fault) : ¬fault.IsStray := by
  rcases Outcomes.bind_error.mp h with hspecs | ⟨specs, -, hfields⟩
  · obtain ⟨request, -, hrequest⟩ := Outcomes.exists_of_mapM_error hspecs
    exact Schema.not_stray_of_specOf (Outcomes.map_error.mp hrequest)
  · exact Schema.not_stray_of_ofFields hfields

end KeyRequest

namespace Recipe

/-- The annotations by which a recipe decodes parts of values. -/
def hints : Recipe → List Spec
  | object _ fields _ _ => fields.map Prod.snd
  | array _ element _ => [element]
  | scalar .. => []
  | record definition _ _ => (definition.fields.filter RecordField.isInitial).map RecordField.hint
  | model definition _ _ _ => definition.fields.map ModelField.hint

/-- A recipe over admissible annotations. -/
def Admissible (recipe : Recipe) : Prop := ∀ hint ∈ recipe.hints, hint.Admissible

variable {recipe : Recipe}

/-- **What a recipe makes of admissible annotations** is well-formed. -/
theorem Admissible.wellFormed (h : recipe.Admissible) {schema : Schema}
    (hschema : recipe.schema = .ok schema) : schema.WellFormed := by
  cases recipe with
  | object =>
      exact Schema.wellFormed_ofFields (fun field hmem => h _ (List.mem_map_of_mem hmem)) hschema
  | array =>
      obtain ⟨spec, hspec, rfl⟩ := Outcomes.map_ok.mp hschema
      have hwell := (h _ (List.mem_singleton_self _)).wellFormed_of_specOf hspec
      exact List.forall_mem_singleton.mpr hwell
  | scalar description shape convert =>
      cases shape <;> cases hschema <;> exact fun _ hmem => by cases hmem
  | record definition mapping description =>
      obtain ⟨fields, hfields, hrequests⟩ := Outcomes.bind_ok.mp hschema
      refine KeyRequest.wellFormed_schema (fun request hmem => ?_) hrequests
      obtain ⟨field, hfield, rfl⟩ := List.mem_map.mp hmem
      obtain ⟨hfield, hinitial⟩ := List.mem_filter.mp hfield
      -- only the initial fields are asked for, so only their annotations matter
      refine RecordClass.admissible_resolvedFields (fun field hfield hinitial => ?_) hfields field
        hfield hinitial
      exact h _ (List.mem_map_of_mem (List.mem_filter.mpr ⟨hfield, hinitial⟩))
  | model =>
      refine KeyRequest.wellFormed_schema (fun request hmem => ?_) hschema
      obtain ⟨field, hfield, rfl⟩ := List.mem_map.mp hmem
      exact h _ (List.mem_map_of_mem hfield)

/-- A recipe that fails has met an annotation without a specification, not one in its place. -/
theorem not_stray {fault : Fault} (h : recipe.schema = .error fault) : ¬fault.IsStray := by
  cases recipe with
  | object => exact Schema.not_stray_of_ofFields h
  | array => exact Schema.not_stray_of_specOf (Outcomes.map_error.mp h)
  | scalar description shape convert => cases shape <;> cases h <;> exact id
  | record definition mapping description =>
      rcases Outcomes.bind_error.mp h with hfields | ⟨fields, -, hrequests⟩
      · obtain ⟨field, -, hfield⟩ := Outcomes.exists_of_mapM_error hfields
        have hread := Outcomes.map_error.mp hfield
        cases hresolved : field.hint.resolved definition.scope <;> rw [hresolved] at hread <;>
          cases hread
        exact id
      · exact KeyRequest.not_stray_of_schema hrequests
  | model => exact KeyRequest.not_stray_of_schema h

end Recipe

/-! ## Factories -/

/-- What can be registered: a schema that a recipe makes of admissible annotations, or a factory
whose body, given well-formed specifications, makes a recipe over such annotations or complains. -/
inductive Registrand.Admissible : Registrand → Prop where
  | schema {recipe : Recipe} {schema : Schema} (h : recipe.Admissible)
      (hschema : recipe.schema = .ok schema) : Admissible (.schema schema)
  | factory {body : List Spec → Except Complaint Recipe}
      (h : ∀ arguments recipe, (∀ argument ∈ arguments, argument.WellFormed) →
        body arguments = .ok recipe → recipe.Admissible) :
      Admissible (.factory fun arguments =>
        ((body arguments).mapError Fault.complaint).bind Recipe.schema)
  | other {data : Data} : Admissible (.other data)

/-- A registration of such things, with admissible annotations for defaults. -/
structure Registration.Admissible (registration : Registration) : Prop where
  defaults : ∀ hint ∈ registration.defaults, hint.Admissible
  registrand : registration.registrand.Admissible

/-- A factory that is well-formed and meets no stray annotation where its arguments are. -/
structure Factory.StrayFree (f : Factory) : Prop where
  wellFormed : f.WellFormed
  faults : ∀ arguments fault, (∀ argument ∈ arguments, argument.WellFormed) →
    f.build arguments = .error fault → ¬fault.IsStray

/-- All that is registered is so. -/
def Registry.StrayFree (r : Registry) : Prop := ∀ entry ∈ r.entries, entry.2.StrayFree

theorem Registry.StrayFree.wellFormed {r : Registry} (h : r.StrayFree) : r.WellFormed :=
  fun entry hmem => (h entry hmem).wellFormed

theorem Factory.StrayFree.not_stray_of_call {f : Factory} (h : f.StrayFree) {arguments : List Spec}
    (harguments : ∀ argument ∈ arguments, argument.WellFormed) {fault : Fault}
    (hcall : f.call arguments = .error fault) : ¬fault.IsStray := by
  unfold Factory.call at hcall
  split at hcall
  · refine h.faults _ _ (fun argument hmem => ?_) hcall
    exact (Factory.mem_filled hmem).elim (harguments argument) (h.wellFormed.defaults argument)
  · cases hcall
    exact id

theorem Factory.strayFree_of_schema {schema : Schema} (h : schema.WellFormed) (name : Text) :
    (Factory.mk (fun _ => .ok schema) 0 [] name).StrayFree where
  wellFormed := ⟨by simp, by rintro arguments _ - ⟨⟩; exact h⟩
  faults := by simp

theorem Factory.strayFree_of_body {body : List Spec → Except Complaint Recipe}
    (hbody : ∀ arguments recipe, (∀ argument ∈ arguments, argument.WellFormed) →
      body arguments = .ok recipe → recipe.Admissible)
    {defaults : List Spec} (hdefaults : ∀ spec ∈ defaults, spec.WellFormed) (parameters : Nat)
    (name : Text) :
    (Factory.mk (fun arguments => ((body arguments).mapError Fault.complaint).bind Recipe.schema)
      parameters defaults name).StrayFree where
  wellFormed := by
    refine ⟨hdefaults, fun arguments schema harguments hbuild => ?_⟩
    obtain ⟨recipe, hrecipe, hschema⟩ := Outcomes.bind_ok.mp hbuild
    exact (hbody arguments recipe harguments (Outcomes.mapError_ok.mp hrecipe)).wellFormed hschema
  faults := by
    intro arguments fault _ hbuild
    rcases Outcomes.bind_error.mp hbuild with hcomplaint | ⟨recipe, -, hschema⟩
    · cases hanswer : body arguments <;> rw [hanswer] at hcomplaint <;> cases hcomplaint
      exact id
    · exact Recipe.not_stray hschema

/-- **What an admissible registration asks for** meets no stray annotation. -/
theorem Registration.Admissible.strayFree {registration : Registration}
    (h : registration.Admissible) {factory : Factory}
    (hfactory : Registry.factoryOf registration = .ok factory) : factory.StrayFree := by
  obtain ⟨specs, hspecs, hshape⟩ := Registry.factoryOf_ok hfactory
  have hwell := Spec.wellFormed_of_coerceAll h.defaults hspecs
  have hregistrand := h.registrand
  -- the factory that was made tells what was registered, and that is admissible
  rcases hshape with ⟨schema, hschema, -, rfl⟩ | ⟨build, hbuild, -, rfl⟩
  · rw [hschema] at hregistrand
    cases hregistrand with
    | schema hrecipe hmade =>
        exact Factory.strayFree_of_schema (hrecipe.wellFormed hmade) _
  · rw [hbuild] at hregistrand
    cases hregistrand with
    | factory hbody => exact Factory.strayFree_of_body hbody hwell _ _

/-! ## Registries -/

/-- **After all calls** every registry is free of stray annotations. -/
theorem History.strayFree_run {calls : List Call}
    (hcalls : ∀ call ∈ calls, call.registration.Admissible) :
    ∀ r ∈ (run calls).registries, r.StrayFree := by
  intro r hr entry hmem
  obtain ⟨call, hcall, hfactory⟩ := exists_call_of_entry hr hmem
  exact (hcalls call hcall).strayFree hfactory

/-! ## Decoding -/

namespace Decoder

variable {registry : Registry} {spec : Spec}

/-- No fault that a decoding raises by itself is that of a stray annotation. -/
theorem not_stray_of_raises (hregistry : registry.StrayFree) (hspec : spec.WellFormed)
    {step : Spec → Json → Attempt Data} {room : Nat} {value : Json} {fault : Fault}
    (h : Raises registry step room spec value fault) : ¬fault.IsStray := by
  cases h with
  | factory hresolve hcall =>
      obtain ⟨key, hmem⟩ := Registry.mem_of_resolve hresolve
      exact (hregistry _ hmem).not_stray_of_call (Spec.WellFormed.custom_iff.mp hspec) hcall
  | rule => exact id
  | handler _ _ hhint => exact Schema.not_stray_of_specOf hhint
  | script _ _ _ hbreaks =>
      cases hbreaks with
      | complain => exact id
      | render hshown =>
          rcases Attempt.unshown?_eq_some hshown with hstop | ⟨hstop, -⟩ <;> cases hstop
          exact id
      | hint hhint => exact Schema.not_stray_of_specOf hhint
  | element => exact id

/-- All that decoding by a specification comes to can be described: whatever it is, with however
much room, it is well-formed; no frame and no record meets a stray annotation on the way; and the
report of a failure meets none either. -/
structure Describable (registry : Registry) (spec : Spec) : Prop where
  reached : ∀ {unions : Bool} {room less : Nat} {value found : Json} {path : List Location}
    {last : Spec}, Arrives registry unions room spec value path less last found → last.WellFormed
  faults : ∀ {room : Nat} {value : Json} {fault : Fault},
    (decode registry room spec value).result = .error (.faulted fault) → ¬fault.IsStray
  failures : ∀ {room : Nat} {value : Json} {e : DecodeError},
    (decode registry room spec value).result = .error (.failed e) → e.cause.stray? = none

theorem describable_of_strayFree (hregistry : registry.StrayFree) (hspec : spec.WellFormed) :
    Describable registry spec where
  reached h := (within_of_arrives Spec.WellFormed.hereditary Json.inherited_true hregistry.wellFormed h hspec
    trivial).1
  faults h := by
    -- a fault is raised where decoding arrives, by something that is well-formed itself
    rcases traced_of_faulted Spec.WellFormed.hereditary Json.inherited_true hregistry.wellFormed hspec trivial h
      with ⟨path, less, last, found, harrives, hraises⟩ | ⟨rfl, -⟩
    · have hlast := within_of_arrives Spec.WellFormed.hereditary Json.inherited_true hregistry.wellFormed harrives
        hspec trivial
      exact not_stray_of_raises hregistry hlast.1 hraises
    · exact id
  failures h := by
    have hcause := cause_within_of_failed Spec.WellFormed.hereditary Json.inherited_true hregistry.wellFormed hspec
      trivial h
    exact hcause.stray?

end Decoder

/-! ## Parsers -/

namespace Parser

variable {p : Parser} {hint : Spec} {fault : Fault}

/-- A failure is told, unless the specification or the reason has a flaw. -/
theorem faulted_of_told {spec : Spec} {reason : Option Spec.Flaw} {record : Log.Record}
    {failure : Failure} (hfailure : ∀ fault, failure ≠ .faulted fault)
    (h : (told spec reason record failure).result = .error (.faulted fault)) :
    ∃ flaw, (spec.flaw? = some flaw ∨ reason = some flaw) ∧ fault = .ofFlaw flaw := by
  unfold told at h
  split at h
  · next flaw hflaw =>
      cases h
      exact ⟨flaw, (Option.or_eq_some_iff.mp hflaw).imp_right And.right, rfl⟩
  · cases h
    exact (hfailure fault rfl).elim

/-- A parser adds no fault of a stray annotation to a decoding by a well-formed specification. -/
theorem stop_of_conclude {spec : Spec} (hspec : spec.WellFormed) {stop : Stop}
    (hcause : ∀ e, stop = .failed e → e.cause.Within Spec.WellFormed)
    (h : (p.conclude spec stop).result = .error (.faulted fault)) :
    stop = .faulted fault ∨ ¬fault.IsStray := by
  have hflaw {flaw : Spec.Flaw} (hflaw : spec.flaw? = some flaw) : ¬(Fault.ofFlaw flaw).IsStray := by
    rcases hspec.flaw?_eq with hdescription | hlong
    · cases hdescription.symm.trans hflaw
    · cases hlong.symm.trans hflaw
      exact id
  have htooDeep {record : Log.Record} {error : SyntaxError}
      (h : (told spec none record (.invalid error)).result = .error (.faulted fault)) :
      ¬fault.IsStray := by
    obtain ⟨flaw, hspecFlaw | hreason, rfl⟩ := faulted_of_told (by simp) h
    · exact hflaw hspecFlaw
    · cases hreason
  unfold conclude at h
  simp only at h
  split at h
  · next e =>
      obtain ⟨flaw, hspecFlaw | hreason, rfl⟩ := faulted_of_told (by simp) h
      · exact .inr (hflaw hspecFlaw)
      · exact .inr ((hcause e rfl).not_stray hreason)
  · exact .inr (htooDeep h)
  · split at h
    · exact .inr (htooDeep h)
    · cases h
      exact .inl rfl
  · cases h
    exact .inl rfl

theorem not_stray_of_decodeValue (hregistry : p.registry.StrayFree) (hhint : hint.Admissible)
    {value : Json} (h : (p.decodeValue value hint).result = .error (.faulted fault)) :
    ¬fault.IsStray := by
  unfold decodeValue at h
  split at h
  · next hspec =>
      cases h
      exact Schema.not_stray_of_specOf hspec
  · next spec hspec =>
      have hwell := hhint.wellFormed_of_specOf hspec
      dsimp only at h
      split at h
      · cases h
      · next stop hstop =>
          have hdescribable := describable_of_strayFree hregistry hwell
          have hcause (e : DecodeError) (he : stop = .failed e) : e.cause.Within Spec.WellFormed :=
            cause_within_of_failed Spec.WellFormed.hereditary Json.inherited_true hregistry.wellFormed
              hwell trivial (hstop.trans (congrArg Except.error he))
          rcases stop_of_conclude hwell hcause h with rfl | hfault
          · exact hdescribable.faults hstop
          · exact hfault

theorem not_stray_of_decode (hregistry : p.registry.StrayFree) (hhint : hint.Admissible)
    {input : Input} (h : (p.decode input hint).result = .error (.faulted fault)) :
    ¬fault.IsStray := by
  unfold decode at h
  dsimp only at h
  split at h
  · next unreadable _ =>
      cases unreadable <;> cases h <;> exact id
  · exact not_stray_of_decodeValue hregistry hhint h

/-- **Nothing is stray.** A supported annotation is admissible, and is coerced to a well-formed
specification, which is coerced to itself; so is what is made of supported annotations. In every
registry that arises by registering schemas and factories over admissible annotations, all that
decoding by such an annotation comes to can be described, and no parser with such a registry meets
an annotation where a specification is due, whatever it reads and decodes. -/
theorem never_stray {calls : List Call} (hcalls : ∀ call ∈ calls, call.registration.Admissible) :
    (∀ hint : Spec, hint.Supported → hint.Admissible ∧
      ∃ spec, hint.coerce = .ok spec ∧ spec.WellFormed ∧ spec.coerce = .ok spec) ∧
    (∀ construction : Construction, (∀ hint ∈ construction.hints, hint.Supported) →
      ∃ spec, construction.spec = .ok spec ∧ spec.WellFormed ∧ spec.coerce = .ok spec) ∧
    (∀ registry ∈ (History.run calls).registries, ∀ hint spec : Spec, hint.Admissible →
      hint.coerce = .ok spec → Describable registry spec) ∧
    (∀ p : Parser, p.registry ∈ (History.run calls).registries → ∀ hint : Spec, hint.Admissible →
      (∀ (value : Json) (fault : Fault),
        (p.decodeValue value hint).result = .error (.faulted fault) → ¬fault.IsStray) ∧
      ∀ (input : Input) (fault : Fault),
        (p.decode input hint).result = .error (.faulted fault) → ¬fault.IsStray) := by
  have hfree := History.strayFree_run hcalls
  refine ⟨fun hint hhint => ⟨hhint.admissible, hhint.coerces⟩, ?_, ?_, ?_⟩
  · intro construction hhints
    obtain ⟨spec, hspec, hwell⟩ := Construction.made hhints
    exact ⟨spec, hspec, hwell, hwell.coerce_eq⟩
  · intro registry hregistry hint spec hhint hspec
    exact describable_of_strayFree (hfree registry hregistry) (hhint.wellFormed_of_coerce hspec)
  · intro p hp hint hhint
    exact ⟨fun value fault => not_stray_of_decodeValue (hfree _ hp) hhint,
      fun input fault => not_stray_of_decode (hfree _ hp) hhint⟩

/-- Boxes that hold lists of what they are asked for, which is anything by default, and persons who
may have boxes of numbers under any names. -/
theorem never_stray_for_boxes :
    let box : Spec := .symbol (Text.lit "Box") []
    let person : Spec := .named (Text.lit "Person") [] 0
    let lists (element : Spec) : Recipe := .array (Text.lit "Box") (.generic .list [element]) .ok
    let boxed (arguments : List Spec) : Except Complaint Recipe :=
      match arguments with
      | [element] => .ok (lists element)
      | _ => .error ⟨.type, Text.lit "Box"⟩
    let boxes : RecordField :=
      ⟨Text.lit "boxes", .generic .dict [.builtin .str, .custom box [.primitive .number]],
        some (.fresh (.dict [])), .initial⟩
    let definition : RecordClass :=
      ⟨Text.lit "Person", [boxes], false, fun values _ => .ok values, none⟩
    let schema : Schema :=
      .object (Text.lit "Person")
        [⟨Text.lit "boxes", .mapOf .string (.custom box [.primitive .number]), true⟩] fun data =>
          definition.construct
            (KeyRequest.renamedEntries [(Text.lit "boxes", Text.lit "boxes")] data)
    let calls : List Call :=
      [⟨0, box, .factory fun arguments =>
          ((boxed arguments).mapError .complaint).bind Recipe.schema, none, [.builtin .any]⟩,
        ⟨1, person, .schema schema, none, []⟩]
    (∀ call ∈ calls, call.registration.Admissible) ∧
      ∃ r, (History.run calls).registries[2]? = some r ∧ r.identities = [box, person] ∧
        Describable r (.anyOf [.custom person [], .custom box [], .primitive .null]) := by
  intro box person lists boxed boxes definition schema calls
  have hlists {element : Spec} (h : element.WellFormed) : (lists element).Admissible := by
    refine List.forall_mem_singleton.mpr (.generic fun _ => List.forall_mem_singleton.mpr ?_)
    exact .specification h
  have hperson : (Recipe.record definition [] []).Admissible := by
    refine List.forall_mem_singleton.mpr (.generic fun _ => ?_)
    exact List.forall_mem_cons.mpr ⟨.builtin, List.forall_mem_singleton.mpr (.specification rfl)⟩
  have hcalls : ∀ call ∈ calls, call.registration.Admissible := by
    refine List.forall_mem_cons.mpr ⟨⟨?_, .factory fun arguments recipe hwell hbody => ?_⟩,
      List.forall_mem_singleton.mpr ⟨by simp, .schema hperson rfl⟩⟩
    · exact List.forall_mem_singleton.mpr .builtin
    · match arguments with
      | [element] =>
          cases hbody
          exact hlists (hwell element (List.mem_singleton_self _))
  obtain ⟨-, -, hdescribable, -⟩ := never_stray hcalls
  have hthird : ∃ r, (History.run calls).registries[2]? = some r ∧ r.identities = [box, person] :=
    ⟨_, rfl, rfl⟩
  obtain ⟨r, hr, hidentities⟩ := hthird
  have hwell : (Spec.anyOf [.custom person [], .custom box [], .primitive .null]).WellFormed := rfl
  exact ⟨hcalls, r, hr, hidentities,
    hdescribable r (List.mem_of_getElem? hr) _ _ (.specification hwell) hwell.coerce_eq⟩

end Parser

end JsonDecoding
