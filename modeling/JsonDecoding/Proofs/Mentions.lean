import JsonDecoding.Proofs.Coercions

/-!
# Mentioned identities

Which identities a specification refers to, and an annotation by the specification that it stands
for (`Spec.mentions_coerce`). A factory that adds no references outside some set of identities gives
for arguments within that set only schemas within it (`Factory.RefersWithin.call`).
-/

namespace JsonDecoding

namespace Spec

mutual

/-- The identities that a specification refers to, those in the arguments of custom specifications
included. An annotation refers to what the specification does that it stands for. -/
def mentions : Spec → List Spec
  | .arrayOf element => mentions element
  | .objectOf content => mentions content
  | .mapOf key content => mentions key ++ mentions content
  | .setOf element => mentions element
  | .tupleOf specs => mentionsAmong specs
  | .anyOf specs => mentionsAmong specs
  | .custom identity arguments => identity :: mentionsAmong arguments
  | .builtin type => if (type.native?.or type.alias?).isSome then [] else [.builtin type]
  | .token .null => []
  | .generic head parameters =>
      match head with
      | .type | .plain _ => [.generic head parameters]
      | _ => mentionsAmong parameters
  | .union _ members => mentionsAmong members
  | .primitive _ | .bareArray | .bareObject => []
  | hint => [hint]

/-- The identities that several specifications refer to. -/
def mentionsAmong : List Spec → List Spec
  | [] => []
  | spec :: rest => mentions spec ++ mentionsAmong rest

end

theorem mem_mentionsAmong {specs : List Spec} {identity : Spec} :
    identity ∈ mentionsAmong specs ↔ ∃ spec ∈ specs, identity ∈ spec.mentions := by
  induction specs with
  | nil => simp [mentionsAmong]
  | cons spec rest ih => simp [mentionsAmong, ih]

theorem mentionsAmong_subset {specs : List Spec} {identities : List Spec}
    (h : ∀ spec ∈ specs, spec.mentions ⊆ identities) : mentionsAmong specs ⊆ identities := by
  intro identity hmem
  obtain ⟨spec, hspec, hidentity⟩ := mem_mentionsAmong.mp hmem
  exact h spec hspec hidentity

theorem mentions_firstOrAny {results : List (Except Misuse Spec)} {spec : Spec}
    {identities : List Spec}
    (h : ∀ result, .ok result ∈ results → result.mentions ⊆ identities)
    (hfirst : firstOrAny results = .ok spec) : spec.mentions ⊆ identities := by
  rcases firstOrAny_ok hfirst with rfl | hmem
  · simp [mentions]
  · exact h spec hmem

theorem mentions_coercedMap {results : List (Except Misuse Spec)} {spec : Spec}
    {identities : List Spec}
    (h : ∀ result, .ok result ∈ results → result.mentions ⊆ identities)
    (hmap : coercedMap results = .ok spec) : spec.mentions ⊆ identities := by
  obtain ⟨key, content, rfl, ⟨rfl, rfl⟩ | ⟨hkey, hcontent⟩⟩ := coercedMap_ok hmap
  · simp [mentions]
  · exact List.append_subset.mpr ⟨h key hkey, h content hcontent⟩

theorem mentions_coercedTuple {parameters : List Spec} {results : List (Except Misuse Spec)}
    {spec : Spec} {identities : List Spec}
    (h : ∀ result, .ok result ∈ results → result.mentions ⊆ identities)
    (htuple : coercedTuple parameters results = .ok spec) : spec.mentions ⊆ identities := by
  rcases coercedTuple_ok htuple with ⟨element, rfl, helement⟩ | ⟨specs, rfl, hspecs⟩
  · exact h element helement
  · exact mentionsAmong_subset fun part hpart => h part (hspecs part hpart)

mutual

/-- **Coercion adds no references** to those of the annotation. -/
theorem mentions_coerce : ∀ {hint spec : Spec}, hint.coerce = .ok spec →
    spec.mentions ⊆ hint.mentions
  | .generic head parameters, spec, h => by
      have hparameters := mentions_coerceEach parameters
      cases head with
      | list | set | frozenset =>
          obtain ⟨element, helement, rfl⟩ := Outcomes.map_ok.mp h
          rw [mentions]
          exact mentions_firstOrAny hparameters helement
      | dict => exact mentions_coercedMap hparameters h
      | tuple => exact mentions_coercedTuple hparameters h
      | type | plain =>
          cases h
          simp [mentions, mentionsAmong]
  | .union _ members, spec, h => by
      obtain ⟨specs, hspecs, rfl⟩ := Outcomes.map_ok.mp h
      exact mentionsAmong_subset fun part hpart =>
        mentions_coerceEach members part (mapM_id_ok hspecs hpart)
  | .builtin type, spec, h => by
      cases h
      cases type <;> simp [Builtin.native?, Builtin.alias?, mentions, mentionsAmong]
  | .token value, spec, h => by
      cases value with
      | null =>
          cases h
          simp [mentions]
      | _ =>
          rcases eq_of_coerce_token h with rfl | rfl
          · simp [mentions]
          · simp [mentions, mentionsAmong]
  | .several form items, spec, h => by
      cases form with
      | tuple =>
          cases h
          simp [mentions, mentionsAmong]
      | list => cases h
  | .named .., spec, h | .written _, spec, h | .symbol .., spec, h => by
      cases h
      simp [mentions, mentionsAmong]
  | .primitive _, spec, h | .bareArray, spec, h | .bareObject, spec, h | .arrayOf _, spec, h
  | .objectOf _, spec, h | .mapOf .., spec, h | .setOf _, spec, h | .tupleOf _, spec, h
  | .anyOf _, spec, h | .custom .., spec, h => by
      cases h
      exact List.Subset.refl _

theorem mentions_coerceEach : ∀ (hints : List Spec) (spec : Spec), .ok spec ∈ coerceEach hints →
    spec.mentions ⊆ mentionsAmong hints
  | [], _, h => by cases h
  | hint :: rest, spec, h => by
      rw [mentionsAmong]
      rcases List.mem_cons.mp h with hfirst | hrest
      · exact List.subset_append_of_subset_left _ (mentions_coerce hfirst.symm)
      · exact List.subset_append_of_subset_right _ (mentions_coerceEach rest spec hrest)

end

end Spec

/-! ## Schemas, factories and registries -/

/-- A specification refers to identities with a property only. -/
def Spec.RefersWithin (p : Spec → Prop) (spec : Spec) : Prop :=
  ∀ identity ∈ spec.mentions, p identity

/-- A procedure refers to such identities only, in what it loads and in what it asks about, whatever
it learns. To ask for all that are registered is to refer to every identity. -/
def Procedure.RefersWithin (p : Spec → Prop) : Procedure → Prop
  | .answer _ => True
  | .complain _ => True
  | .render _ next => ∀ text, (next text).RefersWithin p
  | .load _ hint next => hint.RefersWithin p ∧ ∀ result, (next result).RefersWithin p
  | .consult identity next => p identity ∧ ∀ found, (next found).RefersWithin p
  | .survey next => (∀ identity, p identity) ∧ ∀ identities, (next identities).RefersWithin p

/-- A handler refers to such identities only. -/
def Handler.RefersWithin (p : Spec → Prop) : Handler → Prop
  | .delegate hint _ => hint.RefersWithin p
  | .script act => ∀ value, (act value).RefersWithin p

/-- A schema refers to such identities only in the specifications by which it decodes, or its
handler does. -/
def Schema.RefersWithin (p : Spec → Prop) : Schema → Prop
  | .raw _ _ handler => handler.RefersWithin p
  | schema => ∀ spec ∈ schema.specs, spec.RefersWithin p

/-- The defaults of a factory refer to such identities only, and so does what its body builds of
arguments that do. -/
structure Factory.RefersWithin (p : Spec → Prop) (f : Factory) : Prop where
  defaults : ∀ spec ∈ f.defaults, spec.RefersWithin p
  body : ∀ arguments schema, (∀ argument ∈ arguments, argument.RefersWithin p) →
    f.build arguments = .ok schema → schema.RefersWithin p

/-- All that is registered refers to such identities only. -/
def Registry.RefersWithin (p : Spec → Prop) (r : Registry) : Prop :=
  ∀ entry ∈ r.entries, entry.2.RefersWithin p

variable {p : Spec → Prop}

namespace Spec

/-- Several specifications refer to such identities only exactly when each does. -/
theorem refersWithin_among {specs : List Spec} :
    (∀ identity ∈ mentionsAmong specs, p identity) ↔ ∀ spec ∈ specs, spec.RefersWithin p := by
  simp only [mem_mentionsAmong, RefersWithin]
  grind

namespace RefersWithin

theorem any : Spec.any.RefersWithin p := fun _ h => by cases h

theorem mapOf {key content : Spec} (h : (Spec.mapOf key content).RefersWithin p) :
    content.RefersWithin p := fun identity hmem => h identity (List.mem_append_right _ hmem)

theorem identity {identity : Spec} {arguments : List Spec}
    (h : (custom identity arguments).RefersWithin p) : p identity :=
  h identity (List.mem_cons_self ..)

theorem arguments {identity : Spec} {arguments : List Spec}
    (h : (custom identity arguments).RefersWithin p) :
    ∀ argument ∈ arguments, argument.RefersWithin p :=
  refersWithin_among.mp fun other hmem => h other (List.mem_cons_of_mem _ hmem)

theorem desugar {spec : Spec} (h : spec.RefersWithin p) : spec.desugar.RefersWithin p := by
  cases spec with
  | bareArray | bareObject => exact any
  | _ => exact h

theorem specOf {hint spec : Spec} (h : hint.RefersWithin p)
    (hspec : Schema.specOf hint = .ok spec) : spec.RefersWithin p := fun identity hmem =>
  h identity (mentions_coerce (Outcomes.mapError_ok.mp hspec) hmem)

end RefersWithin

end Spec

/-- The schema that a factory gives for arguments within bounds stays within them. -/
theorem Factory.RefersWithin.call {f : Factory} (hf : f.RefersWithin p) {arguments : List Spec}
    (harguments : ∀ argument ∈ arguments, argument.RefersWithin p) {schema : Schema}
    (h : f.call arguments = .ok schema) : schema.RefersWithin p := by
  refine hf.body _ _ (fun argument hmem => ?_) (call_ok h)
  exact (mem_filled hmem).elim (harguments argument) (hf.defaults argument)

end JsonDecoding
