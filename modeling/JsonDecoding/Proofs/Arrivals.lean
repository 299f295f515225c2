import JsonDecoding.Proofs.Failures
import JsonDecoding.Proofs.Procedures
import JsonDecoding.Proofs.Termination

/-!
# Arrivals

Decoding comes to its parts, alternatives and schemas in order (`Arrives`), and at some of these
places it raises a fault (`Raises`). Let all that is written have a property that parts inherit: then
what is come to has it as well (`course_leadsWithin`), so does a specification that a failure blames
(`cause_within_of_failed`), and no other place is at fault, except that an integer may have too many
digits to be shown (`course_endsIn`).
-/

namespace JsonDecoding

open Attempt Decoder

/-! ## What a decoding comes to -/

/-- Decoding a value with some room comes, along a path, to a specification and a part of the value
with the room that is left: all parts in front have decoded, all alternatives in front have failed.
Whether the way may lead through what catches failures, alternatives and procedures, is said by
`unions`; a path starts anew with a value that a procedure has decoded. -/
inductive Arrives (registry : Registry) (unions : Bool) :
    Nat → Spec → Json → List Location → Nat → Spec → Json → Prop where
  | here {room : Nat} {spec : Spec} {value : Json} :
      Arrives registry unions room spec value [] room spec value
  | part {room less : Nat} {spec last : Spec} {value found : Json} {path : List Location}
      {before after : List Part} {part : Part} {finish : List Data → Attempt Data}
      (hcourse : course registry spec value = .parts (before ++ part :: after) finish)
      (hbefore : ∀ earlier ∈ before, ∃ data,
        (decode registry room earlier.spec earlier.value).result = .ok data)
      (h : Arrives registry unions room part.spec part.value path less last found) :
      Arrives registry unions (room + 1) spec value (part.location :: path) less last found
  | alternative {room less : Nat} {spec whole alternative last : Spec} {value found : Json}
      {path : List Location} {before after : List Spec} (hunions : unions = true)
      (hcourse : course registry spec value = .alternatives whole (before ++ alternative :: after))
      (hbefore : ∀ earlier ∈ before, ∃ e,
        (decode registry room earlier value).result = .error (.failed e))
      (h : Arrives registry unions room alternative value path less last found) :
      Arrives registry unions (room + 1) spec value path less last found
  | delegated {room less : Nat} {spec next last : Spec} {value found : Json}
      {path : List Location} {build : Data → Data}
      (hcourse : course registry spec value = .delegated next build)
      (h : Arrives registry unions room next value path less last found) :
      Arrives registry unions (room + 1) spec value path less last found
  | loaded {room less : Nat} {spec hint inner last : Spec} {value seen found : Json}
      {path : List Location} {procedure : Procedure} {next : Except DecodeError Data → Procedure}
      (hunions : unions = true) (hcourse : course registry spec value = .scripted procedure)
      (hleads : procedure.Leads registry (decode registry room) room (.load seen hint next))
      (hhint : Schema.specOf hint = .ok inner)
      (h : Arrives registry unions room inner seen path less last found) :
      Arrives registry unions (room + 1) spec value path less last found

/-- What the rule of a schema answers about a value of which all parts have decoded. -/
inductive Schema.Answers (step : Spec → Json → Attempt Data) :
    Schema → Json → Except Complaint Data → Prop where
  | object {description : Text} {fields : List Field} {assemble : Rule}
      {content : List (Text × Json)} {entries : List (Data × Data)}
      (hmissing : missingKeys fields content = []) (hunknown : unknownKeys fields content = [])
      (hentries : (declared step content fields).result = .ok entries) :
      Answers step (.object description fields assemble) (.object content)
        (assemble (.dict entries))
  | array {description : Text} {element : Spec} {assemble : Rule} {items : List Json}
      {data : List Data} (hitems : (elements (step element) 0 items).result = .ok data) :
      Answers step (.array description element assemble) (.array items) (assemble (.list data))
  | scalar {description : Text} {shape : Tag} {convert : Rule} {value : Json} {data : Data}
      (hdata : value.scalar? = some data) (hshape : value.tag = shape) :
      Answers step (.scalar description shape convert) value (convert data)

/-- A custom specification is decoded by a schema. -/
def Spec.DecodedBy (registry : Registry) (spec : Spec) (schema : Schema) : Prop :=
  ∃ identity arguments factory, spec = .custom identity arguments ∧
    registry.resolve identity = some factory ∧ factory.call arguments = .ok schema

/-- A fault that a decoding comes to by itself: of the factory, of the rule of the schema, when it
complains about anything but the value, of the annotation that a handler goes by, of a handler's
procedure, or of a record that lacks a field, when it is to go into a set. -/
inductive Raises (registry : Registry) (step : Spec → Json → Attempt Data) (room : Nat) :
    Spec → Json → Fault → Prop where
  | factory {identity : Spec} {arguments : List Spec} {factory : Factory} {value : Json}
      {fault : Fault} (hresolve : registry.resolve identity = some factory)
      (hcall : factory.call arguments = .error fault) :
      Raises registry step room (.custom identity arguments) value fault
  | rule {spec : Spec} {schema : Schema} {value : Json} {complaint : Complaint}
      (hschema : spec.DecodedBy registry schema)
      (hanswer : schema.Answers step value (.error complaint))
      (hconcern : complaint.concern.rejects = false) :
      Raises registry step room spec value (.complaint complaint)
  | handler {spec hint : Spec} {description : Text} {shape : Option Tag} {label : Option Text}
      {value : Json} {fault : Fault}
      (hschema : spec.DecodedBy registry (.raw description shape (.delegate hint label)))
      (hshape : shape.all (· = value.tag) = true) (hhint : Schema.specOf hint = .error fault) :
      Raises registry step room spec value fault
  | script {spec : Spec} {description : Text} {shape : Option Tag} {act : Json → Procedure}
      {value : Json} {last : Procedure} {fault : Fault}
      (hschema : spec.DecodedBy registry (.raw description shape (.script act)))
      (hshape : shape.all (· = value.tag) = true)
      (hleads : (act value).Leads registry step room last) (hbreaks : last.Breaks room fault) :
      Raises registry step room spec value fault
  | element {element : Spec} {items : List Json} {data : List Data} {className field : Text}
      (hitems : (elements (step element) 0 items).result = .ok data)
      (hlacking : Data.unhashableItem? data = some (.lacking className field)) :
      Raises registry step room (.setOf element) (.array items)
        (.complaint ⟨.attribute, (Data.Unhashable.lacking className field).message⟩)

/-! ## Courses of specifications with a property -/

/-- Some specification with a property has no description. -/
def Spec.SomeUndescribed (p : Spec → Prop) : Prop := ∃ spec, p spec ∧ ¬spec.HasDescription

/-- An attempt that ends in no fault, unless some specification has no description, and whose
failures blame no specification without a property. -/
structure Attempt.Quiet (p : Spec → Prop) (t : Attempt Data) : Prop where
  faulted : ∀ fault, t.result = .error (.faulted fault) →
    fault = .overlong ∧ Spec.SomeUndescribed p
  failed : ∀ e, t.result = .error (.failed e) → e.cause.Within p

variable {p : Spec → Prop} {q : Json → Prop}

namespace Attempt.Quiet

theorem of_done (data : Data) : (Attempt.done data).Quiet p := by
  constructor <;> simp [Attempt.done]

theorem of_refuse {cause : Cause} (h : cause.Within p) :
    (Attempt.refuse cause : Attempt Data).Quiet p := by
  refine ⟨by simp [refuse, stopped], fun e he => ?_⟩
  cases he
  exact h

theorem of_mismatch (expected : Text) (value : Json) : (mismatch expected value).Quiet p :=
  of_refuse trivial

/-- What is about to be described keeps quiet as long as nothing else is at fault. -/
theorem of_describable {spec : Spec} {t : Attempt Data} (hspec : p spec) (hformed : spec.WellFormed)
    (h : t.Quiet p) : (describable spec t).Quiet p := by
  rcases hformed.flaw?_eq with hdescription | hflaw
  · rwa [describable_of_hasDescription hdescription]
  · simp only [describable, hflaw]
    refine ⟨fun fault hfault => ?_, by simp [Attempt.fault, stopped]⟩
    cases hfault
    exact ⟨rfl, spec, hspec, by simp [Spec.HasDescription, hflaw]⟩

/-- A rule refuses the value, or complains about something else. -/
theorem of_ofRule (description : Text) (value : Json) (answer : Except Complaint Data) :
    (Attempt.ofRule description value answer).Quiet p ∨
      ∃ complaint, answer = .error complaint ∧ complaint.concern.rejects = false ∧
        Attempt.ofRule description value answer = .fault (.complaint complaint) := by
  cases answer with
  | ok data => exact .inl (of_done data)
  | error complaint =>
      cases hrejects : complaint.concern.rejects with
      | true =>
          simp only [Attempt.ofRule, hrejects, if_true]
          exact .inl (of_refuse trivial)
      | false =>
          simp only [Attempt.ofRule, hrejects, Bool.false_eq_true, if_false]
          exact .inr ⟨complaint, rfl, hrejects, rfl⟩

/-- What is quiet or ends in a given fault fails with blame for such specifications only. -/
theorem within_of_failed {t : Attempt Data} {raised : Fault → Prop}
    (h : t.Quiet p ∨ ∃ fault, t = .fault fault ∧ raised fault) {e : DecodeError}
    (hfailed : t.result = .error (.failed e)) : e.cause.Within p := by
  rcases h with h | ⟨fault, rfl, -⟩
  · exact h.failed e hfailed
  · cases hfailed

/-- What is quiet or ends in a given fault ends in no other. -/
theorem raised_of_faulted {t : Attempt Data} {raised : Fault → Prop}
    (h : t.Quiet p ∨ ∃ fault, t = .fault fault ∧ raised fault) {fault : Fault}
    (hfaulted : t.result = .error (.faulted fault)) :
    raised fault ∨ fault = .overlong ∧ Spec.SomeUndescribed p := by
  rcases h with h | ⟨other, rfl, hraised⟩
  · exact .inr (h.faulted fault hfaulted)
  · cases hfaulted
    exact .inl hraised

end Attempt.Quiet

/-- All specifications that a course leads to have a property, and the values that its procedure has
decoded have one too. -/
def Course.LeadsWithin (p : Spec → Prop) (q : Json → Prop) : Course → Prop
  | .settled _ => True
  | .parts members _ => ∀ part ∈ members, p part.spec
  | .alternatives whole specs => p whole ∧ ∀ spec ∈ specs, p spec
  | .delegated spec _ => p spec
  | .scripted procedure => procedure.Within p q p

/-- A course ends without a fault, or in one of those given, where it leads to nothing else and
where all parts have decoded. -/
def Course.EndsIn (p : Spec → Prop) (step : Spec → Json → Attempt Data) (raised : Fault → Prop) :
    Course → Prop
  | .settled outcome => ∀ room,
      (outcome room).Quiet p ∨ ∃ fault, outcome room = .fault fault ∧ raised fault
  | .parts members finish => ∀ data,
      (inOrder (members.map (Part.attempt step))).result = .ok data →
        (finish data).Quiet p ∨ ∃ fault, finish data = .fault fault ∧ raised fault
  | _ => True

namespace Part

variable {part : Part}

theorem spec_of_items {element : Spec} {items : List Json} (h : part ∈ ofItems element items) :
    part.spec = element := by
  obtain ⟨item, -, rfl⟩ := List.mem_map.mp h
  rfl

theorem spec_of_fields {content : Spec} {fields : List (Text × Json)}
    (h : part ∈ ofFields content fields) : part.spec = content := by
  obtain ⟨field, -, rfl⟩ := List.mem_map.mp h
  rfl

theorem spec_of_positions {specs : List Spec} {items : List Json}
    (h : part ∈ ofPositions specs items) : part.spec ∈ specs := by
  obtain ⟨pair, hpair, rfl⟩ := List.mem_map.mp h
  exact (List.of_mem_zip (List.fst_mem_of_mem_zipIdx hpair)).1

theorem spec_of_declared {fields : List Field} {content : List (Text × Json)}
    (h : part ∈ ofDeclared fields content) : part.spec ∈ fields.map Field.spec := by
  obtain ⟨⟨field, item⟩, hpart, rfl⟩ := List.mem_map.mp h
  exact List.mem_map_of_mem (mem_present.mp hpart).1

end Part

namespace Course

variable {registry : Registry} {step : Spec → Json → Attempt Data} {raised : Fault → Prop}
  {spec : Spec} {value : Json}

theorem IsOfSpec.leadsWithin {c : Course} (h : IsOfSpec spec value c) (hp : Spec.Hereditary p)
    (hspec : p spec) : c.LeadsWithin p q := by
  have hcontents := hp.contents hspec
  cases h with
  | items hmem => exact fun part hpart => Part.spec_of_items hpart ▸ hcontents _ hmem
  | fields hmem => exact fun part hpart => Part.spec_of_fields hpart ▸ hcontents _ hmem
  | distinct hset =>
      subst hset
      exact fun part hpart => hcontents _ (by simp [Spec.contents, Part.spec_of_items hpart])
  | positions htuple =>
      subst htuple
      exact fun part hpart => hcontents _ (Part.spec_of_positions hpart)
  | alternatives hunion =>
      subst hunion
      exact ⟨hspec, hcontents⟩
  | settled => trivial

theorem IsOfSchema.leadsWithin {schema : Schema} {c : Course} (h : IsOfSchema schema value c)
    (hschema : schema.Within p q) (hvalue : q value) : c.LeadsWithin p q := by
  cases h with
  | object hobject =>
      subst hobject
      exact fun part hpart => hschema _ (Part.spec_of_declared hpart)
  | array harray =>
      subst harray
      exact fun part hpart => Part.spec_of_items hpart ▸ hschema _ (List.mem_singleton_self _)
  | delegated hraw _ hhint =>
      subst hraw
      exact hschema _ hhint
  | scripted hraw =>
      subst hraw
      exact hschema value hvalue
  | settled => trivial

/-- A specification that is one ends quietly where it decodes no part. -/
theorem EndOfSpec.quiet {t : Attempt Data} (h : EndOfSpec spec value t) (hp : Spec.Hereditary p)
    (hspec : p spec) (hplain : spec.desugar = spec) (hcustom : ¬spec.IsCustom) : t.Quiet p := by
  cases h with
  | scalar => exact .of_done _
  | kind | array | object | tuple => exact .of_mismatch _ _
  | length => exact .of_refuse trivial
  | key hmap =>
      subst hmap
      exact .of_refuse (hp.key hspec)
  | stray hstray => exact (hcustom (hstray hplain (hp.wellFormed hspec))).elim

/-- A specification ends in a fault of its own only where an element of a set lacks a field. -/
theorem IsOfSpec.endsIn {c : Course} (h : IsOfSpec spec value c) (hp : Spec.Hereditary p)
    (hspec : p spec) (hplain : spec.desugar = spec) (hcustom : ¬spec.IsCustom)
    (helement : ∀ element items data className field, spec = .setOf element → value = .array items →
      (elements (step element) 0 items).result = .ok data →
      Data.unhashableItem? data = some (.lacking className field) →
      raised (.complaint ⟨.attribute, (Data.Unhashable.lacking className field).message⟩)) :
    c.EndsIn p step raised := by
  cases h with
  | items | fields | positions => exact fun data _ => .inl (.of_done _)
  | distinct hset hvalue =>
      intro data hdata
      rw [← elements_eq_inOrder] at hdata
      unfold Decoder.setOf
      split
      · exact .inl (.of_done _)
      · next hlacking => exact .inr ⟨_, rfl, helement _ _ _ _ _ hset hvalue hdata hlacking⟩
      · exact .inl (.of_describable hspec (hp.wellFormed hspec) (.of_refuse trivial))
  | alternatives => trivial
  | settled hend => exact fun room => .inl ((hend room).quiet hp hspec hplain hcustom)

/-- The rule of an object schema is asked about the dictionary of all declared fields. -/
theorem answers_of_declared {description : Text} {fields : List Field} {assemble : Rule}
    {content : List (Text × Json)} {data : List Data}
    (hmissing : missingKeys fields content = []) (hunknown : unknownKeys fields content = [])
    (hdata : (inOrder ((Part.ofDeclared fields content).map (Part.attempt step))).result =
      .ok data) :
    (Schema.object description fields assemble).Answers step (.object content)
      (assemble (dict ((present content fields).map fun part => part.1.key) data)) := by
  have hdict := congrArg Attempt.result (declared_eq_inOrder step fields content)
  rw [result_map, result_map, hdata] at hdict
  obtain ⟨entries, hentries, heq⟩ := Outcomes.map_ok.mp hdict
  rw [← heq]
  exact .object hmissing hunknown hentries

/-- A schema ends in a fault of its own only where its rule complains about something else than the
value, or the annotation that its handler goes by is none. -/
theorem IsOfSchema.endsIn {schema : Schema} {c : Course} (h : IsOfSchema schema value c)
    (hrule : ∀ complaint, schema.Answers step value (.error complaint) →
      complaint.concern.rejects = false → raised (.complaint complaint))
    (hhandler : ∀ description shape hint label fault,
      schema = .raw description shape (.delegate hint label) →
      shape.all (· = value.tag) = true → Schema.specOf hint = .error fault → raised fault) :
    c.EndsIn p step raised := by
  have hends {description answer} (h : schema.Answers step value answer) :
      (ofRule description value answer).Quiet p ∨
        ∃ fault, ofRule description value answer = .fault fault ∧ raised fault := by
    refine (Quiet.of_ofRule description value answer).imp_right ?_
    rintro ⟨complaint, rfl, hconcern, hfault⟩
    exact ⟨_, hfault, hrule complaint h hconcern⟩
  cases h with
  | object hschema hvalue hmissing hunknown =>
      subst hschema hvalue
      exact fun data hdata => hends (answers_of_declared hmissing hunknown hdata)
  | array hschema hvalue =>
      subst hschema hvalue
      intro data hdata
      rw [← elements_eq_inOrder] at hdata
      exact hends (.array hdata)
  | delegated | scripted => trivial
  | @settled outcome hend =>
      intro room
      have h := hend room
      generalize outcome room = t at h
      cases h with
      | scalar hschema hdata hshape =>
          subst hschema
          exact hends (.scalar hdata hshape)
      | kind => exact .inl (.of_mismatch _ _)
      | missing | unknown => exact .inl (.of_refuse trivial)
      | stray hschema hshape hhint => exact .inr ⟨_, rfl, hhandler _ _ _ _ _ hschema hshape hhint⟩

end Course

/-! ## The faults and failures of specifications with a property -/

namespace Decoder

variable {registry : Registry} {spec : Spec}

theorem desugar_desugar (spec : Spec) : spec.desugar.desugar = spec.desugar := by
  cases spec <;> rfl

theorem course_leadsWithin (hp : Spec.Hereditary p) (hregistry : registry.Within p q)
    (hspec : p spec) {value : Json} (hvalue : q value) :
    (course registry spec value).LeadsWithin p q := by
  have h := isCourse registry spec value
  generalize course registry spec value = c at h ⊢
  cases h with
  | unregistered | failed => trivial
  | schema hcustom hresolve hcall h =>
      subst hcustom
      obtain ⟨key, hmem⟩ := Registry.mem_of_resolve hresolve
      exact h.leadsWithin ((hregistry _ hmem).call (hp.arguments hspec) hcall) hvalue
  | plain _ h => exact h.leadsWithin hp (hp.desugar hspec)

/-- Decoding ends in a fault of its own only where it raises one. -/
theorem course_endsIn (registry : Registry) (hp : Spec.Hereditary p) (hspec : p spec) (value : Json)
    (step : Spec → Json → Attempt Data) (room : Nat) :
    (course registry spec value).EndsIn p step (Raises registry step room spec value) := by
  have h := isCourse registry spec value
  generalize course registry spec value = c at h ⊢
  cases h with
  | unregistered => exact fun room => .inl (.of_refuse hspec)
  | failed hcustom hresolve hcall =>
      subst hcustom
      exact fun room => .inr ⟨_, rfl, .factory hresolve hcall⟩
  | schema hcustom hresolve hcall h =>
      have huses : spec.DecodedBy registry _ := ⟨_, _, _, hcustom, hresolve, hcall⟩
      refine h.endsIn (fun complaint => .rule huses) ?_
      rintro description shape hint label fault rfl hshape hhint
      exact .handler huses hshape hhint
  | plain hcustom h =>
      refine h.endsIn hp (hp.desugar hspec) (desugar_desugar spec) hcustom ?_
      rintro element items data className field hset rfl hdata hlacking
      obtain rfl : spec = .setOf element := by cases spec <;> simp_all [Spec.desugar]
      exact .element hdata hlacking

/-- A course that goes through a procedure is that of a handler. -/
theorem exists_script_of_course {value : Json} {procedure : Procedure}
    (h : course registry spec value = .scripted procedure) :
    ∃ description shape act, spec.DecodedBy registry (.raw description shape (.script act)) ∧
      shape.all (· = value.tag) = true ∧ procedure = act value := by
  have hcourse := isCourse registry spec value
  rw [h] at hcourse
  cases hcourse with
  | schema hcustom hresolve hcall hschema =>
      cases hschema with
      | scripted hraw hshape =>
          subst hraw
          exact ⟨_, _, _, ⟨_, _, _, hcustom, hresolve, hcall⟩, hshape, rfl⟩
  | plain _ hspec => cases hspec

/-- A failure is headed by a description, unless the specification has none. -/
theorem heading_cases (registry : Registry) (hspec : spec.WellFormed) :
    (∃ description, heading registry spec = .ok description) ∨
      heading registry spec = .error .overlong ∧ ¬spec.HasDescription := by
  have hcases : (∃ description, spec.desugar.heading = .ok description) ∨
      spec.desugar.heading = .error .overlong ∧ ¬spec.HasDescription := by
    rcases hspec.desugar.flaw?_eq with hdescription | hflaw
    · have hnone : spec.desugar.flaw? = none := hdescription
      exact .inl ⟨spec.desugar.describe, by simp only [Spec.heading, hnone]⟩
    · refine .inr ⟨by simp only [Spec.heading, hflaw], fun hdescription => ?_⟩
      rw [show spec.desugar.flaw? = none from hdescription.desugar] at hflaw
      cases hflaw
  unfold heading
  split
  · next hcustom =>
      rw [hcustom] at hcases
      split
      · exact hcases
      · exact .inl ⟨_, rfl⟩
  · exact hcases

theorem heading_of_hasDescription (registry : Registry) (hspec : spec.HasDescription) :
    ∃ description, heading registry spec = .ok description :=
  (heading_cases registry hspec.wellFormed).resolve_right fun h => h.2 hspec

end Decoder

/-! ## Alternatives -/

namespace Decoder

variable {step : Spec → Json → Attempt Data} {whole : Spec} {value : Json}

theorem not_someUndescribed : ¬Spec.SomeUndescribed Spec.HasDescription := by
  rintro ⟨spec, hspec, hnot⟩
  exact hnot hspec

theorem describable_cases {spec : Spec} (hp : Spec.Hereditary p) (hspec : p spec)
    (t : Attempt Data) :
    describable spec t = t ∨ describable spec t = .fault .overlong ∧ Spec.SomeUndescribed p := by
  rcases (hp.wellFormed hspec).flaw?_eq with hdescription | hflaw
  · exact .inl (describable_of_hasDescription hdescription t)
  · refine .inr ⟨by simp only [describable, hflaw, Fault.ofFlaw], spec, hspec, ?_⟩
    simp [Spec.HasDescription, hflaw]

/-- The record of an alternative that cannot be resolved is in the way of nothing, unless something
that it names has no description. -/
theorem unresolved_cases (hp : Spec.Hereditary p) {alternative : Spec} {e : DecodeError}
    (hwhole : p whole) (halternative : p alternative) (hcause : e.cause.Within p)
    (t : Attempt Data) :
    (unresolved whole alternative e t).result = t.result ∨
      (unresolved whole alternative e t).result = .error (.faulted .overlong) ∧
        Spec.SomeUndescribed p := by
  cases he : e.cause with
  | unknownSpec spec =>
      have hspec : p spec := by rwa [he] at hcause
      simp only [unresolved, he]
      generalize hrecorded : Attempt.after _ t = recorded
      have hsame : recorded.result = t.result := by rw [← hrecorded, result_after]
      -- the three descriptions come one after the other
      rcases describable_cases hp hspec recorded with heq | ⟨heq, hnone⟩
      · rcases describable_cases hp hwhole recorded with heq' | ⟨heq', hnone⟩
        · rcases describable_cases hp halternative recorded with heq'' | ⟨heq'', hnone⟩
          · exact .inl (by rw [heq, heq', heq'', hsame])
          · exact .inr ⟨by rw [heq, heq', heq'']; rfl, hnone⟩
        · rcases describable_cases hp halternative (.fault .overlong) with heq'' | ⟨heq'', -⟩ <;>
            exact .inr ⟨by rw [heq, heq', heq'']; rfl, hnone⟩
      · rcases describable_cases hp hwhole (.fault .overlong) with heq' | ⟨heq', -⟩ <;>
          rcases describable_cases hp halternative (.fault .overlong) with heq'' | ⟨heq'', -⟩ <;>
          exact .inr ⟨by rw [heq, heq', heq'']; rfl, hnone⟩
  | _ => exact .inl (by simp only [unresolved, he, id])

theorem result_unresolved {alternative : Spec} {e : DecodeError} (hwhole : whole.HasDescription)
    (halternative : alternative.HasDescription) (hcause : e.cause.Within Spec.HasDescription)
    (t : Attempt Data) : (unresolved whole alternative e t).result = t.result :=
  (unresolved_cases Spec.HasDescription.hereditary hwhole halternative hcause t).resolve_right fun h =>
    not_someUndescribed h.2

/-- **A union goes on** after alternatives that fail. -/
theorem firstOf_append {before : List Spec} (hwhole : whole.HasDescription)
    (hspecs : ∀ spec ∈ before, spec.HasDescription)
    (hquiet : ∀ spec ∈ before, ∀ e, (step spec value).result = .error (.failed e) →
      e.cause.Within Spec.HasDescription)
    (hbefore : ∀ spec ∈ before, ∃ e, (step spec value).result = .error (.failed e))
    (rest : List Spec) :
    (firstOf step whole value (before ++ rest)).result =
      (firstOf step whole value rest).result := by
  induction before with
  | nil => rfl
  | cons spec before ih =>
      simp only [List.mem_cons, forall_eq_or_imp] at hspecs hquiet hbefore
      obtain ⟨e, he⟩ := hbefore.1
      simp only [List.cons_append, firstOf, he, result_after]
      rw [result_unresolved hwhole hspecs.1 (hquiet.1 e he), ih hspecs.2 hquiet.2 hbefore.2]

/-- An alternative that does not fail decides. -/
theorem firstOf_of_not_failed {alternative : Spec} {rest : List Spec}
    (h : ∀ e, (step alternative value).result ≠ .error (.failed e)) :
    firstOf step whole value (alternative :: rest) = step alternative value := by
  simp only [firstOf]

/-- A union ends in a fault where an alternative does, all before it having failed, unless something
has no description. -/
theorem firstOf_faulted (hp : Spec.Hereditary p) {specs : List Spec} {fault : Fault}
    (hwhole : p whole) (hspecs : ∀ spec ∈ specs, p spec)
    (hquiet : ∀ spec ∈ specs, ∀ e, (step spec value).result = .error (.failed e) →
      e.cause.Within p)
    (h : (firstOf step whole value specs).result = .error (.faulted fault)) :
    (∃ before alternative after, specs = before ++ alternative :: after ∧
      (∀ spec ∈ before, ∃ e, (step spec value).result = .error (.failed e)) ∧
      (step alternative value).result = .error (.faulted fault)) ∨
    fault = .overlong ∧ Spec.SomeUndescribed p := by
  induction specs with
  | nil =>
      rw [firstOf] at h
      exact .inr ((Quiet.of_describable hwhole (hp.wellFormed hwhole)
        (Quiet.of_mismatch _ value)).faulted fault h)
  | cons spec rest ih =>
      simp only [List.mem_cons, forall_eq_or_imp] at hspecs hquiet
      simp only [firstOf] at h
      split at h
      · next e he =>
          rw [result_after] at h
          rcases unresolved_cases hp hwhole hspecs.1 (hquiet.1 e he)
            (firstOf step whole value rest) with hsame | ⟨hfault, hnone⟩
          · rw [hsame] at h
            rcases ih hspecs.2 hquiet.2 h with ⟨before, alternative, after, rfl, hbefore, hfault⟩ |
              hnone
            · exact .inl ⟨spec :: before, alternative, after, rfl,
                by simpa using ⟨⟨e, he⟩, hbefore⟩, hfault⟩
            · exact .inr hnone
          · rw [hfault] at h
            cases h
            exact .inr ⟨rfl, hnone⟩
      · exact .inl ⟨[], spec, rest, rfl, by simp, h⟩

end Decoder

/-! ## Headings -/

namespace Attempt

variable {t : Attempt Data} {room : Nat} {description : Text} {value : Json}
  {heading : Except Spec.Flaw Text}

/-- A fault is not changed by what heads it. -/
theorem headed_of_faulted {fault : Fault} (h : t.result = .error (.faulted fault)) :
    (t.headed room heading value).result = .error (.faulted fault) := by
  cases heading <;> simp [headed, framed, h, Except.mapError]

/-- A fault under a heading was one before, unless there was a failure that cannot be told: its value
cannot be shown, or the heading has a flaw. -/
theorem of_headed_faulted {fault : Fault}
    (h : (t.headed room heading value).result = .error (.faulted fault)) :
    t.result = .error (.faulted fault) ∨
      fault = .overlong ∧ value.isOverlong = true ∧ (∃ e, t.result = .error (.failed e)) ∨
        ∃ flaw, heading = .error flaw ∧ fault = .ofFlaw flaw := by
  obtain ⟨log, result⟩ := t
  cases heading with
  | ok description =>
      rcases result with ⟨e | other | _⟩ | data
      · simp only [headed, framed, mapStop, Except.mapError, shownAs] at h
        cases hshown : unshown? room value with
        | none => simp [hshown] at h
        | some stop =>
            rcases unshown?_eq_some hshown with rfl | ⟨rfl, hlong⟩
            · simp [hshown] at h
            · rw [hshown] at h
              cases h
              exact .inr (.inl ⟨rfl, hlong, e, rfl⟩)
      · exact .inl (by simpa [headed, framed, mapStop, Except.mapError] using h)
      · simp [headed, framed, Except.mapError] at h
      · simp [headed, framed, Except.mapError] at h
  | error flaw =>
      rcases result with ⟨e | other | _⟩ | data
      · simp only [headed, mapStop, Except.mapError] at h
        cases h
        exact .inr (.inr ⟨flaw, rfl, rfl⟩)
      · exact .inl (by simpa [headed, mapStop, Except.mapError] using h)
      · simp [headed, Except.mapError] at h
      · simp [headed, Except.mapError] at h

theorem headed_failed {e : DecodeError} :
    (t.headed room (.ok description) value).result = .error (.failed e) ↔
      ∃ inner, t.result = .error (.failed inner) ∧ value.IsShowable room ∧
        e = inner.within description value := framed_failed

theorem headed_ok {data : Data} :
    (t.headed room heading value).result = .ok data ↔ t.result = .ok data := by
  cases heading with
  | ok description => exact framed_ok
  | error hint => exact Outcomes.mapError_ok

/-- A failure under any heading is one under a description. -/
theorem exists_of_headed_failed {e : DecodeError}
    (h : (t.headed room heading value).result = .error (.failed e)) :
    ∃ inner description, heading = .ok description ∧ t.result = .error (.failed inner) ∧
      value.IsShowable room ∧ e = inner.within description value := by
  cases heading with
  | ok description =>
      obtain ⟨inner, hinner, hshowable, rfl⟩ := headed_failed.mp h
      exact ⟨inner, description, rfl, hinner, hshowable, rfl⟩
  | error hint =>
      rw [headed, result_mapStop] at h
      rcases hresult : t.result with ⟨_ | _ | _⟩ | _ <;> simp [hresult, Except.mapError] at h

theorem located_faulted {location : Location} {fault : Fault} {α : Type} {t : Attempt α} :
    (t.located location).result = .error (.faulted fault) ↔
      t.result = .error (.faulted fault) := by
  obtain ⟨log, result⟩ := t
  rcases result with ⟨_ | _ | _⟩ | _ <;> simp [located, Except.mapError]

end Attempt

/-- A property of values that their parts inherit. -/
def Json.Inherited (q : Json → Prop) : Prop :=
  ∀ {value part : Json} {location : Location}, value.HasPart location part → q value → q part

theorem Json.inherited_true : Json.Inherited fun _ => True := fun _ _ => trivial

theorem Json.inherited_isShort : Json.Inherited Json.IsShort := fun hpart => hpart.isShort

namespace Decoder

variable {registry : Registry}

/-- A failure has the frame of its value outermost; to show the value has taken room, and it could be
shown. -/
theorem within_of_failed {room : Nat} {spec : Spec} {value : Json} {e : DecodeError}
    (h : (decode registry room spec value).result = .error (.failed e)) :
    ∃ (inner : DecodeError) (description : Text), value.IsShowable (room - 1) ∧ 0 < room ∧
      e = inner.within description value := by
  cases room with
  | zero => cases h
  | succ room =>
      rw [decode_eq_follow] at h
      obtain ⟨inner, description, -, -, hshowable, rfl⟩ := exists_of_headed_failed h
      exact ⟨inner, description, hshowable, by omega, rfl⟩

/-- **A failure blames no specification without the property** that all that is written has. -/
theorem cause_within_of_failed (hp : Spec.Hereditary p) (hq : Json.Inherited q)
    (hregistry : registry.Within p q) {room : Nat} {spec : Spec} {value : Json} (hspec : p spec)
    (hvalue : q value) {e : DecodeError}
    (h : (decode registry room spec value).result = .error (.failed e)) : e.cause.Within p := by
  induction room generalizing spec value e with
  | zero => cases h
  | succ room ih =>
      have hleads := course_leadsWithin hp hregistry hspec hvalue
      have hends := course_endsIn registry hp hspec value (decode registry room) room
      have hsplits := course_splits registry spec value
      rw [decode_eq_follow] at h
      obtain ⟨inner, description, -, hinner, -, rfl⟩ := exists_of_headed_failed h
      rw [DecodeError.cause_within]
      generalize course registry spec value = c at hinner hleads hends hsplits
      cases c with
      | settled outcome => exact Quiet.within_of_failed (hends room) hinner
      | parts members finish =>
          rcases bind_error.mp hinner with hparts | ⟨data, hdata, hfinish⟩
          · obtain ⟨location, t, deeper, hmem, ht, rfl⟩ := inOrder_failed hparts
            obtain ⟨part, hpart, heq⟩ := List.mem_map.mp hmem
            cases heq
            rw [DecodeError.cause_locatedAt]
            exact ih (hleads part hpart) (hq (hsplits part hpart) hvalue) ht
          · exact Quiet.within_of_failed (hends data hdata) hfinish
      | alternatives whole specs =>
          rw [firstOf_failed hinner]
          trivial
      | delegated next build => exact ih hleads hvalue (map_error.mp hinner)
      | scripted procedure =>
          have hanswer := (Procedure.run_failed hinner).within
            (fun spec value e hspec hvalue he => ih hspec hvalue he) hleads
          exact hanswer

/-- **Whatever decoding comes to** has the properties that all that is written has. -/
theorem within_of_arrives (hp : Spec.Hereditary p) (hq : Json.Inherited q)
    (hregistry : registry.Within p q) {unions : Bool} {room less : Nat} {spec last : Spec}
    {value found : Json} {path : List Location}
    (h : Arrives registry unions room spec value path less last found) (hspec : p spec)
    (hvalue : q value) : p last ∧ q found := by
  -- each step is the course of a specification with the property, which leads to such ones only
  have hleads {spec : Spec} {value : Json} (hspec : p spec) (hvalue : q value) :=
    course_leadsWithin hp hregistry hspec hvalue
  induction h with
  | here => exact ⟨hspec, hvalue⟩
  | @part _ _ spec _ value _ _ _ _ part _ hcourse _ _ ih =>
      have hparts := hleads hspec hvalue
      have hsplits := course_splits registry spec value
      rw [hcourse] at hparts hsplits
      exact ih (hparts part (by simp)) (hq (hsplits part (by simp)) hvalue)
  | alternative _ hcourse _ _ ih =>
      have halternatives := hleads hspec hvalue
      rw [hcourse] at halternatives
      exact ih (halternatives.2 _ (by simp)) hvalue
  | delegated hcourse _ ih =>
      have hnext := hleads hspec hvalue
      rw [hcourse] at hnext
      exact ih hnext hvalue
  | loaded _ hcourse hlast hhint _ ih =>
      have hprocedure := hleads hspec hvalue
      rw [hcourse] at hprocedure
      have hload := hlast.within (fun spec value e hspec hvalue he =>
        cause_within_of_failed hp hq hregistry hspec hvalue he) hprocedure
      exact ih (hload.2.1 _ hhint) hload.1

/-! ## What the rule of a schema answers -/

/-- A rule that is asked decides. -/
theorem bySchema_of_answers {step : Spec → Json → Attempt Data} {room : Nat} {schema : Schema}
    {value : Json} {answer : Except Complaint Data} (h : schema.Answers step value answer) :
    (bySchema registry step room schema value).result =
      (ofRule schema.description value answer).result := by
  cases h with
  | object hmissing hunknown hentries =>
      simp only [bySchema, object_eq, hmissing, hunknown, List.isEmpty_nil, Bool.not_true,
        Bool.false_eq_true, if_false, result_bind, hentries]
      rfl
  | array hitems =>
      simp only [bySchema, result_bind, hitems]
      rfl
  | scalar hdata hshape => simp only [bySchema, hdata, if_pos hshape, Schema.description]

/-- A custom specification is decoded by its schema, under the schema's name. -/
theorem decode_of_schema {room : Nat} {spec : Spec} {schema : Schema} {value : Json}
    (hschema : spec.DecodedBy registry schema) :
    decode registry (room + 1) spec value =
      (bySchema registry (decode registry room) room schema value).framed room schema.description
        value := by
  obtain ⟨identity, arguments, factory, rfl, hresolve, hcall⟩ := hschema
  simp only [decode, Spec.desugar, custom, hresolve, hcall]
  rw [bind_of_ok rfl]
  rfl

/-- A fault that decoding raises ends it. -/
theorem decode_of_raises {room : Nat} {spec : Spec} {value : Json} {fault : Fault}
    (h : Raises registry (decode registry room) room spec value fault) :
    (decode registry (room + 1) spec value).result = .error (.faulted fault) := by
  cases h with
  | factory hresolve hcall =>
      simp only [decode, Spec.desugar, custom, hresolve, hcall, result_bind]
      rfl
  | rule hschema hanswer hconcern =>
      rw [decode_of_schema hschema, framed, result_mapStop, bySchema_of_answers hanswer,
        ofRule_faulted.mpr ⟨_, rfl, hconcern, rfl⟩]
      rfl
  | handler hschema hshape hhint =>
      rw [decode_of_schema hschema, framed, result_mapStop, bySchema, if_pos hshape,
        handled, hhint]
      rfl
  | script hschema hshape hleads hbreaks =>
      rw [decode_of_schema hschema, framed, result_mapStop, bySchema, if_pos hshape, handled,
        hleads.result_run, hbreaks.result_run]
      rfl
  | element hitems hlacking =>
      simp only [decode, Spec.desugar, framedBy, matching, result_mapStop, result_bind, hitems,
        Except.bind, Decoder.setOf, hlacking]
      rfl

end Decoder

end JsonDecoding
