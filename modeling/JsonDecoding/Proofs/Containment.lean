import JsonDecoding.Proofs.Arrivals
import JsonDecoding.Proofs.ModelLaws
import JsonDecoding.Proofs.Numerals

/-!
# Containment

What becomes of the complaints of rules. A complaint about a value refuses the value at its place,
and a union goes on to its next alternative; any other complaint, and every fault of a factory, ends
the whole decoding as it is, and nothing else does (`complaints_are_contained`).
-/

namespace JsonDecoding

open Attempt Decoder

namespace Decoder

variable {registry : Registry}

/-! ## What is passed on -/

/-- The first part that stops decides, whatever comes after it. -/
theorem follow_of_stopped_part {step : Spec → Json → Attempt Data} {before after : List Part}
    {part : Part} {stop : Stop}
    (hbefore : ∀ earlier ∈ before, ∃ data, (step earlier.spec earlier.value).result = .ok data)
    (hstop : ((step part.spec part.value).located part.location).result = .error stop)
    (finish : List Data → Attempt Data) (room : Nat) (value : Json) :
    ((Course.parts (before ++ part :: after) finish).follow registry step room value).result =
      .error stop := by
  refine bind_error.mpr (.inl (inOrder_error.mpr ?_))
  refine ⟨before.map (Part.attempt step), part.location, step part.spec part.value,
    after.map (Part.attempt step), by simp [Part.attempt], ?_, hstop⟩
  simpa [Part.attempt] using hbefore

variable {p : Spec → Prop} {q : Json → Prop}

/-- The first alternative that does not fail decides. -/
theorem follow_of_alternative (hq : Json.Inherited q)
    (hregistry : registry.Within Spec.HasDescription q) {room : Nat} {whole : Spec}
    {before after : List Spec} {alternative : Spec} {value : Json}
    (hleads : (Course.alternatives whole (before ++ alternative :: after)).LeadsWithin
      Spec.HasDescription q)
    (hvalue : q value)
    (hbefore : ∀ earlier ∈ before, ∃ e,
      (decode registry room earlier value).result = .error (.failed e))
    (h : ∀ e, (decode registry room alternative value).result ≠ .error (.failed e)) (more : Nat) :
    ((Course.alternatives whole (before ++ alternative :: after)).follow registry
      (decode registry room) more value).result =
        (decode registry room alternative value).result := by
  have hspecs : ∀ spec ∈ before, spec.HasDescription := fun spec hmem =>
    hleads.2 spec (by simp [hmem])
  rw [Course.follow, firstOf_append hleads.1 hspecs (fun spec hmem e he =>
    cause_within_of_failed Spec.HasDescription.hereditary hq hregistry (hspecs spec hmem) hvalue he)
    hbefore, firstOf_of_not_failed h]

/-- **A fault is passed on** unchanged, from all places that decoding comes to. -/
theorem faulted_of_arrives (hq : Json.Inherited q)
    (hregistry : registry.Within Spec.HasDescription q) {unions : Bool} {room less : Nat}
    {spec last : Spec} {value found : Json} {path : List Location}
    (h : Arrives registry unions room spec value path less last found)
    (hspec : spec.HasDescription) (hvalue : q value) {fault : Fault}
    (hfault : (decode registry less last found).result = .error (.faulted fault)) :
    (decode registry room spec value).result = .error (.faulted fault) := by
  have hcase {room : Nat} {spec : Spec} {value : Json} {c : Course} (hspec : spec.HasDescription)
      (hvalue : q value) (hcourse : course registry spec value = c)
      (h : c.LeadsWithin Spec.HasDescription q → c.Splits value →
        (c.follow registry (decode registry room) room value).result = .error (.faulted fault)) :
      (decode registry (room + 1) spec value).result = .error (.faulted fault) := by
    rw [decode_eq_follow, hcourse]
    refine headed_of_faulted (h ?_ (hcourse ▸ course_splits registry spec value))
    exact hcourse ▸ course_leadsWithin Spec.HasDescription.hereditary hregistry hspec hvalue
  induction h with
  | here => exact hfault
  | part hcourse hbefore _ ih =>
      refine hcase hspec hvalue hcourse fun hleads hsplits => ?_
      have hpart := ih (hleads _ (by simp)) (hq (hsplits _ (by simp)) hvalue) hfault
      exact follow_of_stopped_part hbefore (located_faulted.mpr hpart) _ _ _
  | alternative _ hcourse hbefore _ ih =>
      refine hcase hspec hvalue hcourse fun hleads _ => ?_
      have halternative := ih (hleads.2 _ (by simp)) hvalue hfault
      rw [follow_of_alternative hq hregistry hleads hvalue hbefore (by simp [halternative]),
        halternative]
  | delegated hcourse _ ih =>
      exact hcase hspec hvalue hcourse fun hleads _ => map_error.mpr (ih hleads hvalue hfault)
  | loaded _ hcourse hlast hhint _ ih =>
      refine hcase hspec hvalue hcourse fun hleads _ => ?_
      have hload := hlast.within (fun spec value e hspec hvalue => cause_within_of_failed
        Spec.HasDescription.hereditary hq hregistry hspec hvalue) hleads
      rw [Course.follow, hlast.result_run]
      exact Procedure.result_run_of_stopped hhint (ih (hload.2.1 _ hhint) hload.1 hfault) (by simp)

/-- Parts stop together at one of them, all before it having decoded. -/
theorem exists_stopped_part {step : Spec → Json → Attempt Data} {members : List Part} {stop : Stop}
    (h : (inOrder (members.map (Part.attempt step))).result = .error stop) :
    ∃ before part after, members = before ++ part :: after ∧
      (∀ earlier ∈ before, ∃ data, (step earlier.spec earlier.value).result = .ok data) ∧
      ((step part.spec part.value).located part.location).result = .error stop := by
  obtain ⟨_, _, _, _, hmembers, hbefore, hstop⟩ := inOrder_error.mp h
  obtain ⟨before, rest, rfl, rfl, hrest⟩ := List.map_eq_append_iff.mp hmembers
  obtain ⟨part, after, rfl, heq, rfl⟩ := List.map_eq_cons_iff.mp hrest
  cases heq
  exact ⟨before, part, after, rfl, by simpa [Part.attempt] using hbefore, hstop⟩

/-- Decoding comes to a value that fails and cannot be shown, as it holds an integer that has too many
digits. -/
def Unshown (registry : Registry) (room : Nat) (spec : Spec) (value : Json) : Prop :=
  ∃ path less last found e, Arrives registry true room spec value path (less + 1) last found ∧
    ((course registry last found).follow registry (decode registry less) less found).result =
      .error (.failed e) ∧ found.isOverlong = true

/-- A value without such integers can be shown, wherever decoding comes to. -/
theorem not_unshown (hregistry : registry.Within Spec.HasDescription Json.IsShort) {room : Nat}
    {spec : Spec} {value : Json} (hspec : spec.HasDescription) (hvalue : value.IsShort) :
    ¬Unshown registry room spec value := by
  rintro ⟨path, less, last, found, e, harrives, -, hlong⟩
  obtain ⟨-, hshort⟩ := within_of_arrives Spec.HasDescription.hereditary Json.inherited_isShort
    hregistry harrives hspec hvalue
  exact Bool.false_ne_true (hshort.symm.trans hlong)

/-- Where a fault comes from: decoding comes to a place that raises it, or something cannot be told,
be it a specification with a property or a value that fails. -/
def Traced (p : Spec → Prop) (registry : Registry) (room : Nat) (spec : Spec) (value : Json)
    (fault : Fault) : Prop :=
  (∃ path less last found, Arrives registry true room spec value path (less + 1) last found ∧
    Raises registry (decode registry less) less last found fault) ∨
  fault = .overlong ∧ (Spec.SomeUndescribed p ∨ Unshown registry room spec value)

/-- What a fault of a decoding inside comes from, the fault of the whole comes from, if that comes to
this decoding. -/
theorem Traced.of_inside {room more : Nat} {part spec : Spec} {found value : Json} {fault : Fault}
    (h : Traced p registry room part found fault) {longer : List Location → List Location}
    (hstep : ∀ {path less last seen},
      Arrives registry true room part found path less last seen →
        Arrives registry true more spec value (longer path) less last seen) :
    Traced p registry more spec value fault := by
  rcases h with ⟨path, less, last, seen, harrives, hraises⟩ | ⟨rfl, hnone | hunshown⟩
  · exact .inl ⟨_, less, last, seen, hstep harrives, hraises⟩
  · exact .inr ⟨rfl, .inl hnone⟩
  · obtain ⟨path, less, last, seen, e, harrives, hfailed, hlong⟩ := hunshown
    exact .inr ⟨rfl, .inr ⟨_, less, last, seen, e, hstep harrives, hfailed, hlong⟩⟩

/-- A fault that a course ends in is raised there, or comes from a decoding inside, where it can be
traced. -/
theorem traced_of_follow (hp : Spec.Hereditary p) (hq : Json.Inherited q)
    (hregistry : registry.Within p q) {room : Nat} {spec : Spec} {value : Json} (hspec : p spec)
    (hvalue : q value) {fault : Fault}
    (hinside : ∀ {spec : Spec} {value : Json}, p spec → q value →
      (decode registry room spec value).result = .error (.faulted fault) →
        Traced p registry room spec value fault)
    (h : ((course registry spec value).follow registry (decode registry room) room value).result =
      .error (.faulted fault)) :
    Traced p registry (room + 1) spec value fault := by
  have hleads := course_leadsWithin hp hregistry hspec hvalue
  have hends := course_endsIn registry hp hspec value (decode registry room) room
  have hsplits := course_splits registry spec value
  have hfails (spec : Spec) (value : Json) (e : DecodeError) (hspec : p spec) (hvalue : q value)
      (he : (decode registry room spec value).result = .error (.failed e)) : e.cause.Within p :=
    cause_within_of_failed hp hq hregistry hspec hvalue he
  have hraised (hraises : Raises registry (decode registry room) room spec value fault ∨
      fault = .overlong ∧ Spec.SomeUndescribed p) : Traced p registry (room + 1) spec value fault :=
    hraises.imp (fun hraises => ⟨[], room, spec, value, .here, hraises⟩)
      fun ⟨hfault, hnone⟩ => ⟨hfault, .inl hnone⟩
  generalize hcourse : course registry spec value = c at h hleads hends hsplits
  cases c with
  | settled outcome => exact hraised (Quiet.raised_of_faulted (hends room) h)
  | parts members finish =>
      rcases bind_error.mp h with hparts | ⟨data, hdata, hfinish⟩
      · obtain ⟨before, part, after, rfl, hbefore, hstop⟩ := exists_stopped_part hparts
        have hpart := hinside (hleads part (by simp)) (hq (hsplits part (by simp)) hvalue)
          (located_faulted.mp hstop)
        exact hpart.of_inside (Arrives.part hcourse hbefore)
      · exact hraised (Quiet.raised_of_faulted (hends data hdata) hfinish)
  | alternatives whole specs =>
      rcases firstOf_faulted hp hleads.1 hleads.2
        (fun spec hmem e he => hfails spec value e (hleads.2 spec hmem) hvalue he) h with
        ⟨before, alternative, after, rfl, hbefore, hfault⟩ | ⟨rfl, hnone⟩
      · exact (hinside (hleads.2 alternative (by simp)) hvalue hfault).of_inside
          (Arrives.alternative rfl hcourse hbefore)
      · exact .inr ⟨rfl, .inl hnone⟩
  | delegated next build =>
      exact (hinside hleads hvalue (map_error.mp h)).of_inside (Arrives.delegated hcourse)
  | scripted procedure =>
      obtain ⟨final, hfinal, hbreaks | ⟨seen, hint, next, inner, rfl, hhint, hfault⟩⟩ :=
        Procedure.run_faulted h
      · obtain ⟨description, shape, act, hschema, hshape, rfl⟩ := exists_script_of_course hcourse
        exact hraised (.inl (.script hschema hshape hfinal hbreaks))
      · have hload := hfinal.within hfails hleads
        exact (hinside (hload.2.1 _ hhint) hload.1 hfault).of_inside
          (Arrives.loaded rfl hcourse hfinal hhint)

/-- **Every fault can be traced** to where it comes from. -/
theorem traced_of_faulted (hp : Spec.Hereditary p) (hq : Json.Inherited q)
    (hregistry : registry.Within p q) {room : Nat} {spec : Spec} {value : Json} (hspec : p spec)
    (hvalue : q value) {fault : Fault}
    (h : (decode registry room spec value).result = .error (.faulted fault)) :
    Traced p registry room spec value fault := by
  induction room generalizing spec value with
  | zero => cases h
  | succ room ih =>
      rw [decode_eq_follow] at h
      rcases of_headed_faulted h with h | ⟨rfl, hlong, e, he⟩ | ⟨flaw, hheading, rfl⟩
      · exact traced_of_follow hp hq hregistry hspec hvalue ih h
      · exact .inr ⟨rfl, .inr ⟨[], room, spec, value, e, .here, he, hlong⟩⟩
      · rcases heading_cases registry (hp.wellFormed hspec) with ⟨description, hok⟩ | ⟨herror, hnone⟩
        · rw [hok] at hheading
          cases hheading
        · rw [herror] at hheading
          cases hheading
          exact .inr ⟨rfl, .inl ⟨spec, hspec, hnone⟩⟩

end Decoder

/-- An attempt fails for a cause at a path, unless there is no room to show the failure. -/
def Attempt.FailsAt {α : Type} (t : Attempt α) (cause : Cause) (path : List Location) : Prop :=
  t.result = .error .exhausted ∨
    ∃ e, t.result = .error (.failed e) ∧ e.cause = cause ∧ e.path = path

namespace Attempt.FailsAt

variable {cause : Cause} {path : List Location}

/-- A failure on a value that can be shown as far as there is room is passed on. -/
theorem headed {t : Attempt Data} (h : t.FailsAt cause path) (room : Nat) (description : Text)
    {value : Json} (hshort : value.IsShort) :
    (t.headed room (.ok description) value).FailsAt cause path := by
  rcases h with h | ⟨e, h, rfl, rfl⟩
  · exact .inl (by simp [Attempt.headed, framed, Except.mapError, h])
  · by_cases hdepth : value.depth ≤ room
    · exact .inr ⟨e.within description value,
        headed_failed.mpr ⟨e, h, ⟨hdepth, hshort⟩, rfl⟩, rfl, rfl⟩
    · have hunshown : unshown? room value = some .exhausted := if_pos (Nat.lt_of_not_le hdepth)
      exact .inl (by simp [Attempt.headed, framed, shownAs, Except.mapError, h, hunshown])

theorem map {t : Attempt Data} (h : t.FailsAt cause path) (f : Data → Data) :
    (t.map f).FailsAt cause path :=
  h.imp map_error.mpr fun ⟨e, he, hcause⟩ => ⟨e, map_error.mpr he, hcause⟩

end Attempt.FailsAt

namespace Decoder

variable {registry : Registry}

/-- A part that fails makes the whole fail, at a path that leads to it. -/
theorem failsAt_of_part {room : Nat} {before after : List Part} {part : Part} {cause : Cause}
    {path : List Location}
    (hbefore : ∀ earlier ∈ before, ∃ data,
      (decode registry room earlier.spec earlier.value).result = .ok data)
    (h : (decode registry room part.spec part.value).FailsAt cause path)
    (finish : List Data → Attempt Data) (value : Json) :
    ((Course.parts (before ++ part :: after) finish).follow registry (decode registry room) room
      value).FailsAt cause (part.location :: path) := by
  rcases h with h | ⟨e, h, rfl, rfl⟩
  · refine .inl (follow_of_stopped_part hbefore ?_ _ _ _)
    simp [located, Except.mapError, h]
  · obtain ⟨inner, description, -, -, rfl⟩ := within_of_failed h
    exact .inr ⟨_, follow_of_stopped_part hbefore (located_failed.mpr ⟨_, h, rfl⟩) _ _ _,
      DecodeError.cause_locatedAt _ _, rfl⟩

/-- **A failure is passed on** with the path that leads to it, from all places that decoding comes
to without anything that catches failures. -/
theorem failsAt_of_arrives (hregistry : registry.Within Spec.HasDescription q) {room less : Nat}
    {spec last : Spec} {value found : Json} {path : List Location}
    (h : Arrives registry false room spec value path less last found)
    (hspec : spec.HasDescription) (hq : Json.Inherited q) (hvalue : q value)
    (hshort : value.IsShort) {cause : Cause} {deeper : List Location}
    (hfailed : (decode registry less last found).FailsAt cause deeper) :
    (decode registry room spec value).FailsAt cause (path ++ deeper) := by
  have hcase {room : Nat} {spec : Spec} {value : Json} {c : Course} {path : List Location}
      (hspec : spec.HasDescription) (hvalue : q value) (hshort : value.IsShort)
      (hcourse : course registry spec value = c)
      (h : c.LeadsWithin Spec.HasDescription q → c.Splits value →
        (c.follow registry (decode registry room) room value).FailsAt cause path) :
      (decode registry (room + 1) spec value).FailsAt cause path := by
    obtain ⟨description, hheading⟩ := heading_of_hasDescription registry hspec
    rw [decode_eq_follow, hheading, hcourse]
    refine (h ?_ (hcourse ▸ course_splits registry spec value)).headed _ _ hshort
    exact hcourse ▸ course_leadsWithin Spec.HasDescription.hereditary hregistry hspec hvalue
  induction h with
  | here => exact hfailed
  | part hcourse hbefore _ ih =>
      refine hcase hspec hvalue hshort hcourse fun hleads hsplits => ?_
      have hpart := hsplits _ (List.mem_append_right _ (List.mem_cons_self ..))
      have hinner := hleads _ (List.mem_append_right _ (List.mem_cons_self ..))
      exact failsAt_of_part hbefore (ih hinner (hq hpart hvalue) (hpart.isShort hshort) hfailed) _ _
  | alternative h => cases h
  | delegated hcourse _ ih =>
      exact hcase hspec hvalue hshort hcourse fun hleads _ =>
        (ih hleads hvalue hshort hfailed).map _
  | loaded h => cases h

/-- **A complaint about a value** refuses it under the name of the schema. -/
theorem failsAt_of_complaint {room : Nat} {spec : Spec} {schema : Schema} {value : Json}
    {complaint : Complaint} (hschema : spec.DecodedBy registry schema)
    (hanswer : schema.Answers (decode registry room) value (.error complaint))
    (hconcern : complaint.concern.rejects = true) (hshort : value.IsShort) :
    (decode registry (room + 1) spec value).FailsAt
      (.invalid schema.description value complaint.message) [] := by
  have hrefused : (bySchema registry (decode registry room) room schema value).FailsAt
      (.invalid schema.description value complaint.message) [] := by
    refine .inr ⟨.ofCause (.invalid schema.description value complaint.message), ?_, rfl, rfl⟩
    rw [bySchema_of_answers hanswer, ofRule, if_pos hconcern]
    rfl
  unfold FailsAt
  rw [decode_of_schema hschema]
  exact hrefused.headed room schema.description hshort

/-- **Nothing is decoded after the first part that stops.** -/
theorem follow_of_stopped_part_congr {step other : Spec → Json → Attempt Data}
    {before after : List Part} {part : Part} {finish : List Data → Attempt Data}
    (hstops : ∀ data, (step part.spec part.value).result ≠ .ok data)
    (hother : ∀ decoded ∈ before ++ [part],
      other decoded.spec decoded.value = step decoded.spec decoded.value)
    (room : Nat) (value : Json) :
    (Course.parts (before ++ part :: after) finish).follow registry step room value =
      (Course.parts (before ++ part :: after) finish).follow registry other room value := by
  simp only [Course.follow]
  congr 1
  induction before with
  | nil =>
      obtain ⟨stop, hstop⟩ : ∃ stop, (step part.spec part.value).result = .error stop := by
        cases h : (step part.spec part.value).result with
        | ok data => exact (hstops data h).elim
        | error stop => exact ⟨stop, rfl⟩
      simp only [List.nil_append, List.map_cons, inOrder, Part.attempt, hother part (by simp)]
      have hlocated : ∃ stop, ((step part.spec part.value).located part.location).result =
          .error stop := ⟨_, by simp only [located, result_mapStop, hstop]; rfl⟩
      obtain ⟨stop, hstop⟩ := hlocated
      rw [bind_of_error hstop, bind_of_error hstop]
  | cons first before ih =>
      simp only [List.cons_append, List.map_cons, inOrder, Part.attempt]
      rw [hother first (by simp), ih fun decoded hmem => hother decoded (by simp_all)]

end Decoder

/-! ## The rules behind classes -/

namespace RecordClass

/-- The rule behind the schema of a record class makes an instance. -/
theorem schema_constructs {c : RecordClass} {mapping : List (Text × Text)} {description : Text}
    {schema : Schema} (h : c.schema mapping description = .ok schema) :
    ∃ fields owners, schema = .object (if description.isEmpty then c.name else description) fields
      fun data => c.construct (KeyRequest.renamedEntries owners data) := by
  obtain ⟨fields, -, hschema⟩ := Outcomes.bind_ok.mp h
  obtain ⟨declared, rfl⟩ := KeyRequest.schema_ok hschema
  exact ⟨declared, _, rfl⟩

/-- What a constructor complains about: what a class with a constructor of its own complains about
there, and else the complaint of its hook, unless a value is missing. -/
theorem construct_error_iff {c : RecordClass} {given : Values} {complaint : Complaint} :
    c.construct given = .error complaint ↔
      (∃ build, c.ownConstructor = some build ∧ build given = .error complaint) ∨
      c.ownConstructor = none ∧
        (c.missing given = [] ∧ c.complete (c.stored given) (c.arguments given) = .error complaint ∨
        c.missing given ≠ [] ∧
          complaint = missingArguments c.name ((c.missing given).map RecordField.name)) := by
  simp only [construct, Outcomes.map_error, initialized]
  cases hown : c.ownConstructor with
  | some build => simp
  | none =>
      cases hmissing : c.missing given with
      | nil => simp
      | cons field rest => simp [eq_comm]

end RecordClass

namespace ModelClass

variable {c : ModelClass} {mapping : List (Text × Text)} {description : Text} {schema : Schema}

/-- The rule behind the schema of a model class that validates is its validation. -/
theorem schema_validates (h : c.schema mapping true description = .ok schema) :
    ∃ fields names, schema = .object (if description.isEmpty then c.name else description) fields
      fun data => (c.validate (Assoc.ofPairs (KeyRequest.renamedEntries names data))).mapError
        Complaint.unlessValidation := by
  obtain ⟨declared, rfl⟩ := KeyRequest.schema_ok h
  exact ⟨declared, _, rfl⟩

/-- Where validators object, the rule behind a schema that validates complains as the validation
does. -/
theorem Reports.complains {objectionable : Values → Prop} (h : c.Reports objectionable)
    {input : Values} (hinput : objectionable input) :
    ∃ complaint, complaint.concern = .validation ∧ c.validate input = .error complaint ∧
      (c.validate input).mapError Complaint.unlessValidation = .error complaint := by
  obtain ⟨message, hmessage⟩ := h.validation input hinput
  exact ⟨⟨.validation, message⟩, rfl, hmessage, by rw [hmessage]; rfl⟩

end ModelClass

/-! ## Containment -/

/-- What becomes of the complaints and faults that decoding a value by a specification comes to. -/
structure Contains (registry : Registry) (room : Nat) (spec : Spec) (value : Json) : Prop where
  /-- The faults that decoding comes to are those that it ends in, whatever is around them. -/
  faults : ∀ fault, (decode registry room spec value).result = .error (.faulted fault) ↔
    ∃ path less last found, Arrives registry true room spec value path (less + 1) last found ∧
      Raises registry (decode registry less) less last found fault
  /-- A complaint about the value of a schema refuses that value at its place, under the name of
  the schema and in the words of the complaint. -/
  refuses : ∀ path less last found schema complaint,
    Arrives registry false room spec value path (less + 1) last found →
    last.DecodedBy registry schema →
    schema.Answers (decode registry less) found (.error complaint) →
    complaint.concern.rejects = true →
    (decode registry room spec value).FailsAt
      (.invalid schema.description found complaint.message) path
  /-- A failure of a part is one of the whole, for the same cause and at the path that leads
  there. -/
  passes : ∀ path less last found cause deeper,
    Arrives registry false room spec value path less last found →
    (decode registry less last found).FailsAt cause deeper →
    (decode registry room spec value).FailsAt cause (path ++ deeper)
  /-- Nothing after the first part that stops is decoded: the outcome is the same for all that
  could be decoded there. -/
  stops : ∀ less before part after finish, room = less + 1 →
    course registry spec value = .parts (before ++ part :: after) finish →
    (∀ data, (decode registry less part.spec part.value).result ≠ .ok data) →
    ∀ other : Spec → Json → Attempt Data, (∀ decoded ∈ before ++ [part],
      other decoded.spec decoded.value = decode registry less decoded.spec decoded.value) →
    decode registry room spec value =
      ((course registry spec value).follow registry other less value).headed less
        (heading registry spec) value
  /-- A union goes on after alternatives that fail: the first that does not fail decides. -/
  goesOn : ∀ less before alternative after, room = less + 1 →
    spec = .anyOf (before ++ alternative :: after) →
    (∀ earlier ∈ before, ∃ e, (decode registry less earlier value).result = .error (.failed e)) →
    (∀ e, (decode registry less alternative value).result ≠ .error (.failed e)) →
    (decode registry room spec value).result = (decode registry less alternative value).result

namespace Decoder

variable {registry : Registry}

/-- Headings change failures only. -/
theorem result_headed {t : Attempt Data} (h : ∀ e, t.result ≠ .error (.failed e)) (room : Nat)
    (description : Text) (value : Json) :
    (t.headed room (.ok description) value).result = t.result := by
  obtain ⟨log, result⟩ := t
  rcases result with ⟨e | _ | _⟩ | _
  · exact (h e rfl).elim
  all_goals simp [headed, framed, Except.mapError]

theorem contains (hregistry : registry.Within Spec.HasDescription Json.IsShort) {spec : Spec}
    (hspec : spec.HasDescription) (room : Nat) {value : Json} (hvalue : value.IsShort) :
    Contains registry room spec value where
  faults fault := by
    constructor
    · intro hfault
      refine (traced_of_faulted Spec.HasDescription.hereditary Json.inherited_isShort hregistry
        hspec hvalue hfault).resolve_right ?_
      rintro ⟨-, hnone | hunshown⟩
      · exact not_someUndescribed hnone
      · exact not_unshown hregistry hspec hvalue hunshown
    · rintro ⟨path, less, last, found, harrives, hraises⟩
      exact faulted_of_arrives Json.inherited_isShort hregistry harrives hspec hvalue
        (decode_of_raises hraises)
  refuses path less last found schema complaint harrives hschema hanswer hconcern := by
    obtain ⟨-, hfound⟩ := within_of_arrives Spec.HasDescription.hereditary Json.inherited_isShort
      hregistry harrives hspec hvalue
    have hrefused := failsAt_of_complaint hschema hanswer hconcern hfound
    simpa using failsAt_of_arrives hregistry harrives hspec Json.inherited_isShort hvalue hvalue
      hrefused
  passes path less last found cause deeper harrives hfailed :=
    failsAt_of_arrives hregistry harrives hspec Json.inherited_isShort hvalue hvalue hfailed
  stops less before part after finish hroom hcourse hstops other hother := by
    subst hroom
    rw [decode_eq_follow, hcourse, follow_of_stopped_part_congr hstops hother]
  goesOn less before alternative after hroom hunion hbefore halternative := by
    subst hroom hunion
    obtain ⟨description, hheading⟩ := heading_of_hasDescription registry hspec
    have hfollow := follow_of_alternative Json.inherited_isShort hregistry
      ⟨hspec, Spec.HasDescription.anyOf_iff.mp hspec⟩ hvalue hbefore halternative less
    have hnone := hfollow ▸ halternative
    rw [decode_eq_follow, hheading]
    exact (result_headed hnone _ _ _).trans hfollow

/-- **Complaints are contained**: where all that is written can be described and all values can be
shown, decoding ends in a fault exactly where it comes to one, a complaint about a value refuses the
value at its place, and a union goes on after that. The complaints behind record classes are those of
their constructors and hooks; those behind model classes are those of their validation, which reports
what validators object to. -/
theorem complaints_are_contained
    (hregistry : registry.Within Spec.HasDescription Json.IsShort) :
    (∀ (room : Nat) (spec : Spec) (value : Json), spec.HasDescription → value.IsShort →
      Contains registry room spec value) ∧
    (∀ (c : RecordClass) (mapping : List (Text × Text)) (description : Text) (schema : Schema),
      c.schema mapping description = .ok schema →
      ∃ fields owners,
        schema = .object (if description.isEmpty then c.name else description) fields
          fun data => c.construct (KeyRequest.renamedEntries owners data)) ∧
    (∀ (c : RecordClass) (given : Values) (complaint : Complaint),
      c.construct given = .error complaint ↔
        (∃ build, c.ownConstructor = some build ∧ build given = .error complaint) ∨
        c.ownConstructor = none ∧
          (c.missing given = [] ∧
            c.complete (c.stored given) (c.arguments given) = .error complaint ∨
          c.missing given ≠ [] ∧ complaint =
            RecordClass.missingArguments c.name ((c.missing given).map RecordField.name))) ∧
    (∀ (c : ModelClass) (mapping : List (Text × Text)) (description : Text) (schema : Schema),
      c.schema mapping true description = .ok schema →
      ∃ fields names,
        schema = .object (if description.isEmpty then c.name else description) fields fun data =>
          (c.validate (Assoc.ofPairs (KeyRequest.renamedEntries names data))).mapError
            Complaint.unlessValidation) ∧
    (∀ (c : ModelClass) (objectionable : Values → Prop), c.Reports objectionable →
      ∀ input, objectionable input →
        ∃ complaint, complaint.concern = .validation ∧ c.validate input = .error complaint ∧
          (c.validate input).mapError Complaint.unlessValidation = .error complaint) :=
  ⟨fun room _ _ hspec hvalue => contains hregistry hspec room hvalue,
    fun _ _ _ _ h => RecordClass.schema_constructs h,
    fun _ _ _ => RecordClass.construct_error_iff,
    fun _ _ _ _ h => ModelClass.schema_validates h,
    fun _ _ hreports _ hinput => hreports.complains hinput⟩

/-- Boxes: an empty one is a wrong value, one with a single item is a defect of the rule. In a union
the first is passed over; the second ends the decoding, although the other alternative matches. The
validation of a person reports that its validator objects to the age. -/
theorem complaints_are_contained_for_boxes :
    let box : Spec := .custom (.symbol (Text.lit "Box") []) []
    let assemble : Rule := fun data => match data with
      | .list [] => .error ⟨.value, Text.lit "empty"⟩
      | .list [_] => .error ⟨.type, Text.lit "single"⟩
      | data => .ok data
    let schema : Schema := .array (Text.lit "Box") .any assemble
    let registry : Registry :=
      ⟨[(.symbol (Text.lit "Box") [], ⟨fun _ => .ok schema, 0, [], Text.lit "Box"⟩)]⟩
    let age : Text := Text.lit "age"
    let positive : Rule := fun data => match data with
      | .int i => if i < 0 then .error ⟨.value, Text.lit "negative"⟩ else .ok data
      | data => .ok data
    let person : DeclaredModel :=
      ⟨Text.lit "Person", [⟨age, .builtin .int, none, none⟩], [(age, positive)], none⟩
    registry.Within Spec.HasDescription Json.IsShort ∧
    (decode registry 4 (.arrayOf (.anyOf [box, .any])) (.array [.array [], .array [.null]])).result
      = .error (.faulted (.complaint ⟨.type, Text.lit "single"⟩)) ∧
    (decode registry 4 (.arrayOf box) (.array [.array []])).FailsAt
      (.invalid (Text.lit "Box") (.array []) (Text.lit "empty")) [.index 0] ∧
    ∀ help instances, ∃ complaint, complaint.concern = .validation ∧
      (person.modelClass help instances).validate [(age, .int (-1))] = .error complaint := by
  intro box assemble schema registry age positive person
  have hregistry : registry.Within Spec.HasDescription Json.IsShort := by
    intro entry hentry
    obtain rfl := List.mem_singleton.mp hentry
    refine ⟨by simp, fun arguments other _ hother => ?_⟩
    cases hother
    intro spec hspec
    obtain rfl := List.mem_singleton.mp hspec
    rfl
  have hbox : box.DecodedBy registry schema := ⟨_, _, _, rfl, rfl, rfl⟩
  obtain ⟨hcontains, -, -, -, hreported⟩ := complaints_are_contained hregistry
  refine ⟨hregistry, ((hcontains 4 _ _ (by rfl) (by rfl)).faults _).mpr ?_, ?_, fun help instances => ?_⟩
  · have hitems : course registry (.arrayOf (.anyOf [box, .any]))
        (.array [.array [], .array [.null]]) =
          .parts ([⟨.index 0, .anyOf [box, .any], .array []⟩] ++
            [⟨.index 1, .anyOf [box, .any], .array [.null]⟩]) fun data => .done (.list data) := rfl
    have hunion : course registry (.anyOf [box, .any]) (.array [.null]) =
        .alternatives (.anyOf [box, .any]) ([] ++ [box, .any]) := rfl
    have hfirst : (decode registry 3 (.anyOf [box, .any]) (.array [])).result = .ok (.list []) :=
      rfl
    have harrives := Arrives.part hitems (by simpa using ⟨_, hfirst⟩)
      (.alternative rfl hunion (by simp) .here)
    have hitem : (elements (decode registry 1 .any) 0 [.null]).result = .ok [.null] := rfl
    exact ⟨_, _, _, _, harrives, .rule hbox (.array hitem) (by decide)⟩
  · have hitems : course registry (.arrayOf box) (.array [.array []]) =
        .parts ([] ++ [⟨.index 0, box, .array []⟩]) fun data => .done (.list data) := rfl
    have hitem : (elements (decode registry 2 .any) 0 []).result = .ok [] := rfl
    exact (hcontains 4 _ _ (by rfl) (by rfl)).refuses _ _ _ _ _ _ (.part hitems (by simp) .here) hbox
      (.array hitem) rfl
  · have hobjects : (person.modelClass help instances).Reports (· = [(age, .int (-1))]) := by
      constructor
      rintro _ rfl
      let issues : List Issue := [⟨[age], .rejected (Text.lit "negative"), .int (-1)⟩]
      have hage : person.fieldValue instances ⟨age, .builtin .int, none, none⟩ (.int (-1)) =
          Checked.issue (.rejected (Text.lit "negative")) (.int (-1)) := by
        simp only [DeclaredModel.fieldValue, Conform.conform]
        rfl
      have hlookup : [(Data.str age, Data.int (-1))].lookup (.str age) = some (.int (-1)) := by
        simpa using DeclaredModel.lookup_str [(age, .int (-1))] age
      have hread : person.readModel instances [(.str age, .int (-1))] = .error issues := by
        simp only [DeclaredModel.readModel, person, DeclaredModel.readFields, ModelField.inputName,
          Option.getD_none, hlookup]
        rw [show DeclaredModel.fieldValue _ instances _ (.int (-1)) = _ from hage]
        rfl
      refine ⟨Issue.report help (Text.lit "Person") issues, ?_⟩
      simp only [DeclaredModel.modelClass, DeclaredModel.validate, person, List.map_cons,
        List.map_nil]
      rw [hread]
      rfl
    obtain ⟨complaint, hconcern, hvalidate, -⟩ := hreported _ _ hobjects _ rfl
    exact ⟨complaint, hconcern, hvalidate⟩

/-- A complaint about a value at a place that is read by a stray annotation beside it: instead of a
refusal there is a fault, since the failure has to name the specification of both. The same goes for
an identity whose name would show too great an integer beside it, and for a value that is one. -/
theorem complaints_beside_strays_are_not_contained : ∃ great : Nat, great = 10 ^ Text.digitLimit ∧
    let ghost : Spec := .symbol (Text.lit "Ghost") []
    let box : Spec := .symbol (Text.lit "Box") []
    let refuse : Rule := fun _ => .error ⟨.value, Text.lit "no ghost"⟩
    let ghosts : Schema := .scalar (Text.lit "Ghost") .number refuse
    let boxes : Schema :=
      .array (Text.lit "Box") (.tupleOf [.custom ghost [], .builtin .int]) .ok
    let registry : Registry :=
      ⟨[(ghost, ⟨fun _ => .ok ghosts, 0, [], Text.lit "Ghost"⟩),
        (box, ⟨fun _ => .ok boxes, 0, [], Text.lit "Box"⟩)]⟩
    let value : Json := .array [.array [.number (.int 1), .number (.int 2)]]
    let pair : Spec := .tupleOf [.custom ghost [], .custom (.token (.int great)) []]
    (Spec.custom box []).HasDescription ∧ value.IsShort ∧
      ghosts.Answers (decode registry 2) (.number (.int 1))
        (.error ⟨.value, Text.lit "no ghost"⟩) ∧
      (decode registry 5 (.custom ghost []) (.number (.int 1))).FailsAt
        (.invalid (Text.lit "Ghost") (.number (.int 1)) (Text.lit "no ghost")) [] ∧
      (decode registry 5 (.custom box []) value).result =
        .error (.faulted (.notASpecification (.builtin .int))) ∧
      (decode registry 5 pair (.array [.number (.int 1), .number (.int 2)])).result =
        .error (.faulted .overlong) ∧
      (decode registry 5 (.custom ghost []) (.number (.int great))).result =
        .error (.faulted .overlong) := by
  obtain ⟨great, hgreat⟩ : ∃ great : Nat, great = 10 ^ Text.digitLimit := ⟨_, rfl⟩
  have hlong := Text.isOverlong_of_eq hgreat
  refine ⟨great, hgreat, ?_⟩
  intro ghost box refuse ghosts boxes registry value pair
  refine ⟨rfl, rfl, .scalar rfl rfl, .inr ⟨_, rfl, rfl, rfl⟩, rfl, ?_, ?_⟩
  · have hflaw : pair.flaw? = some .overlong := by
      simp [pair, ghost, Spec.flaw?, Spec.flawAmong?, Spec.isNameable, Spec.isOverlong,
        Data.isOverlong, hlong]
    have hheading : heading registry pair = .error .overlong := by
      show pair.heading = _
      rw [Spec.heading, hflaw]
    obtain ⟨e, he⟩ : ∃ e, ((course registry pair (.array [.number (.int 1), .number (.int 2)])).follow
        registry (decode registry 4) 4 (.array [.number (.int 1), .number (.int 2)])).result =
          .error (.failed e) := ⟨_, rfl⟩
    simp [decode_eq_follow, hheading, headed, he, Except.mapError, Fault.ofFlaw]
  · have hunshown : unshown? 4 (.number (.int great)) = some (.faulted .overlong) := by
      simp [unshown?, Json.depth, Json.isOverlong, hlong]
    have hrefused : decode registry 5 (.custom ghost []) (.number (.int great)) =
        (Attempt.refuse (.invalid (Text.lit "Ghost") (.number (.int great)) (Text.lit "no ghost"))).framed 4
          (Text.lit "Ghost") (.number (.int great)) := rfl
    simp [hrefused, framed, Attempt.refuse, stopped, shownAs, hunshown, Except.mapError]

end Decoder

end JsonDecoding
