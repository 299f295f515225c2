import JsonDecoding.Parser
import JsonDecoding.Proofs.Failures
import JsonDecoding.Proofs.Infinities
import JsonDecoding.Proofs.Restraint

/-!
# Safety

Closed specifications go wrong in three ways only: with a sound registry, decoding a value whose
integers can be written gives data or refuses the value, and leaves no record, unless an identity
that it would have to name has no name, a record that is to go into a set lacks a field, or a model
is built without validation by what complains (`decode_safe`). So a parser given a text gives data,
or says what is wrong with the text or the value in it, or goes wrong in one of these ways
(`closed_goes_wrong_in_three_ways`).
-/

namespace JsonDecoding

namespace Attempt

variable {α β : Type}

/-- A cause that can be told, and is not the want of a strategy. -/
def Cause.IsPlain (cause : Cause) : Prop :=
  cause.flaw? = none ∧ ∀ spec, cause ≠ .unknownSpec spec

/-- An attempt without records that gives good data, refuses the value, runs out of room, or ends in
a fault that is `excused`. -/
inductive Safe (excused : Fault → Prop) (good : α → Prop) : Attempt α → Prop where
  | done {a : α} (h : good a) : Safe excused good ⟨[], .ok a⟩
  | failed {e : DecodeError} (h : Cause.IsPlain e.cause) :
      Safe excused good ⟨[], .error (.failed e)⟩
  | exhausted : Safe excused good ⟨[], .error .exhausted⟩
  | faulted {fault : Fault} (h : excused fault) : Safe excused good ⟨[], .error (.faulted fault)⟩

namespace Safe

variable {excused : Fault → Prop} {good : α → Prop} {better : β → Prop} {t : Attempt α}

theorem refuse {cause : Cause} (h : Cause.IsPlain cause) :
    (Attempt.refuse cause : Attempt α).Safe excused good := .failed h

theorem bind (h : t.Safe excused good) {next : α → Attempt β}
    (hnext : ∀ a, t.result = .ok a → good a → (next a).Safe excused better) :
    (t.bind next).Safe excused better := by
  cases h with
  | done ha => exact hnext _ rfl ha
  | failed he => exact .failed he
  | exhausted => exact .exhausted
  | faulted hfault => exact .faulted hfault

theorem map (h : t.Safe excused good) {f : α → β} (hf : ∀ a, good a → better (f a)) :
    (t.map f).Safe excused better := by
  cases h with
  | done ha => exact .done (hf _ ha)
  | failed he => exact .failed he
  | exhausted => exact .exhausted
  | faulted hfault => exact .faulted hfault

theorem located (h : t.Safe excused good) (location : Location) :
    (t.located location).Safe excused good := by
  cases h with
  | done ha => exact .done ha
  | failed he => exact .failed (by simpa using he)
  | exhausted => exact .exhausted
  | faulted hfault => exact .faulted hfault

theorem framed (h : t.Safe excused good) (room : Nat) (description : Text) {value : Json}
    (hshort : value.IsShort) : (t.framed room description value).Safe excused good := by
  cases h with
  | done ha => exact .done ha
  | @failed e he =>
      simp only [Attempt.framed, mapStop, Except.mapError, shownAs]
      cases hunshown : unshown? room value with
      | none => exact .failed he
      | some stop =>
          rcases unshown?_eq_some hunshown with rfl | ⟨-, hlong⟩
          · exact .exhausted
          · cases hlong.symm.trans hshort
  | exhausted => exact .exhausted
  | faulted hfault => exact .faulted hfault

/-- Parts in order are safe together when each is. -/
theorem inOrder {parts : List (Location × Attempt α)}
    (h : ∀ part ∈ parts, part.2.Safe excused good) :
    (Attempt.inOrder parts).Safe excused fun as => ∀ a ∈ as, good a := by
  induction parts with
  | nil => exact .done (by simp)
  | cons part rest ih =>
      obtain ⟨location, t⟩ := part
      have hrest := ih fun other hother => h other (by simp [hother])
      refine ((h (location, t) (by simp)).located location).bind fun a _ ha => hrest.map ?_
      intro others hothers
      simpa using ⟨ha, hothers⟩

/-- A permitted answer of a rule is safe. -/
theorem ofRule {fine : Data → Prop} {passes : Complaint → Prop} {answer : Except Complaint Data}
    (h : Permitted fine (fun complaint => complaint.Rejects ∨ passes complaint) answer)
    (hexcused : ∀ complaint, passes complaint → excused (.complaint complaint))
    (description : Text) (value : Json) :
    (Attempt.ofRule description value answer).Safe excused fine := by
  cases answer with
  | ok data => exact .done h
  | error complaint =>
      simp only [Attempt.ofRule]
      split
      · exact .refuse ⟨rfl, by simp⟩
      · next hrejects => exact .faulted (hexcused complaint (h.resolve_left hrejects))

end Safe

end Attempt

namespace Decoder

open Attempt

variable {excused : Fault → Prop} {fine : Data → Prop} {step : Spec → Json → Attempt Data}
  {registry : Registry} {allowed : Spec → Prop}

/-! ## Containers -/

theorem elements_safe {element : Spec}
    (h : ∀ item : Json, item.IsShort → (step element item).Safe excused fine) (index : Nat)
    {items : List Json} (hshort : (Json.array items).IsShort) :
    (elements (step element) index items).Safe excused fun data => ∀ d ∈ data, fine d := by
  rw [elements_eq]
  apply Safe.inOrder
  intro part hpart
  obtain ⟨item, hmem, rfl⟩ := List.mem_map.mp hpart
  have hitem := (List.mem_zipIdx hmem).2.2
  exact h item.1 (Json.isShort_array.mp hshort _ (hitem ▸ List.getElem_mem _))

theorem entries_safe {content : Spec}
    (h : ∀ item : Json, item.IsShort → (step content item).Safe excused fine)
    {fields : List (Text × Json)} (hshort : (Json.object fields).IsShort) :
    (entries (step content) fields).Safe excused fun data =>
      ∀ entry ∈ data, (∃ key, entry.1 = .str key) ∧ fine entry.2 := by
  rw [entries_eq]
  apply Safe.inOrder
  intro part hpart
  obtain ⟨field, hfield, rfl⟩ := List.mem_map.mp hpart
  exact (h field.2 (Json.isShort_object.mp hshort field hfield)).map
    fun d hd => ⟨⟨field.1, rfl⟩, hd⟩

theorem positions_safe {specs : List Spec}
    (h : ∀ spec ∈ specs, ∀ item : Json, item.IsShort → (step spec item).Safe excused fine)
    {items : List Json} (hshort : (Json.array items).IsShort) :
    (positions step 0 specs items).Safe excused fun data => ∀ d ∈ data, fine d := by
  rw [positions_eq]
  apply Safe.inOrder
  intro part hpart
  obtain ⟨⟨⟨spec, item⟩, index⟩, hmem, rfl⟩ := List.mem_map.mp hpart
  have hpair := List.of_mem_zip (List.mem_of_getElem? (List.mem_zipIdx_iff_getElem?.mp hmem))
  exact h spec hpair.1 item (Json.isShort_array.mp hshort item hpair.2)

theorem declared_safe {fields : List Field}
    (h : ∀ field ∈ fields, ∀ item : Json, item.IsShort →
      (step field.spec item).Safe excused fine)
    {content : List (Text × Json)} (hshort : (Json.object content).IsShort) :
    (declared step content fields).Safe excused fun data =>
      ∀ entry ∈ data, (∃ key, entry.1 = .str key) ∧ fine entry.2 := by
  rw [declared_eq]
  apply Safe.inOrder
  intro part hpart
  obtain ⟨⟨field, item⟩, hmem, rfl⟩ := List.mem_map.mp hpart
  obtain ⟨hfield, hitem⟩ := mem_present.mp hmem
  -- what is looked up is the value of one of the fields
  obtain ⟨before, after, rfl, -⟩ := List.lookup_eq_some_iff.mp hitem
  exact (h field hfield item (Json.isShort_object.mp hshort (field.key, item) (by simp))).map
    fun d hd => ⟨⟨field.key, rfl⟩, hd⟩

/-! ## Specifications -/

theorem isPlain_typeMismatch (expected actual : Text) {value : Json} (hshort : value.IsShort) :
    Cause.IsPlain (.typeMismatch expected actual value) := by
  have hlong : value.isOverlong = false := hshort
  exact ⟨by simp [Cause.flaw?, hlong], by simp⟩

theorem mismatch_safe (expected : Text) {value : Json} (hshort : value.IsShort) :
    (mismatch expected value).Safe excused fine := .refuse (isPlain_typeMismatch _ _ hshort)

/-- What stands in the way of describing a specification is at most a name, and that is excused. -/
def Told (excused : Fault → Prop) (spec : Spec) : Prop :=
  spec.HasDescription ∨ excused .overlong ∧ spec.flaw? = some .overlong

theorem Told.desugar {spec : Spec} (h : Told excused spec) : Told excused spec.desugar := by
  cases spec with
  | bareArray | bareObject => exact .inl rfl
  | _ => exact h

theorem describable_safe {spec : Spec} (hspec : Told excused spec) {t : Attempt Data}
    (h : t.Safe excused fine) : (describable spec t).Safe excused fine := by
  rcases hspec with hspec | ⟨hexcused, hflaw⟩
  · rw [describable_of_hasDescription hspec]
    exact h
  · simp only [describable, hflaw]
    exact .faulted hexcused

theorem framedBy_safe {spec : Spec} (hspec : Told excused spec) {t : Attempt Data}
    (h : t.Safe excused fine) (room : Nat) {value : Json} (hshort : value.IsShort) :
    (t.framedBy room spec value).Safe excused fine := by
  rcases hspec with hspec | ⟨hexcused, hflaw⟩
  · rw [framedBy_of_hasDescription hspec]
    exact h.framed room _ hshort
  · cases h with
    | done ha => exact .done ha
    | failed =>
        simp only [framedBy, hflaw, mapStop, Except.mapError]
        exact .faulted hexcused
    | exhausted => exact .exhausted
    | faulted h => exact .faulted h

theorem list_safe (hfine : Data.Kept fine) {element : Spec}
    (h : ∀ item : Json, item.IsShort → (step element item).Safe excused fine) {items : List Json}
    (hshort : (Json.array items).IsShort) :
    ((elements (step element) 0 items).map .list).Safe excused fine :=
  (elements_safe h 0 hshort).map hfine.list

theorem dict_safe (hfine : Data.Kept fine) {content : Spec}
    (h : ∀ item : Json, item.IsShort → (step content item).Safe excused fine)
    {fields : List (Text × Json)} (hshort : (Json.object fields).IsShort) :
    ((entries (step content) fields).map .dict).Safe excused fine :=
  (entries_safe h hshort).map hfine.dict

theorem scalar_safe (hfine : Data.Kept fine)
    (h : ∀ item : Json, item.IsShort → (step .any item).Safe excused fine) (kind : Primitive)
    {value : Json} (hshort : value.IsShort) : (scalar step kind value).Safe excused fine := by
  unfold scalar
  split
  · split
    · next hdata =>
        split
        · exact .done (hfine.scalar _ _ hdata)
        · exact mismatch_safe _ hshort
    · exact mismatch_safe _ hshort
  · split
    · exact list_safe hfine h hshort
    · exact dict_safe hfine h hshort
    · next harray hobject =>
        obtain ⟨d, hd⟩ := Json.exists_scalar? harray hobject
        rw [hd]
        exact .done (hfine.scalar _ _ hd)

/-- The first reason against items is that of one of them. -/
theorem exists_unhashable {items : List Data} {reason : Data.Unhashable}
    (h : Data.unhashableItem? items = some reason) :
    ∃ item ∈ items, item.unhashable? = some reason := by
  induction items with
  | nil => cases h
  | cons item rest ih =>
      rw [Data.unhashableItem?, Option.or_eq_some_iff] at h
      rcases h with h | ⟨-, h⟩
      · exact ⟨item, List.mem_cons_self .., h⟩
      · obtain ⟨other, hmem, hother⟩ := ih h
        exact ⟨other, List.mem_cons_of_mem _ hmem, hother⟩

theorem setOf_safe (hfine : Data.Kept fine) {spec : Spec} (hspec : Told excused spec)
    (hlacking : ∀ className field data, fine data →
      data.unhashable? = some (.lacking className field) →
      excused (.complaint ⟨.attribute, (Data.Unhashable.lacking className field).message⟩))
    {items : List Data} (hitems : ∀ item ∈ items, fine item) (value : Json) :
    (setOf spec value items).Safe excused fine := by
  unfold setOf
  split
  · next hnone => exact .done (hfine.set items hitems hnone)
  · next hreason =>
      obtain ⟨item, hmem, hitem⟩ := exists_unhashable hreason
      exact .faulted (hlacking _ _ item (hitems item hmem) hitem)
  · exact describable_safe hspec (.refuse ⟨rfl, by simp⟩)

theorem tupleOf_safe (hfine : Data.Kept fine) {specs : List Spec}
    (h : ∀ spec ∈ specs, ∀ item : Json, item.IsShort → (step spec item).Safe excused fine)
    {value : Json} (hshort : value.IsShort) : (tupleOf step specs value).Safe excused fine := by
  unfold tupleOf
  simp only
  split
  · split
    · exact (positions_safe h hshort).map hfine.tuple
    · exact .refuse (isPlain_typeMismatch _ _ hshort)
  · exact mismatch_safe _ hshort

/-- No alternative fails for want of a strategy, so none leaves a record. -/
theorem firstOf_safe {whole : Spec} (hwhole : Told excused whole) {value : Json}
    (hshort : value.IsShort) {alternatives : List Spec}
    (h : ∀ spec ∈ alternatives, (step spec value).Safe excused fine) :
    (firstOf step whole value alternatives).Safe excused fine := by
  induction alternatives with
  | nil => exact describable_safe hwhole (mismatch_safe _ hshort)
  | cons alternative rest ih =>
      have hrest := ih fun spec hspec => h spec (by simp [hspec])
      have hfirst := h alternative (by simp)
      simp only [firstOf]
      generalize step alternative value = t at hfirst
      cases hfirst with
      | done hdata => exact .done hdata
      | exhausted => exact .exhausted
      | faulted hfault => exact .faulted hfault
      | @failed e hcause =>
          -- only a failure for want of a strategy would leave a record
          have hsilent : unresolved whole alternative e = id := by
            unfold unresolved
            split
            · next spec hspec => exact absurd hspec (hcause.2 spec)
            · rfl
          simpa only [hsilent, id, after, List.nil_append] using hrest

/-- What a closed specification does is safe when the decoding of parts by closed ones is. -/
theorem matching_safe (hfine : Data.Kept fine)
    (h : ∀ spec (item : Json), Closed registry allowed spec → item.IsShort →
      (step spec item).Safe excused fine)
    (hlacking : ∀ className field data, fine data →
      data.unhashable? = some (.lacking className field) →
      excused (.complaint ⟨.attribute, (Data.Unhashable.lacking className field).message⟩))
    {spec : Spec} (hspec : Closed registry allowed spec) (hwhole : Told excused spec)
    (hcustom : ¬spec.IsCustom) {value : Json} (hshort : value.IsShort) :
    (matching step spec.desugar value).Safe excused fine := by
  have hany : ∀ item : Json, item.IsShort → (step .any item).Safe excused fine :=
    fun item => h .any item .primitive
  have harray {element : Spec} (helement : Closed registry allowed element) :
      (matching step (.arrayOf element) value).Safe excused fine := by
    simp only [matching]
    split
    · exact list_safe hfine (fun item => h element item helement) hshort
    · exact mismatch_safe _ hshort
  have hobject {content : Spec} (hcontent : Closed registry allowed content) :
      (matching step (.objectOf content) value).Safe excused fine := by
    simp only [matching]
    split
    · exact dict_safe hfine (fun item => h content item hcontent) hshort
    · exact mismatch_safe _ hshort
  cases hspec with
  | parameter hmem => cases hmem
  | primitive => exact scalar_safe hfine hany _ hshort
  | bareArray => exact harray .primitive
  | bareObject => exact hobject .primitive
  | arrayOf helement => exact harray helement
  | objectOf hcontent => exact hobject hcontent
  | mapOf hcontent => exact hobject hcontent
  | setOf helement =>
      simp only [Spec.desugar, matching]
      split
      · exact (elements_safe (fun item => h _ item helement) 0 hshort).bind fun items _ hitems =>
          setOf_safe hfine hwhole hlacking hitems _
      · exact mismatch_safe _ hshort
  | tupleOf hspecs =>
      exact tupleOf_safe hfine (fun spec hmem item => h spec item (hspecs spec hmem)) hshort
  | anyOf hspecs =>
      exact firstOf_safe hwhole hshort fun spec hmem => h spec value (hspecs spec hmem) hshort
  | custom => exact absurd trivial hcustom

/-! ## Schemas -/

/-- An object that was decoded has all declared keys that are not optional. -/
theorem declared_present {content : List (Text × Json)} {fields : List Field}
    {entries : List (Data × Data)} (hmissing : missingKeys fields content = [])
    (h : (declared step content fields).result = .ok entries) {field : Field}
    (hfield : field ∈ fields) (hrequired : field.isOptional = false) :
    ∃ data, (.str field.key, data) ∈ entries := by
  -- an absent key would be among the missing ones
  have hkey : field.key ∈ Assoc.keys content := by
    by_contra habsent
    have hmem := mem_missingKeys.mpr ⟨field, hfield, hrequired, habsent, rfl⟩
    simp [hmissing] at hmem
  obtain ⟨pair, hpair, hpairKey⟩ := List.mem_map.mp hkey
  obtain ⟨item, hitem⟩ := Option.isSome_iff_exists.mp
    (List.lookup_isSome_iff.mpr ⟨pair, hpair, beq_iff_eq.mpr hpairKey.symm⟩)
  rw [declared_eq, inOrder_ok] at h
  obtain ⟨entry, hentry, hdecoded⟩ := Outcomes.exists_of_forall₂ h
    (List.mem_map.mpr ⟨(field, item), mem_present.mpr ⟨hfield, hitem⟩, rfl⟩)
  obtain ⟨data, -, rfl⟩ := map_ok.mp hdecoded
  exact ⟨data, hentry⟩

variable {passes : Complaint → Prop}

theorem object_safe {description : Text} {fields : List Field} {assemble : Rule}
    (hrestrained : (Schema.object description fields assemble).Restrained fine passes)
    (hexcused : ∀ complaint, passes complaint → excused (.complaint complaint))
    (h : ∀ field ∈ fields, ∀ item : Json, item.IsShort →
      (step field.spec item).Safe excused fine)
    {content : List (Text × Json)} (hshort : (Json.object content).IsShort) :
    (object step description fields assemble content).Safe excused fine := by
  rw [object_eq]
  split
  · exact .refuse ⟨rfl, by simp⟩
  · next hmissing =>
      split
      · exact .refuse ⟨rfl, by simp⟩
      · apply (declared_safe h hshort).bind
        intro entries hdecoded hentries
        refine .ofRule (hrestrained entries hentries ?_) hexcused _ _
        intro field hfield hrequired
        exact declared_present (by simpa using hmissing) hdecoded hfield hrequired

theorem bySchema_safe (hfine : Data.Kept fine) {schema : Schema}
    (hrestrained : schema.Restrained fine passes)
    (hexcused : ∀ complaint, passes complaint → excused (.complaint complaint))
    (h : ∀ spec ∈ schema.specs, ∀ item : Json, item.IsShort → (step spec item).Safe excused fine)
    (room : Nat) {value : Json} (hshort : value.IsShort) :
    (bySchema registry step room schema value).Safe excused fine := by
  unfold bySchema
  split
  · exact object_safe hrestrained hexcused
      (fun field hfield => h field.spec (List.mem_map_of_mem hfield)) hshort
  · exact (elements_safe (h _ (by simp [Schema.specs])) 0 hshort).bind fun items _ hitems =>
      .ofRule (hrestrained items hitems) hexcused _ _
  · split
    · next hdata =>
        split
        · exact .ofRule (hrestrained _ (hfine.scalar _ _ hdata)) hexcused _ _
        · exact mismatch_safe _ hshort
    · exact mismatch_safe _ hshort
  · exact hrestrained.elim
  · exact mismatch_safe _ hshort

/-! ## Decoding -/

/-- The faults that closed specifications can end in: an identity that is written has no name, a
record that was made lacks a field which its hash asks for, or what builds a model without validation
complains, be it about the value. -/
inductive Excused (allowed : Spec → Prop) (fine : Data → Prop) (raised : Complaint → Prop) :
    Fault → Prop where
  | unnamed {identity : Spec} (h : allowed identity) (hname : identity.isNameable = false) :
      Excused allowed fine raised .overlong
  | lacking {data : Data} {className field : Text} (h : fine data)
      (hlacking : data.unhashable? = some (.lacking className field)) :
      Excused allowed fine raised
        (.complaint ⟨.attribute, (Data.Unhashable.lacking className field).message⟩)
  | built {complaint : Complaint} (h : raised complaint) :
      Excused allowed fine raised (.complaint complaint.unlessValidation)

variable {raised : Complaint → Prop}

theorem told_of_closed {spec : Spec} (h : Closed registry allowed spec) :
    Told (Excused allowed fine raised) spec := by
  by_cases hnames : ∀ identity, allowed identity → identity.isNameable = true
  · exact .inl (h.hasDescription hnames)
  · push Not at hnames
    obtain ⟨identity, hallowed, hname⟩ := hnames
    exact h.wellFormed.flaw?_eq.imp_right fun hflaw =>
      ⟨.unnamed hallowed (eq_false_of_ne_true hname), hflaw⟩

/-- **Decoding by closed specifications is safe** on values whose integers can be written, by
induction on the room. -/
theorem decode_safe (hfine : Data.Kept fine) (hregistry : registry.IsSound allowed fine raised)
    {spec : Spec} (hspec : Closed registry allowed spec) (room : Nat) {value : Json}
    (hshort : value.IsShort) :
    (decode registry room spec value).Safe (Excused allowed fine raised) fine := by
  induction room generalizing spec value with
  | zero => exact .exhausted
  | succ room ih =>
      by_cases hcustom : spec.IsCustom
      · cases hspec with
        | custom _ hresolve hleast hmost harguments =>
            obtain ⟨key, hmem⟩ := Registry.mem_of_resolve hresolve
            -- the factory makes a schema whose own specifications are closed again
            obtain ⟨schema, hcall, hrestrained, hspecs⟩ :=
              (hregistry _ hmem).call hfine hleast hmost harguments
            have hschema : (bySchema registry (decode registry room) room schema value).Safe
                (Excused allowed fine raised) fine :=
              bySchema_safe hfine hrestrained (fun _ ⟨_, horiginal, heq⟩ => heq ▸ .built horiginal)
                (fun spec hmem item hitem => ih (hspecs spec hmem) hitem) room hshort
            simp only [decode, Spec.desugar, custom, hresolve, hcall]
            exact hschema.framed room schema.description hshort
        | parameter hmem => cases hmem
        | _ => exact hcustom.elim
      · have htold : Told (Excused allowed fine raised) _ := told_of_closed hspec
        have hlacking (className field : Text) (data : Data) (hdata : fine data)
            (h : data.unhashable? = some (.lacking className field)) :
            Excused allowed fine raised
              (.complaint ⟨.attribute, (Data.Unhashable.lacking className field).message⟩) :=
          .lacking hdata h
        rw [decode_of_not_custom hcustom]
        exact framedBy_safe htold.desugar
          (matching_safe hfine (fun spec item h hitem => ih h hitem) hlacking hspec htold hcustom
            hshort) _ hshort

end Decoder

/-! ## Parsing -/

/-- Whether a failure is one of the input: the text is invalid, or the value in it does not match,
and not for want of a strategy. -/
def Failure.IsOfInput : Failure → Prop
  | .invalid _ => True
  | .mismatch e => ∀ spec, e.cause ≠ .unknownSpec spec
  | .faulted _ => False

/-- Whether a record says that an alternative had no strategy. -/
def Log.Record.IsUnresolved : Log.Record → Prop
  | .alternativeUnresolved .. => True
  | _ => False

/-- A parsing that gives data, a failure of the input or a fault that is `excused`, and found a
strategy for everything. -/
structure Parsing.Safe (excused : Fault → Prop) (parsing : Parsing) : Prop where
  result : ∀ failure, parsing.result = .error failure →
    failure.IsOfInput ∨ ∃ fault, failure = .faulted fault ∧ excused fault
  log : ∀ record ∈ parsing.log, ¬record.IsUnresolved

namespace Parser

variable {p : Parser} {allowed : Spec → Prop} {fine : Data → Prop} {raised : Complaint → Prop}
  {spec : Spec}

/-- What a parser makes of a fault is that fault, or a value that is too deeply nested. -/
theorem conclude_faulted (p : Parser) (spec : Spec) (fault : Fault) :
    p.conclude spec (.faulted fault) = ⟨[], .error (.faulted fault)⟩ ∨
      p.conclude spec (.faulted fault) = p.conclude spec .exhausted := by
  cases fault with
  | complaint complaint =>
      by_cases hrecursion : complaint.concern = .recursion
      · exact .inr (by simp only [conclude, if_pos hrecursion])
      · exact .inl (by simp only [conclude, if_neg hrecursion])
  | _ => exact .inl rfl

theorem decodeValue_safe (hfine : Data.Kept fine)
    (hregistry : p.registry.IsSound allowed fine raised) (hspec : Closed p.registry allowed spec)
    {value : Json} (hshort : value.IsShort) :
    (p.decodeValue value spec).Safe (Decoder.Excused allowed fine raised) := by
  have htold : Decoder.Told (Decoder.Excused allowed fine raised) spec :=
    Decoder.told_of_closed hspec
  have hdecoded := Decoder.decode_safe hfine hregistry hspec p.room hshort
  have hdeep {t : Parsing} (ht : t = p.conclude spec .exhausted) :
      t.Safe (Decoder.Excused allowed fine raised) := by
    subst ht
    rcases htold with hdescription | ⟨hexcused, hflaw⟩
    · simp only [conclude, told, show spec.flaw? = none from hdescription, Option.or]
      exact ⟨by simp [Failure.IsOfInput], by simp [Log.Record.IsUnresolved]⟩
    · simp only [conclude, told, hflaw, Option.or]
      exact ⟨by simp [hexcused, Fault.ofFlaw], by simp⟩
  simp only [decodeValue, hspec.wellFormed.specOf_eq]
  generalize Decoder.decode p.registry p.room spec value = attempt at hdecoded
  cases hdecoded with
  | done => exact ⟨by simp, by simp⟩
  | failed hcause =>
      rcases htold with hdescription | ⟨hexcused, hflaw⟩
      · simp only [conclude, told, show spec.flaw? = none from hdescription, hcause.1, Option.or]
        exact ⟨by simpa [Failure.IsOfInput] using hcause.2, by simp [Log.Record.IsUnresolved]⟩
      · simp only [conclude, told, hflaw, Option.or]
        exact ⟨by simp [hexcused, Fault.ofFlaw], by simp⟩
  | exhausted => exact hdeep rfl
  | @faulted fault hexcused =>
      simp only [List.nil_append]
      rcases conclude_faulted p spec fault with h | h
      · rw [h]
        exact ⟨by simp [hexcused], by simp⟩
      · exact hdeep h

/-- **Closed specifications go wrong in three ways only**: whatever the text, a parser with a sound
registry gives data, or says that the text is invalid or that the value in it does not match, and
nothing lacks a strategy. Otherwise the name of an identity which is written in the specification or
by a schema shows an integer that has too many digits, an element of a set is a record that lacks a
field, or a model is built without validation by what complains. -/
theorem closed_goes_wrong_in_three_ways (hfine : Data.Kept fine)
    (hregistry : p.registry.IsSound allowed fine raised) (hspec : Closed p.registry allowed spec)
    {input : Input} (hinput : input.IsWritten) :
    (p.decode input spec).Safe (Decoder.Excused allowed fine raised) := by
  have hread := hinput.read_ofText p.maxDepth
  have hsilent : ∀ record ∈ (input.read p.maxDepth).log, ¬record.IsUnresolved := by
    intro record hrecord
    obtain ⟨position, problem, rfl⟩ := hread.log record hrecord
    exact id
  unfold decode
  simp only
  split
  · next unreadable herror =>
      obtain ⟨e, rfl⟩ := hread.result _ herror
      exact ⟨by simp [Unreadable.failure, Failure.IsOfInput], hsilent⟩
  · next value hvalue =>
      have hsafe := decodeValue_safe hfine hregistry hspec (hinput.isShort_of_read hvalue)
      refine ⟨hsafe.result, ?_⟩
      intro record hrecord
      exact (List.mem_append.mp hrecord).elim (hsilent record) (hsafe.log record)

/-- A box of points: the box is built by a factory, the points are records with a renamed key and a
field that only their hook sets. -/
theorem closed_goes_wrong_in_three_ways_for_box :
    let box : Spec := .symbol (Text.lit "Box") []
    let point : Spec := .symbol (Text.lit "Point") []
    let boxed : Factory :=
      ⟨fun arguments => Schema.ofElement (Text.lit "Box") (arguments.headD .any) .ok, 1, [.any],
        Text.lit "Box"⟩
    let x : RecordField := ⟨Text.lit "x", .builtin .int, none, .initial⟩
    let norm : RecordField := ⟨Text.lit "norm", .builtin .int, none, .internal⟩
    let complete (values _ : Values) : Except Complaint Values :=
      .ok (values ++ [(Text.lit "norm", (values.lookup (Text.lit "x")).getD .null)])
    let definition : RecordClass := ⟨Text.lit "Point", [x, norm], false, complete, none⟩
    let pointed : Factory :=
      ⟨fun _ => definition.schema [(Text.lit "x", Text.lit "X")] [], 0, [], Text.lit "Point"⟩
    let p := Parser.ofRegistry ⟨[(box, boxed), (point, pointed)]⟩
    let spec : Spec := .custom box [.custom point []]
    let input : Input := .text (Text.lit "[\x7b\"X\":1\x7d,\x7b\"X\":2\x7d]")
    let made (i : Int) : Data :=
      .record (Text.lit "Point") false [(Text.lit "x", .int i), (Text.lit "norm", .int i)] []
    (p.decode input spec).result = .ok (.list [made 1, made 2]) ∧
    (p.decode input spec).Safe (Decoder.Excused (fun identity => identity = box ∨ identity = point)
      (fun _ => True) fun _ => False) := by
  intro box point boxed x norm complete definition pointed p spec input made
  have hfine : Data.Kept fun _ => True := ⟨by simp, by simp, by simp, by simp, by simp⟩
  let allowed (identity : Spec) : Prop := identity = box ∨ identity = point
  have hboxed : boxed.IsSound p.registry allowed (fun _ => True) fun _ => False := by
    constructor
    · intro spec hspec
      obtain rfl := List.mem_singleton.mp hspec
      exact .primitive
    · intro arguments hlength harguments
      obtain ⟨argument, rfl⟩ := List.length_eq_one_iff.mp hlength
      have hschema : Schema.ofElement (Text.lit "Box") argument .ok =
          .ok (.array (Text.lit "Box") argument .ok) := by
        rw [Schema.ofElement, (harguments argument (by simp)).specOf_eq]
        rfl
      refine ⟨.array (Text.lit "Box") argument .ok, _, hschema, hschema, fun _ _ => trivial, ?_⟩
      simpa [Schema.specs] using .parameter (List.mem_singleton_self argument)
  have hpointed : pointed.IsSound p.registry allowed (fun _ => True) fun _ => False := by
    refine ⟨by simp [pointed], ?_⟩
    intro arguments _ _
    refine ⟨.record definition [(Text.lit "x", Text.lit "X")] [], _, rfl, rfl, ⟨?_, ?_⟩, ?_⟩
    · decide
    · intro given _ hgiven
      exact definition.construct_permitted rfl (fun _ _ => trivial)
        (by simp [definition, x, norm]) hgiven
    · intro spec hspec
      obtain rfl := List.mem_singleton.mp hspec
      exact .primitive
  have hregistry : p.registry.IsSound allowed (fun _ => True) fun _ => False := by
    intro entry hentry
    rcases List.mem_cons.mp hentry with rfl | hentry
    · exact hboxed
    · obtain rfl := List.mem_singleton.mp hentry
      exact hpointed
  have hpoint : Closed p.registry allowed (.custom point []) :=
    .custom (.inr rfl) rfl (by decide) (by decide) (by simp)
  have hspec : Closed p.registry allowed spec :=
    .custom (.inl rfl) rfl (by decide) (by decide) (by simpa using hpoint)
  exact ⟨by cbv, closed_goes_wrong_in_three_ways hfine hregistry hspec trivial⟩

/-- A schema is registered for a decimal number, which an integer of more digits than can be shown
equals. Arrays of that integer's kind are closed, but a value of another kind cannot be refused. -/
theorem array_of_unnamed_goes_wrong : ∃ great : Nat, great = 10 ^ Text.digitLimit ∧
    let key : Spec := .token (.decimal ⟨false, great, 0⟩)
    let identity : Spec := .token (.int great)
    let schema : Schema := .scalar (Text.lit "Great") .string .ok
    let registry : Registry := ⟨[(key, ⟨fun _ => .ok schema, 0, [], key.identityName⟩)]⟩
    let p := Parser.ofRegistry registry
    let spec : Spec := .arrayOf (.custom identity [])
    let allowed (other : Spec) : Prop := other = identity
    Registry.empty.add ⟨key, .schema schema, none, []⟩ = .ok (registry, []) ∧
    registry.IsSound allowed (fun _ => True) (fun _ => False) ∧ Closed registry allowed spec ∧
    (p.decode (.text (Text.lit "1")) spec).result = .error (.faulted .overlong) := by
  obtain ⟨great, hgreat⟩ : ∃ great : Nat, great = 10 ^ Text.digitLimit := ⟨_, rfl⟩
  have hlong := Text.isOverlong_of_eq hgreat
  refine ⟨great, hgreat, ?_⟩
  intro key identity schema registry p spec allowed
  have hname : identity.isNameable = false := by
    simp [identity, Spec.isNameable, Spec.isOverlong, Data.isOverlong, hlong]
  have hflaw : spec.flaw? = some .overlong := by simp [spec, Spec.flaw?, hname]
  have hresolve :
      registry.resolve identity = some ⟨fun _ => .ok schema, 0, [], key.identityName⟩ := by
    have hsame : (identity == key) = true := by
      have hnegative : decide ((great : Int) < 0) = false := by simp
      simp [identity, key, BEq.beq, Spec.same, Data.same, Data.sameQuantity, Data.quantity?,
        Data.Quantity.ofInt, Data.Quantity.same, hnegative]
    simp [Registry.resolve, registry, List.lookup_cons, hsame, identity, Spec.isHashable,
      Spec.unhashable?, Data.unhashable?]
  refine ⟨rfl, ?_, ?_, ?_⟩
  · intro entry hentry
    obtain rfl := List.mem_singleton.mp hentry
    refine ⟨by simp, ?_⟩
    intro arguments _ _
    exact ⟨.scalar (Text.lit "Great") .string .ok, schema, rfl, rfl, fun _ _ => trivial,
      by simp [schema, Schema.specs]⟩
  · exact .arrayOf (.custom rfl hresolve (by simp [Factory.least]) (by simp) (by simp))
  · have hread : (Input.text (Text.lit "1")).read p.maxDepth =
        ⟨[], .ok (.number (.int 1)), ⟨100, 0⟩⟩ := by cbv
    have hspec : Schema.specOf spec = .ok spec := rfl
    have hdecode : (Decoder.decode p.registry p.room spec (.number (.int 1))).result =
        .error (.faulted .overlong) := by
      show (Decoder.decode registry (999 + 1) spec (.number (.int 1))).result = _
      simp [Decoder.decode, spec, Spec.desugar, Decoder.matching, Decoder.mismatch,
        Attempt.framedBy, Attempt.refuse, Attempt.stopped, Except.mapError, Spec.flaw?, hname, Fault.ofFlaw]
    simp only [decode, hread, decodeValue, hspec, hdecode]
    rfl

end Parser

end JsonDecoding
