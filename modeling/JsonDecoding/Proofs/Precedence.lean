import JsonDecoding.Proofs.Arrivals

/-!
# What decides first

An object schema looks at the kind of a value, then for missing keys, then for unknown ones, and
only then at values: these in declared order up to the first that stops, and the rule last of all
(`Verdict`). Every verdict says the whole attempt, records included, so what comes earlier in this
order keeps everything that comes later from happening.
-/

namespace JsonDecoding

open Attempt Decoder

/-! ## Parts in order, with their records -/

/-- How a stop in a part at a location looks from its parent. -/
def Stop.locatedAt (location : Location) : Stop → Stop
  | .failed e => .failed (e.locatedAt location)
  | stop => stop

namespace Attempt

variable {α : Type}

theorem located_of_ok {t : Attempt α} {a : α} (h : t.result = .ok a) (location : Location) :
    t.located location = t := by
  obtain ⟨log, result⟩ := t
  cases h
  rfl

theorem located_of_error {t : Attempt α} {stop : Stop} (h : t.result = .error stop)
    (location : Location) : t.located location = ⟨t.log, .error (stop.locatedAt location)⟩ := by
  obtain ⟨log, result⟩ := t
  cases h
  cases stop <;> rfl

/-- Parts that all succeed leave all their records. -/
theorem inOrder_of_ok {parts : List (Location × Attempt α)} {as : List α}
    (h : List.Forall₂ (fun part a => part.2.result = .ok a) parts as) :
    inOrder parts = ⟨parts.flatMap fun part => part.2.log, .ok as⟩ := by
  induction h with
  | nil => rfl
  | @cons part a parts as hfirst _ ih =>
      rw [inOrder, located_of_ok hfirst, bind_of_ok hfirst, ih]
      rfl

/-- The first part that stops leaves the last records. -/
theorem inOrder_of_error {before after : List (Location × Attempt α)} {as : List α}
    {location : Location} {t : Attempt α} {stop : Stop}
    (hbefore : List.Forall₂ (fun part a => part.2.result = .ok a) before as)
    (hstop : t.result = .error stop) :
    inOrder (before ++ (location, t) :: after) =
      ⟨(before.flatMap fun part => part.2.log) ++ t.log, .error (stop.locatedAt location)⟩ := by
  induction hbefore with
  | nil =>
      rw [List.nil_append, inOrder, located_of_error hstop]
      rfl
  | @cons part a parts as hfirst _ ih =>
      rw [List.cons_append, inOrder, located_of_ok hfirst, bind_of_ok hfirst, ih]
      simp [Attempt.map, Except.map, List.flatMap_cons]

end Attempt

/-! ## Verdicts -/

namespace Decoder

/-- Fields of an object have all been decoded. -/
abbrev Decoded (step : Spec → Json → Attempt Data) : List (Field × Json) → List Data → Prop :=
  List.Forall₂ fun part data => (step part.1.spec part.2).result = .ok data

/-- The records that decoding some fields leaves. -/
def records (step : Spec → Json → Attempt Data) (parts : List (Field × Json)) : List Log.Record :=
  parts.flatMap fun part => (step part.1.spec part.2).log

/-- The dictionary that a rule is asked about. -/
def decodedDict (parts : List (Field × Json)) (data : List Data) : Data :=
  .dict (parts.zipWith (fun part d => (.str part.1.key, d)) data)

/-- How a schema of objects with declared fields decides about a value, when parts are decoded by
`step`. -/
inductive Verdict (step : Spec → Json → Attempt Data) (description : Text) (declared : List Field)
    (assemble : Rule) : Json → Attempt Data → Prop where
  | notObject {value : Json} (h : value.tag ≠ .object) :
      Verdict step description declared assemble value
        (.refuse (.typeMismatch description value.tag.name value))
  | missing {content : List (Text × Json)} (h : missingKeys declared content ≠ []) :
      Verdict step description declared assemble (.object content)
        (.refuse (.missingKeys (missingKeys declared content)))
  | unknown {content : List (Text × Json)} (hmissing : missingKeys declared content = [])
      (h : unknownKeys declared content ≠ []) :
      Verdict step description declared assemble (.object content)
        (.refuse (.unknownKeys (unknownKeys declared content)))
  | stopped {content : List (Text × Json)} {before after : List (Field × Json)} {field : Field}
      {item : Json} {data : List Data} {stop : Stop} (hmissing : missingKeys declared content = [])
      (hunknown : unknownKeys declared content = [])
      (hpresent : present content declared = before ++ (field, item) :: after)
      (hbefore : Decoded step before data) (h : (step field.spec item).result = .error stop) :
      Verdict step description declared assemble (.object content)
        ⟨records step before ++ (step field.spec item).log,
          .error (stop.locatedAt (.key field.key))⟩
  | assembled {content : List (Text × Json)} {data : List Data}
      (hmissing : missingKeys declared content = []) (hunknown : unknownKeys declared content = [])
      (h : Decoded step (present content declared) data) :
      Verdict step description declared assemble (.object content)
        (.after (records step (present content declared))
          (.ofRule description (.object content)
            (assemble (decodedDict (present content declared) data))))

variable {step : Spec → Json → Attempt Data} {description : Text} {declared : List Field}
  {assemble : Rule} {content : List (Text × Json)} {value : Json} {room : Nat}

/-! ## Declared fields -/

/-- The attempts at the declared fields that an object has. -/
def fieldAttempts (step : Spec → Json → Attempt Data) (parts : List (Field × Json)) :
    List (Location × Attempt Data) :=
  parts.map fun part => (.key part.1.key, step part.1.spec part.2)

theorem declared_eq_attempts :
    Decoder.declared step content declared =
      (inOrder (fieldAttempts step (present content declared))).map
        ((present content declared).zipWith fun part d => (.str part.1.key, d)) := by
  rw [declared_eq, declaredParts, inOrder_map]
  rfl

theorem declared_of_decoded {data : List Data} (h : Decoded step (present content declared) data) :
    Decoder.declared step content declared =
      ⟨records step (present content declared),
        .ok ((present content declared).zipWith (fun part d => (.str part.1.key, d)) data)⟩ := by
  have hattempts : List.Forall₂ (fun part d => part.2.result = .ok d)
      (fieldAttempts step (present content declared)) data := List.forall₂_map_left_iff.mpr h
  rw [declared_eq_attempts, inOrder_of_ok hattempts, fieldAttempts, List.flatMap_map]
  rfl

theorem declared_of_stopped {before after : List (Field × Json)} {field : Field} {item : Json}
    {data : List Data} {stop : Stop} (hpresent : present content declared =
      before ++ (field, item) :: after)
    (hbefore : Decoded step before data) (h : (step field.spec item).result = .error stop) :
    Decoder.declared step content declared =
      ⟨records step before ++ (step field.spec item).log,
        .error (stop.locatedAt (.key field.key))⟩ := by
  have hattempts : List.Forall₂ (fun part d => part.2.result = .ok d)
      (fieldAttempts step before) data := List.forall₂_map_left_iff.mpr hbefore
  rw [declared_eq_attempts, hpresent, fieldAttempts, List.map_append, List.map_cons,
    ← fieldAttempts, inOrder_of_error hattempts h, fieldAttempts, List.flatMap_map]
  rfl

/-- Either all fields decode, or there is a first that does not. -/
theorem decoded_or_first_stop (step : Spec → Json → Attempt Data) (parts : List (Field × Json)) :
    (∃ data, Decoded step parts data) ∨
    ∃ before field item after data stop, parts = before ++ (field, item) :: after ∧
      Decoded step before data ∧ (step field.spec item).result = .error stop := by
  induction parts with
  | nil => exact .inl ⟨[], .nil⟩
  | cons part rest ih =>
      obtain ⟨field, item⟩ := part
      cases hresult : (step field.spec item).result with
      | error stop => exact .inr ⟨[], field, item, rest, [], stop, rfl, .nil, hresult⟩
      | ok d =>
          rcases ih with ⟨data, hdata⟩ | ⟨before, other, there, after, data, stop, rfl, hdata, h⟩
          · exact .inl ⟨d :: data, .cons hresult hdata⟩
          · exact .inr ⟨(field, item) :: before, other, there, after, d :: data, stop, rfl,
              .cons hresult hdata, h⟩

/-! ## The schema follows the verdict -/

/-- A schema of objects decides as the verdict says. -/
theorem bySchema_of_verdict {t : Attempt Data}
    (h : Verdict step description declared assemble value t) :
    bySchema registry step room (.object description declared assemble) value = t := by
  cases h with
  | notObject h => cases value <;> first | rfl | exact absurd rfl h
  | missing h => simp [bySchema, object_eq, h]
  | unknown hmissing h => simp [bySchema, object_eq, hmissing, h]
  | stopped hmissing hunknown hpresent hbefore h =>
      simp only [bySchema, object_eq, hmissing, hunknown, List.isEmpty_nil, Bool.not_true,
        Bool.false_eq_true, if_false]
      rw [declared_of_stopped hpresent hbefore h]
      rfl
  | assembled hmissing hunknown h =>
      simp only [bySchema, object_eq, hmissing, hunknown, List.isEmpty_nil, Bool.not_true,
        Bool.false_eq_true, if_false]
      rw [declared_of_decoded h]
      rfl

/-- There is a verdict on every value. -/
theorem exists_verdict (step : Spec → Json → Attempt Data) (description : Text)
    (declared : List Field) (assemble : Rule) (value : Json) :
    ∃ t, Verdict step description declared assemble value t := by
  by_cases hobject : value.tag = .object
  · obtain ⟨content, rfl⟩ : ∃ content, value = .object content := by
      cases value <;> first | exact ⟨_, rfl⟩ | cases hobject
    by_cases hmissing : missingKeys declared content = []
    · by_cases hunknown : unknownKeys declared content = []
      · rcases decoded_or_first_stop step (present content declared) with
          ⟨data, hdata⟩ | ⟨before, field, item, after, data, stop, hpresent, hdata, hstop⟩
        · exact ⟨_, .assembled hmissing hunknown hdata⟩
        · exact ⟨_, .stopped hmissing hunknown hpresent hdata hstop⟩
      · exact ⟨_, .unknown hmissing hunknown⟩
    · exact ⟨_, .missing hmissing⟩
  · exact ⟨_, .notObject hobject⟩

/-- **A schema of objects decides in a fixed order**: its attempt at a value is the verdict. -/
theorem bySchema_iff_verdict {t : Attempt Data} :
    bySchema registry step room (.object description declared assemble) value = t ↔
      Verdict step description declared assemble value t := by
  constructor
  · rintro rfl
    obtain ⟨t, ht⟩ := exists_verdict step description declared assemble value
    exact bySchema_of_verdict ht ▸ ht
  · exact bySchema_of_verdict

/-- What the rule answers decides where all keys are right and all fields decode. -/
theorem result_of_decoded {data : List Data} (hmissing : missingKeys declared content = [])
    (hunknown : unknownKeys declared content = [])
    (h : Decoded step (present content declared) data) :
    (bySchema registry step room (.object description declared assemble) (.object content)).result =
      (ofRule description (.object content)
        (assemble (decodedDict (present content declared) data))).result := by
  rw [bySchema_of_verdict (.assembled hmissing hunknown h)]
  rfl

/-- A schema of objects gives data where all keys are right, all fields decode, and the rule gives
data. -/
theorem bySchema_ok_iff {result : Data} :
    (bySchema registry step room (.object description declared assemble) value).result = .ok result ↔
      ∃ content data, value = .object content ∧ missingKeys declared content = [] ∧
        unknownKeys declared content = [] ∧ Decoded step (present content declared) data ∧
        assemble (decodedDict (present content declared) data) = .ok result := by
  constructor
  · intro h
    have hverdict := bySchema_iff_verdict.mp
      (rfl : bySchema registry step room (.object description declared assemble) value = _)
    generalize bySchema registry step room (.object description declared assemble) value = t at h hverdict
    cases hverdict with
    | notObject | missing | unknown | stopped => cases h
    | @assembled content data hmissing hunknown hdata =>
        refine ⟨content, data, rfl, hmissing, hunknown, hdata, ?_⟩
        exact ofRule_ok.mp h
  · rintro ⟨content, data, rfl, hmissing, hunknown, hdata, hrule⟩
    rw [result_of_decoded hmissing hunknown hdata, hrule]
    rfl

end Decoder

/-! ## Declarations, and the order of keys -/

variable {description : Text} {assemble : Rule}

/-- A field is declared by a key and an annotation. -/
def Field.Declared (optional : List Text) (pair : Text × Spec) (field : Field) : Prop :=
  field.key = pair.1 ∧ Schema.specOf pair.2 = .ok field.spec ∧
    field.isOptional = optional.contains pair.1

/-- The fields of an object schema are those that were declared, in the same order. -/
theorem Schema.exists_declared_of_ofFields {fields : List (Text × Spec)} {optional : List Text}
    {schema : Schema} (h : Schema.ofFields description fields optional assemble = .ok schema) :
    ∃ declared, schema = .object description declared assemble ∧
      List.Forall₂ (Field.Declared optional) (Assoc.ofPairs fields) declared := by
  obtain ⟨declared, hdeclared, rfl⟩ := Outcomes.map_ok.mp h
  refine ⟨declared, rfl, (Outcomes.mapM_ok.mp hdeclared).imp ?_⟩
  intro pair field hfield
  obtain ⟨spec, hspec, rfl⟩ := Outcomes.map_ok.mp hfield
  exact ⟨rfl, hspec, rfl⟩

namespace Assoc

variable {κ α : Type} [BEq κ] [LawfulBEq κ] {entries others : List (κ × α)}

/-- What a key leads to does not depend on the order of entries with distinct keys. -/
theorem lookup_of_perm (h : entries.Perm others) (hkeys : (keys entries).Nodup) (key : κ) :
    entries.lookup key = others.lookup key := by
  have hothers : (keys others).Nodup := (h.map Prod.fst).nodup_iff.mp hkeys
  cases hlookup : entries.lookup key with
  | some value =>
      obtain ⟨before, after, rfl, -⟩ := List.lookup_eq_some_iff.mp hlookup
      exact (lookup_of_mem hothers (h.mem_iff.mp (by simp))).symm
  | none =>
      rw [List.lookup_eq_none_iff] at hlookup
      exact (List.lookup_eq_none_iff.mpr fun entry hentry =>
        hlookup entry (h.mem_iff.mpr hentry)).symm

end Assoc

namespace Decoder

variable {content other : List (Text × Json)}

theorem present_of_perm (h : content.Perm other) (hkeys : (Assoc.keys content).Nodup)
    (declared : List Field) : present content declared = present other declared := by
  simp only [present, Assoc.lookup_of_perm h hkeys]

theorem missingKeys_of_perm (h : content.Perm other) (declared : List Field) :
    missingKeys declared content = missingKeys declared other := by
  have hkeys : ∀ key, (Assoc.keys content).contains key = (Assoc.keys other).contains key :=
    fun key => by simp only [List.contains_eq_mem, (h.map Prod.fst).mem_iff, Assoc.keys]
  simp only [missingKeys, hkeys]

theorem unknownKeys_of_perm (h : content.Perm other) (declared : List Field) :
    (unknownKeys declared content).Perm (unknownKeys declared other) :=
  (h.map Prod.fst).filter _

/-- Only in a refusal does a rule's answer show the value. -/
theorem result_ofRule_alike (description : Text) (value other : Json)
    (answer : Except Complaint Data) :
    (ofRule description value answer).result = (ofRule description other answer).result ∨
      ∃ e others, (ofRule description value answer).result = .error (.failed e) ∧
        (ofRule description other answer).result = .error (.failed others) := by
  cases answer with
  | ok data => exact .inl rfl
  | error complaint =>
      simp only [ofRule]
      split
      · exact .inr ⟨_, _, rfl, rfl⟩
      · exact .inl rfl

/-- The order of keys in an object changes failures only. -/
theorem bySchema_of_perm {step : Spec → Json → Attempt Data} {declared : List Field} {room : Nat}
    (h : content.Perm other) (hkeys : (Assoc.keys content).Nodup) :
    (bySchema registry step room (.object description declared assemble) (.object content)).result =
        (bySchema registry step room (.object description declared assemble) (.object other)).result ∨
      ∃ e others,
        (bySchema registry step room (.object description declared assemble) (.object content)).result =
          .error (.failed e) ∧
        (bySchema registry step room (.object description declared assemble) (.object other)).result =
          .error (.failed others) := by
  have hmissing := missingKeys_of_perm h declared
  have hunknown := unknownKeys_of_perm h declared
  have hdeclared :
      Decoder.declared step content declared = Decoder.declared step other declared := by
    rw [declared_eq, declared_eq, declaredParts, declaredParts, present_of_perm h hkeys]
  simp only [bySchema, object_eq, hmissing, hunknown.isEmpty_eq, hdeclared]
  split
  · exact .inl rfl
  · split
    · exact .inr ⟨_, _, rfl, rfl⟩
    · simp only [result_bind]
      cases (Decoder.declared step other declared).result with
      | error stop => exact .inl rfl
      | ok entries =>
          exact result_ofRule_alike _ _ _ _

end Decoder

/-- **Object schemas decide in a fixed order**: the kind of the value, missing keys in declared
order, unknown keys in the order of the object, then the fields that are present, in declared order
up to the first that stops, and the rule last. The order of keys in the object plays no part but for
the listing of unknown ones. What stops in a field has its key in front of the path. -/
theorem object_schemas_decide_in_order {fields : List (Text × Spec)} {optional : List Text}
    {schema : Schema} (h : Schema.ofFields description fields optional assemble = .ok schema) :
    ∃ declared : List Field,
      List.Forall₂ (Field.Declared optional) (Assoc.ofPairs fields) declared ∧
      (∀ registry step room value t, bySchema registry step room schema value = t ↔
        Verdict step description declared assemble value t) ∧
      (∀ content other : List (Text × Json), (Assoc.keys content).Nodup → content.Perm other →
        present content declared = present other declared ∧
        missingKeys declared content = missingKeys declared other ∧
        (unknownKeys declared content).Perm (unknownKeys declared other)) ∧
      (∀ (registry : Registry) room spec value, spec.DecodedBy registry schema →
        decode registry (room + 1) spec value =
          (bySchema registry (decode registry room) room schema value).framed room description
            value) ∧
      ∀ (registry : Registry) room spec value e key,
        (decode registry room spec value).result = .error (.failed e) →
          (e.locatedAt (.key key)).cause = e.cause ∧
          (e.locatedAt (.key key)).path = .key key :: e.path := by
  obtain ⟨declared, rfl, hdeclared⟩ := Schema.exists_declared_of_ofFields h
  refine ⟨declared, hdeclared, fun registry step room value t => bySchema_iff_verdict, ?_, ?_, ?_⟩
  · intro content other hkeys hperm
    exact ⟨present_of_perm hperm hkeys declared, missingKeys_of_perm hperm declared,
      unknownKeys_of_perm hperm declared⟩
  · exact fun registry room spec value hschema => decode_of_schema hschema
  · intro registry room spec value e key hfailed
    obtain ⟨inner, name, -, -, rfl⟩ := within_of_failed hfailed
    exact ⟨DecodeError.cause_locatedAt _ _, rfl⟩

/-- Of three declared keys, one of them optional, an object has two in another order, one null. -/
theorem object_schemas_decide_in_order_for_drafts :
    let fields : List (Text × Spec) :=
      [(Text.lit "title", .string), (Text.lit "editor", .any),
        (Text.lit "year", .primitive .number)]
    let value : Json := .object [(Text.lit "editor", .null), (Text.lit "title", .string [])]
    ∃ schema declared,
      Schema.ofFields (Text.lit "Draft") fields [Text.lit "year"] .ok = .ok schema ∧
      Verdict (decode .empty 2) (Text.lit "Draft") declared .ok value
        (.done (.dict [(.str (Text.lit "title"), .str []),
          (.str (Text.lit "editor"), .null)])) := by
  intro fields value
  have hschema : Schema.ofFields (Text.lit "Draft") fields [Text.lit "year"] .ok =
      .ok (.object (Text.lit "Draft") [⟨Text.lit "title", .string, false⟩,
        ⟨Text.lit "editor", .any, false⟩, ⟨Text.lit "year", .primitive .number, true⟩] .ok) := rfl
  obtain ⟨declared, -, hverdict, -⟩ := object_schemas_decide_in_order hschema
  exact ⟨_, declared, hschema, (hverdict .empty (decode .empty 2) 2 value _).mp rfl⟩

end JsonDecoding
