import JsonDecoding.Proofs.Course
import JsonDecoding.Proofs.Places
import JsonDecoding.Proofs.Recipe
import JsonDecoding.Proofs.Room
import JsonDecoding.Proofs.Subspecs

/-!
# Termination

Decoding ends, however the schemas refer to each other. A decoding leads to others: of parts of its
value by any specifications, or of the same value by the alternatives of a union. So the depth of
the value, and then the depth of the specification, gets smaller from each decoding to those inside
it (`weight_lt_of_nested`), and for every specification and value there is room enough
(`exists_finishing_room`).
-/

namespace JsonDecoding

open Attempt Decoder

/-! ## The decodings inside a decoding -/

/-- The decodings that a course leads to, unless a handler determines them. -/
def Course.calls (value : Json) : Course → List (Spec × Json)
  | .parts members _ => members.map fun part => (part.spec, part.value)
  | .alternatives _ specs => specs.map fun spec => (spec, value)
  | _ => []

/-- A course that is not determined by a handler. -/
def Course.IsStructural : Course → Prop
  | .delegated .. => False
  | .scripted _ => False
  | _ => True

/-- The decodings that decoding a value by a specification leads to. -/
def nested (registry : Registry) (spec : Spec) (value : Json) : List (Spec × Json) :=
  (course registry spec value).calls value

/-- What gets smaller from a decoding to those inside it: the depth of the value, and where it stays
the same, the depth of the specification. -/
def weight (spec : Spec) (value : Json) : Nat × Nat := (value.depth, spec.depth)

/-- A lesser value, or the same one with a lesser specification. -/
abbrev Lighter : Nat × Nat → Nat × Nat → Prop := Prod.Lex (· < ·) (· < ·)

theorem wellFounded_lighter : WellFounded Lighter :=
  (Prod.lex ⟨(· < ·), Nat.lt_wfRel.wf⟩ ⟨(· < ·), Nat.lt_wfRel.wf⟩).wf

namespace Decoder

variable {step other : Spec → Json → Attempt Data}

theorem firstOf_congr {whole : Spec} {value : Json} {specs : List Spec}
    (h : ∀ spec ∈ specs, other spec value = step spec value) :
    firstOf other whole value specs = firstOf step whole value specs := by
  induction specs with
  | nil => rfl
  | cons spec rest ih =>
      have hrest := ih fun spec hmem => h spec (List.mem_cons_of_mem _ hmem)
      rw [firstOf, firstOf, h spec (List.mem_cons_self ..), hrest]

/-- **Nothing else is decoded**: the outcome of a course depends on the decodings that it leads to
only. -/
theorem follow_congr {registry : Registry} {c : Course} {value : Json} (hown : c.IsStructural)
    (h : ∀ call ∈ c.calls value, other call.1 call.2 = step call.1 call.2) (room : Nat) :
    c.follow registry other room value = c.follow registry step room value := by
  cases c with
  | settled => rfl
  | parts members finish =>
      have hattempts : members.map (Part.attempt other) = members.map (Part.attempt step) := by
        refine List.map_congr_left fun part hpart => ?_
        rw [Part.attempt, Part.attempt, h _ (List.mem_map_of_mem hpart)]
      rw [Course.follow, Course.follow, hattempts]
  | alternatives whole specs =>
      exact firstOf_congr fun spec hspec => h _ (List.mem_map_of_mem hspec)
  | delegated | scripted => exact hown.elim

end Decoder

/-! ## Lesser decodings -/

namespace Part

variable {part : Part}

theorem hasPart_of_items {element : Spec} {items : List Json} (h : part ∈ ofItems element items) :
    (Json.array items).HasPart part.location part.value := by
  obtain ⟨item, hitem, rfl⟩ := List.mem_map.mp h
  exact .item (List.mem_zipIdx_iff_getElem?.mp hitem)

theorem hasPart_of_fields {content : Spec} {fields : List (Text × Json)}
    (h : part ∈ ofFields content fields) :
    (Json.object fields).HasPart part.location part.value := by
  obtain ⟨field, hfield, rfl⟩ := List.mem_map.mp h
  exact .field hfield

theorem hasPart_of_positions {specs : List Spec} {items : List Json}
    (h : part ∈ ofPositions specs items) :
    (Json.array items).HasPart part.location part.value := by
  obtain ⟨pair, hpair, rfl⟩ := List.mem_map.mp h
  have hzip := List.mem_zipIdx_iff_getElem?.mp hpair
  rw [List.getElem?_zip_eq_some] at hzip
  exact .item hzip.2

theorem hasPart_of_declared {fields : List Field} {content : List (Text × Json)}
    (h : part ∈ ofDeclared fields content) :
    (Json.object content).HasPart part.location part.value := by
  obtain ⟨⟨field, item⟩, hpart, rfl⟩ := List.mem_map.mp h
  -- what is looked up is the value of one of the fields
  obtain ⟨before, after, rfl, -⟩ := List.lookup_eq_some_iff.mp (mem_present.mp hpart).2
  exact .field (by simp)

end Part

/-- The parts that a course decodes are parts of the value. -/
def Course.Splits (value : Json) : Course → Prop
  | .parts members _ => ∀ part ∈ members, value.HasPart part.location part.value
  | _ => True

namespace Course

variable {spec : Spec} {value : Json}

theorem IsOfSpec.splits {c : Course} (h : IsOfSpec spec value c) : c.Splits value := by
  cases h with
  | items _ hvalue | distinct _ hvalue =>
      subst hvalue
      exact fun part => Part.hasPart_of_items
  | fields _ hvalue =>
      subst hvalue
      exact fun part => Part.hasPart_of_fields
  | positions _ hvalue =>
      subst hvalue
      exact fun part => Part.hasPart_of_positions
  | alternatives | settled => trivial

theorem IsOfSchema.splits {schema : Schema} {c : Course} (h : IsOfSchema schema value c) :
    c.Splits value := by
  cases h with
  | object _ hvalue =>
      subst hvalue
      exact fun part => Part.hasPart_of_declared
  | array _ hvalue =>
      subst hvalue
      exact fun part => Part.hasPart_of_items
  | delegated | scripted | settled => trivial

theorem IsOfSpec.isStructural {c : Course} (h : IsOfSpec spec value c) : c.IsStructural := by
  cases h <;> trivial

theorem IsOfSchema.isStructural {schema : Schema} (hraw : ¬schema.IsRaw) {c : Course}
    (h : IsOfSchema schema value c) : c.IsStructural := by
  cases h with
  | object | array | settled => trivial
  | delegated hschema | scripted hschema =>
      subst hschema
      exact (hraw trivial).elim

end Course

theorem course_splits (registry : Registry) (spec : Spec) (value : Json) :
    (course registry spec value).Splits value := by
  have h := isCourse registry spec value
  generalize course registry spec value = c at h ⊢
  cases h with
  | unregistered | failed => trivial
  | schema _ _ _ h => exact h.splits
  | plain _ h => exact h.splits

/-- Alternatives are tried by a union only, and none but its own. -/
theorem eq_anyOf_of_course {registry : Registry} {spec whole : Spec} {value : Json}
    {specs : List Spec} (h : course registry spec value = .alternatives whole specs) :
    spec = .anyOf specs := by
  have hcourse := isCourse registry spec value
  rw [h] at hcourse
  cases hcourse with
  | schema _ _ _ hschema => cases hschema
  | plain _ hspec =>
      cases hspec with
      | alternatives hunion =>
          -- only bare containers are not what they stand for
          cases spec <;> simp_all [Spec.desugar]

/-- With schemas made by recipes no course is determined by a handler. -/
theorem course_isStructural {registry : Registry} (hmade : registry.IsMade) (spec : Spec)
    (value : Json) : (course registry spec value).IsStructural := by
  have h := isCourse registry spec value
  generalize course registry spec value = c at h ⊢
  cases h with
  | unregistered | failed => trivial
  | schema _ hresolve hcall h => exact h.isStructural (hmade.not_raw hresolve hcall)
  | plain _ h => exact h.isStructural

/-- **Every decoding inside another is lighter**: that of a part, whatever it is decoded by, as the
part is less deep, and that of an alternative, as it lies inside the union. -/
theorem weight_lt_of_nested {registry : Registry} (hmade : registry.IsMade) (spec : Spec)
    (value : Json) : ∀ call ∈ nested registry spec value,
      Lighter (weight call.1 call.2) (weight spec value) := by
  intro call hcall
  have hsplits := course_splits registry spec value
  have hown := course_isStructural hmade spec value
  unfold nested at hcall
  cases hcourse : course registry spec value with
  | settled outcome =>
      rw [hcourse] at hcall
      cases hcall
  | parts members finish =>
      rw [hcourse] at hcall hsplits
      obtain ⟨part, hpart, rfl⟩ := List.mem_map.mp hcall
      exact .left _ _ (hsplits part hpart).depth_lt
  | alternatives whole specs =>
      rw [hcourse] at hcall
      obtain ⟨alternative, hmem, rfl⟩ := List.mem_map.mp hcall
      obtain rfl := eq_anyOf_of_course hcourse
      exact .right _ (Nat.lt_succ_of_le (Spec.depth_le_depthAmong hmem))
  | delegated | scripted =>
      rw [hcourse] at hown
      exact hown.elim

/-! ## Room enough -/

namespace Attempt

variable {α β : Type}

/-- An attempt does not run out of room. -/
def Finishes (t : Attempt α) : Prop := t.result ≠ .error .exhausted

namespace Finishes

variable {t : Attempt α}

theorem of_done (a : α) : (Attempt.done a).Finishes := by simp [Finishes, Attempt.done]

theorem of_refuse (cause : Cause) : (Attempt.refuse cause : Attempt α).Finishes := by
  simp [Finishes, Attempt.refuse, stopped]

theorem of_fault (fault : Fault) : (Attempt.fault fault : Attempt α).Finishes := by
  simp [Finishes, Attempt.fault, stopped]

theorem ofRule (description : Text) (value : Json) (answer : Except Complaint Data) :
    (Attempt.ofRule description value answer).Finishes := by
  unfold Attempt.ofRule
  split
  · exact of_done _
  · split
    · exact of_refuse _
    · exact of_fault _

theorem bind (h : t.Finishes) {next : α → Attempt β} (hnext : ∀ a, (next a).Finishes) :
    (t.bind next).Finishes := by
  intro hexhausted
  rcases bind_error.mp hexhausted with ht | ⟨a, -, ha⟩
  · exact h ht
  · exact hnext a ha

theorem map (h : t.Finishes) (f : α → β) : (t.map f).Finishes :=
  fun hexhausted => h (map_error.mp hexhausted)

theorem located (h : t.Finishes) (location : Location) : (t.located location).Finishes := by
  obtain ⟨log, result⟩ := t
  rcases result with ⟨_ | _ | _⟩ | _ <;> simp_all [Finishes, Attempt.located, Except.mapError]

/-- A heading takes as much room as the value is deep. -/
theorem headed {t : Attempt Data} (h : t.Finishes) {room : Nat} {value : Json}
    (hdepth : value.depth ≤ room) (heading : Except Spec.Flaw Text) :
    (t.headed room heading value).Finishes := by
  have hshown (description e) : shownAs room description value e ≠ .exhausted := by
    unfold shownAs
    cases hunshown : unshown? room value with
    | none => simp
    | some stop =>
        rintro rfl
        exact unshown?_ne_exhausted hdepth hunshown
  obtain ⟨log, result⟩ := t
  cases heading <;> rcases result with ⟨_ | _ | _⟩ | _ <;>
    simp_all [Finishes, Attempt.headed, framed, Except.mapError]

theorem inOrder {parts : List (Location × Attempt α)} (h : ∀ part ∈ parts, part.2.Finishes) :
    (Attempt.inOrder parts).Finishes := by
  induction parts with
  | nil => exact of_done _
  | cons part rest ih =>
      have hrest := ih fun other hmem => h other (List.mem_cons_of_mem _ hmem)
      exact ((h part (List.mem_cons_self ..)).located _).bind fun a => hrest.map _

theorem describable {t : Attempt Data} (h : t.Finishes) (spec : Spec) :
    (Decoder.describable spec t).Finishes := by
  unfold Decoder.describable
  split
  · exact h
  · exact of_fault _

theorem unresolved {t : Attempt Data} (h : t.Finishes) (whole alternative : Spec)
    (e : DecodeError) : (Decoder.unresolved whole alternative e t).Finishes := by
  cases hcause : e.cause with
  | unknownSpec spec =>
      have hafter {records} : (t.after records).Finishes := h
      simp only [Decoder.unresolved, hcause]
      exact ((hafter.describable _).describable _).describable _
  | _ =>
      simp only [Decoder.unresolved, hcause]
      exact h

end Finishes

end Attempt

namespace Decoder

variable {step : Spec → Json → Attempt Data} {value : Json}

theorem firstOf_finishes {whole : Spec} {specs : List Spec}
    (h : ∀ spec ∈ specs, (step spec value).Finishes) :
    (firstOf step whole value specs).Finishes := by
  induction specs with
  | nil => exact (Finishes.of_refuse _).describable _
  | cons spec rest ih =>
      have hrest := ih fun other hmem => h other (List.mem_cons_of_mem _ hmem)
      have hfirst := h spec (List.mem_cons_self ..)
      simp only [firstOf]
      split
      · exact hrest.unresolved _ _ _
      · exact hfirst

end Decoder

/-- A course that ends where it leads to nothing else, and where all parts have decoded. -/
def Course.Ends (room : Nat) : Course → Prop
  | .settled outcome => (outcome room).Finishes
  | .parts _ finish => ∀ data, (finish data).Finishes
  | .alternatives .. => True
  | .delegated .. => False
  | .scripted _ => False

namespace Course

variable {registry : Registry} {step : Spec → Json → Attempt Data} {room : Nat} {value : Json}

/-- A course finishes when the decodings that it leads to do. -/
theorem follow_finishes {c : Course} (hends : c.Ends room)
    (h : ∀ call ∈ c.calls value, (step call.1 call.2).Finishes) :
    (c.follow registry step room value).Finishes := by
  cases c with
  | settled => exact hends
  | parts members finish =>
      refine Finishes.bind (.inOrder fun attempt hattempt => ?_) hends
      obtain ⟨part, hpart, rfl⟩ := List.mem_map.mp hattempt
      exact h _ (List.mem_map_of_mem hpart)
  | alternatives whole specs =>
      exact firstOf_finishes fun spec hspec => h _ (List.mem_map_of_mem hspec)
  | delegated | scripted => exact hends.elim

theorem EndOfSpec.finishes {spec : Spec} {t : Attempt Data} (h : EndOfSpec spec value t) :
    t.Finishes := by
  cases h with
  | scalar => exact .of_done _
  | stray => exact .of_fault _
  | _ => exact .of_refuse _

theorem EndOfSchema.finishes {schema : Schema} {t : Attempt Data} (h : EndOfSchema schema value t) :
    t.Finishes := by
  cases h with
  | scalar => exact .ofRule _ _ _
  | stray => exact .of_fault _
  | _ => exact .of_refuse _

/-- What a specification does with a value of which it decodes no part ends. -/
theorem IsOfSpec.ends {spec : Spec} {c : Course} (h : IsOfSpec spec value c) : c.Ends room := by
  cases h with
  | items | fields | positions => exact fun data => .of_done _
  | distinct =>
      intro data
      unfold Decoder.setOf
      split
      · exact .of_done _
      · exact .of_fault _
      · exact (Finishes.of_refuse _).describable _
  | alternatives => trivial
  | settled hend => exact (hend room).finishes

theorem IsOfSchema.ends {schema : Schema} (hraw : ¬schema.IsRaw) {c : Course}
    (h : IsOfSchema schema value c) : c.Ends room := by
  cases h with
  | object | array => exact fun data => .ofRule _ _ _
  | delegated hschema | scripted hschema =>
      subst hschema
      exact (hraw trivial).elim
  | settled hend => exact (hend room).finishes

end Course

namespace Decoder

variable {registry : Registry}

theorem course_ends (hmade : registry.IsMade) (spec : Spec) (value : Json) (room : Nat) :
    (course registry spec value).Ends room := by
  have h := isCourse registry spec value
  generalize course registry spec value = c at h ⊢
  cases h with
  | unregistered => exact .of_refuse _
  | failed => exact .of_fault _
  | schema _ hresolve hcall h => exact h.ends (hmade.not_raw hresolve hcall)
  | plain _ h => exact h.ends

/-- A decoding that does not run out of room does not so with more room. -/
theorem finishes_of_le {spec : Spec} {value : Json} {room more : Nat} (hroom : room ≤ more)
    (h : (decode registry room spec value).Finishes) :
    (decode registry more spec value).Finishes := by
  rw [decode_of_le hroom h]
  exact h

/-- Room enough for each of some decodings is room enough for all. -/
theorem exists_common_room {calls : List (Spec × Json)}
    (h : ∀ call ∈ calls, ∃ room, (decode registry room call.1 call.2).Finishes) :
    ∃ room, ∀ call ∈ calls, (decode registry room call.1 call.2).Finishes := by
  induction calls with
  | nil => exact ⟨0, by simp⟩
  | cons call rest ih =>
      obtain ⟨room, hroom⟩ := h call (List.mem_cons_self ..)
      obtain ⟨more, hmore⟩ := ih fun other hmem => h other (List.mem_cons_of_mem _ hmem)
      refine ⟨max room more, fun other hother => ?_⟩
      rcases List.mem_cons.mp hother with rfl | hrest
      · exact finishes_of_le (Nat.le_max_left _ _) hroom
      · exact finishes_of_le (Nat.le_max_right _ _) (hmore other hrest)

/-- **There is room enough** for every specification and value, by induction on their weight. -/
theorem exists_finishing_room (hmade : registry.IsMade) (spec : Spec) (value : Json) :
    ∃ room, (decode registry room spec value).Finishes := by
  induction hweight : weight spec value using wellFounded_lighter.induction
    generalizing spec value with
  | _ w ih =>
    subst hweight
    have hlighter := weight_lt_of_nested hmade spec value
    obtain ⟨room, hroom⟩ := exists_common_room fun call hcall => ih _ (hlighter call hcall) _ _ rfl
    have hdepth : value.depth ≤ max room value.depth := Nat.le_max_right _ _
    refine ⟨max room value.depth + 1, ?_⟩
    rw [decode_eq_follow]
    have hends := course_ends hmade spec value (max room value.depth)
    refine (Course.follow_finishes hends fun call hcall => ?_).headed hdepth _
    exact finishes_of_le (Nat.le_max_left _ _) (hroom call hcall)

/-- **Decoding terminates** with schemas made by recipes, whatever they refer to: every decoding
inside another is lighter, and weights are well-founded; the outcome depends on no other decodings;
and with room enough there is an outcome, which more room does not change. -/
theorem decoding_terminates (hmade : registry.IsMade) :
    WellFounded Lighter ∧
    ∀ (spec : Spec) (value : Json),
      (∀ call ∈ nested registry spec value,
        Lighter (weight call.1 call.2) (weight spec value)) ∧
      (∀ (room : Nat) (other : Spec → Json → Attempt Data),
        (∀ call ∈ nested registry spec value,
          other call.1 call.2 = decode registry room call.1 call.2) →
        decode registry (room + 1) spec value =
          ((course registry spec value).follow registry other room value).headed room
            (heading registry spec) value) ∧
      ∃ room, (decode registry room spec value).result ≠ .error .exhausted ∧
        ∀ more, room ≤ more →
          decode registry more spec value = decode registry room spec value := by
  refine ⟨wellFounded_lighter, fun spec value =>
    ⟨weight_lt_of_nested hmade spec value, fun room other hother => ?_, ?_⟩⟩
  · rw [decode_eq_follow, follow_congr (course_isStructural hmade spec value) hother]
  · obtain ⟨room, hroom⟩ := exists_finishing_room hmade spec value
    exact ⟨room, hroom, fun more hmore => decode_of_le hmore hroom⟩

/-- A tower of boxes: the argument of the box grows with every box inside a box. -/
theorem decoding_terminates_for_towers :
    let tower : Spec := .symbol (Text.lit "Tower") []
    let element : List Spec → Spec := fun arguments =>
      .anyOf [.string, .custom tower [.tupleOf (arguments ++ arguments)]]
    let build : List Spec → Except Fault Schema := fun arguments =>
      Schema.ofElement (Text.lit "Tower") (element arguments) .ok
    let registry : Registry := ⟨[(tower, ⟨build, 1, [.any], Text.lit "Tower"⟩)]⟩
    let value : Json := .array [.array [.array [], .string []]]
    registry.IsMade ∧
    nested registry (.custom tower []) value =
      [(.anyOf [.string, .custom tower [.tupleOf [.any, .any]]], .array [.array [], .string []])] ∧
    ∃ room, (decode registry room (.custom tower []) value).result ≠ .error .exhausted := by
  intro tower element build registry value
  have hmade : registry.IsMade := by
    intro entry hentry arguments schema hschema
    obtain rfl := List.mem_singleton.mp hentry
    exact ⟨.array (Text.lit "Tower") (element arguments) .ok, hschema⟩
  obtain ⟨-, -, room, hroom, -⟩ := (decoding_terminates hmade).2 (.custom tower []) value
  exact ⟨hmade, rfl, room, hroom⟩

end Decoder

end JsonDecoding
