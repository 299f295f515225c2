import JsonDecoding.Proofs.Failures
import JsonDecoding.Proofs.Room

/-!
# Membership

The language of a specification without custom parts, said without decoding: which values belong to
it (`Member`), and which of them decode to data that can stand in a set (`DecodesHashable`).
Decoding with enough room succeeds exactly on the members and fails on all other values, for one
of three causes (`decode_ok_iff_member`).
-/

namespace JsonDecoding

/-- The values that a scalar specification stands for. -/
def Primitive.Admits : Primitive → Json → Prop
  | .boolean, value => value.tag = .boolean
  | .number, value => value.tag = .number
  | .string, value => value.tag = .string
  | .null, value => value.tag = .null
  | .any, _ => True

mutual

/-- The language of a specification; custom ones and annotations have none. -/
def Member : Spec → Json → Prop
  | .primitive kind, value => kind.Admits value
  | .bareArray, value => ∃ items, value = .array items
  | .bareObject, value => ∃ fields, value = .object fields
  | .arrayOf element, value => ∃ items, value = .array items ∧ ∀ item ∈ items, Member element item
  | .objectOf content, value =>
      ∃ fields, value = .object fields ∧ ∀ field ∈ fields, Member content field.2
  | .mapOf key content, value => key = .string ∧
      ∃ fields, value = .object fields ∧ ∀ field ∈ fields, Member content field.2
  | .setOf element, value =>
      ∃ items, value = .array items ∧
        (∀ item ∈ items, Member element item) ∧ ∀ item ∈ items, DecodesHashable element item
  | .tupleOf specs, value => ∃ items, value = .array items ∧ MemberEach specs items
  | .anyOf specs, value => MemberSome specs value
  | _, _ => False

/-- As many items as specifications, each in the language of the one at its position. -/
def MemberEach : List Spec → List Json → Prop
  | [], [] => True
  | spec :: specs, item :: items => Member spec item ∧ MemberEach specs items
  | _, _ => False

/-- The union of languages. -/
def MemberSome : List Spec → Json → Prop
  | [], _ => False
  | spec :: specs, value => Member spec value ∨ MemberSome specs value

/-- Whether what a member decodes to can stand in a set: scalars can, and tuples of such; lists,
dictionaries and sets cannot. -/
def DecodesHashable : Spec → Json → Prop
  | .primitive _, value => value.tag ≠ .array ∧ value.tag ≠ .object
  | .tupleOf specs, value => ∃ items, value = .array items ∧ DecodesHashableEach specs items
  | .anyOf specs, value => DecodesHashableFirst specs value
  | _, _ => False

/-- Whether what each item decodes to can stand in a set. -/
def DecodesHashableEach : List Spec → List Json → Prop
  | spec :: specs, item :: items => DecodesHashable spec item ∧ DecodesHashableEach specs items
  | _, _ => True

/-- Whether what the first matching alternative makes of the value can stand in a set. -/
def DecodesHashableFirst : List Spec → Json → Prop
  | [], _ => False
  | spec :: specs, value =>
      (Member spec value ∧ DecodesHashable spec value) ∨
      (¬Member spec value ∧ DecodesHashableFirst specs value)

end

/-- A bare container has the language of the container of any values. -/
theorem member_desugar (spec : Spec) (value : Json) :
    Member spec.desugar value ↔ Member spec value := by
  cases spec <;> simp [Spec.desugar, Member, Primitive.Admits]

theorem decodesHashable_desugar (spec : Spec) (value : Json) :
    DecodesHashable spec.desugar value ↔ DecodesHashable spec value := by
  cases spec <;> simp [Spec.desugar, DecodesHashable]

namespace Attempt

variable {α β : Type}

/-- An attempt decides a property: it succeeds, with a good result, where the property holds, and
fails where it does not. -/
def Decides (t : Attempt α) (holds : Prop) (good : α → Prop) : Prop :=
  (holds ∧ ∃ a, t.result = .ok a ∧ good a) ∨ (¬holds ∧ ∃ e, t.result = .error (.failed e))

namespace Decides

variable {t : Attempt α} {holds : Prop} {good : α → Prop}

theorem ok_iff (h : t.Decides holds good) : (∃ a, t.result = .ok a) ↔ holds := by
  rcases h with ⟨hholds, a, ha, -⟩ | ⟨hnot, e, he⟩
  · exact ⟨fun _ => hholds, fun _ => ⟨a, ha⟩⟩
  · simp [he, hnot]

theorem of_refuse {cause : Cause} (h : ¬holds) : (refuse cause : Attempt α).Decides holds good :=
  .inr ⟨h, _, rfl⟩

theorem of_done {a : α} (h : holds) (ha : good a) : (done a).Decides holds good :=
  .inl ⟨h, a, rfl, ha⟩

theorem imp (h : t.Decides holds good) {other : Prop} {better : α → Prop} (hiff : holds ↔ other)
    (hgood : ∀ a, holds → good a → better a) : t.Decides other better := by
  rcases h with ⟨hholds, a, ha, hga⟩ | ⟨hnot, hfailed⟩
  · exact .inl ⟨hiff.mp hholds, a, ha, hgood a hholds hga⟩
  · exact .inr ⟨mt hiff.mpr hnot, hfailed⟩

theorem map (h : t.Decides holds good) {f : α → β} {better : β → Prop}
    (hgood : ∀ a, holds → good a → better (f a)) : (t.map f).Decides holds better := by
  rcases h with ⟨hholds, a, ha, hga⟩ | ⟨hnot, e, he⟩
  · exact .inl ⟨hholds, f a, map_ok.mpr ⟨a, ha, rfl⟩, hgood a hholds hga⟩
  · exact .inr ⟨hnot, e, map_error.mpr he⟩

/-- A value that can be shown changes no decision. -/
theorem framed (h : t.Decides holds good) {room : Nat} {value : Json} (hshow : value.IsShowable room)
    (description : Text) : (t.framed room description value).Decides holds good := by
  rcases h with ⟨hholds, a, ha, hga⟩ | ⟨hnot, e, he⟩
  · exact .inl ⟨hholds, a, framed_ok.mpr ha, hga⟩
  · exact .inr ⟨hnot, _, framed_failed.mpr ⟨e, he, hshow, rfl⟩⟩

/-- A part and the parts after it decide together what they decide alone. -/
theorem cons (h : t.Decides holds good) {rest : Attempt (List β)} {others : Prop}
    {goodRest : List β → Prop} (hrest : rest.Decides others goodRest) (location : Location)
    (f : α → β) :
    ((t.located location).bind fun a => rest.map fun bs => f a :: bs).Decides (holds ∧ others)
      fun bs => ∃ a tail, bs = f a :: tail ∧ good a ∧ goodRest tail := by
  rcases h with ⟨hholds, a, ha, hga⟩ | ⟨hnot, e, he⟩
  · have hlocated : (t.located location).result = .ok a := located_ok.mpr ha
    rcases hrest with ⟨hothers, bs, hbs, hgbs⟩ | ⟨hnot, e, he⟩
    · refine .inl ⟨⟨hholds, hothers⟩, f a :: bs, ?_, a, bs, rfl, hga, hgbs⟩
      exact bind_ok.mpr ⟨a, hlocated, map_ok.mpr ⟨bs, hbs, rfl⟩⟩
    · refine .inr ⟨fun h => hnot h.2, e, ?_⟩
      exact bind_error.mpr (.inr ⟨a, hlocated, map_error.mpr he⟩)
  · refine .inr ⟨fun h => hnot h.1, e.locatedAt location, ?_⟩
    exact bind_error.mpr (.inl (located_failed.mpr ⟨e, he, rfl⟩))

end Decides

end Attempt

/-- There is a reason against a hash exactly unless something holds, and none is that a record lacks
a field. -/
structure Data.HashableIff (reason : Option Data.Unhashable) (holds : Prop) : Prop where
  iff : reason = none ↔ holds
  whole : ∀ className field, reason ≠ some (.lacking className field)

namespace Data.HashableIff

variable {reason other : Option Data.Unhashable} {holds others : Prop}

theorem of_none (h : holds) : HashableIff none holds := ⟨by simp [h], by simp⟩

theorem of_kind {name : Text} (h : ¬holds) : HashableIff (some (.kind name)) holds :=
  ⟨by simp [h], by simp⟩

theorem congr (h : HashableIff reason holds) (hiff : holds ↔ others) :
    HashableIff reason others := ⟨h.iff.trans hiff, h.whole⟩

/-- Two together have a hash where both have one. -/
theorem or (h : HashableIff reason holds) (hother : HashableIff other others) :
    HashableIff (reason.or other) (holds ∧ others) where
  iff := by rw [Option.or_eq_none_iff, h.iff, hother.iff]
  whole className field := by
    cases reason with
    | none => exact hother.whole className field
    | some => exact h.whole className field

end Data.HashableIff

namespace Decoder

open Attempt

/-- What decoding decides about a value: whether it is a member, and if so, whether it can stand in
a set. -/
abbrev Judges (spec : Spec) (value : Json) (t : Attempt Data) : Prop :=
  t.Decides (Member spec value) fun data =>
    Data.HashableIff data.unhashable? (DecodesHashable spec value)

variable {step : Spec → Json → Attempt Data}

/-! ## Containers -/

theorem elements_decides {element : Spec} {items : List Json}
    (h : ∀ item ∈ items, Judges element item (step element item)) (index : Nat) :
    (elements (step element) index items).Decides (∀ item ∈ items, Member element item)
      fun data => Data.HashableIff (Data.unhashableItem? data)
        (∀ item ∈ items, DecodesHashable element item) := by
  induction items generalizing index with
  | nil => exact .of_done (by simp) (.of_none (by simp))
  | cons item rest ih =>
      have hrest := ih (fun other hother => h other (by simp [hother])) (index + 1)
      refine ((h item (by simp)).cons hrest (.index index) id).imp (by simp) ?_
      rintro data - ⟨first, others, rfl, hfirst, hothers⟩
      exact (hfirst.or hothers).congr (by simp)

theorem entries_decides {content : Spec} {fields : List (Text × Json)}
    (h : ∀ field ∈ fields, Judges content field.2 (step content field.2)) :
    (entries (step content) fields).Decides (∀ field ∈ fields, Member content field.2)
      fun _ => True := by
  induction fields with
  | nil => exact .of_done (by simp) trivial
  | cons field rest ih =>
      obtain ⟨key, item⟩ := field
      have hrest := ih fun other hother => h other (by simp [hother])
      exact ((h (key, item) (by simp)).cons hrest (.key key) fun data => (.str key, data)).imp
        (by simp) fun _ _ _ => trivial

theorem positions_decides {specs : List Spec} {items : List Json}
    (hlength : items.length = specs.length)
    (h : ∀ (position : Nat) {spec} {item}, specs[position]? = some spec →
      items[position]? = some item → Judges spec item (step spec item)) (index : Nat) :
    (positions step index specs items).Decides (MemberEach specs items)
      fun data => Data.HashableIff (Data.unhashableItem? data)
        (DecodesHashableEach specs items) := by
  induction specs generalizing items index with
  | nil =>
      obtain rfl := List.length_eq_zero_iff.mp hlength
      exact .of_done trivial (.of_none trivial)
  | cons spec specs ih =>
      cases items with
      | nil => simp at hlength
      | cons item rest =>
          have hfirst : Judges spec item (step spec item) := h 0 rfl rfl
          have hrest := ih (by simpa using hlength) (fun position => h (position + 1)) (index + 1)
          refine (hfirst.cons hrest (.index index) id).imp (by simp [MemberEach]) ?_
          rintro data - ⟨first, others, rfl, hfirst, hothers⟩
          exact hfirst.or hothers

theorem memberEach_length {specs : List Spec} {items : List Json} (h : MemberEach specs items) :
    items.length = specs.length := by
  induction specs generalizing items with
  | nil => cases items with
    | nil => rfl
    | cons => exact h.elim
  | cons spec specs ih => cases items with
    | nil => exact h.elim
    | cons item rest => simp [ih h.2]

/-! ## Specifications -/

theorem mismatch_judges {spec : Spec} {value : Json} (h : ¬Member spec value) (expected : Text) :
    Judges spec value (mismatch expected value) := .of_refuse h

theorem judges_of_desugar {spec : Spec} {value : Json} {t : Attempt Data}
    (h : Judges spec.desugar value t) : Judges spec value t :=
  h.imp (member_desugar spec value) fun _ _ hgood =>
    hgood.congr (decodesHashable_desugar spec value)

/-- Parts that decide membership decide it for what is built of them. -/
theorem judges_map {α : Type} {t : Attempt α} {holds : Prop} {good : α → Prop}
    (h : t.Decides holds good) {build : α → Data} {spec : Spec} {value : Json}
    (hmember : holds ↔ Member spec value)
    (hbuild : ∀ a, good a →
      Data.HashableIff (build a).unhashable? (DecodesHashable spec value)) :
    Judges spec value (t.map build) :=
  (h.map fun a _ => hbuild a).imp hmember fun _ _ => id

theorem list_judges {element spec : Spec} {items : List Json}
    (h : ∀ item ∈ items, Judges element item (step element item))
    (hmember : (∀ item ∈ items, Member element item) ↔ Member spec (.array items))
    (hhashable : ¬DecodesHashable spec (.array items)) :
    Judges spec (.array items) ((elements (step element) 0 items).map .list) :=
  judges_map (elements_decides h 0) hmember fun _ _ => .of_kind hhashable

theorem dict_judges {content spec : Spec} {fields : List (Text × Json)}
    (h : ∀ field ∈ fields, Judges content field.2 (step content field.2))
    (hmember : (∀ field ∈ fields, Member content field.2) ↔ Member spec (.object fields))
    (hhashable : ¬DecodesHashable spec (.object fields)) :
    Judges spec (.object fields) ((entries (step content) fields).map .dict) :=
  judges_map (entries_decides h) hmember fun _ _ => .of_kind hhashable

/-- A scalar can stand in a set, and its kind is not that of a container. -/
theorem hashable_of_scalar {value : Json} {data : Data} (h : value.scalar? = some data) :
    data.unhashable? = none ∧ value.tag ≠ .array ∧ value.tag ≠ .object := by
  cases value with
  | number n => cases n <;> cases h <;> simp [Number.toData, Data.unhashable?, Json.tag]
  | array | object => cases h
  | _ => cases h; simp [Data.unhashable?, Json.tag]

theorem admits_iff {kind : Primitive} {tag : Tag} (h : tagOf? kind = some tag) (value : Json) :
    kind.Admits value ↔ value.tag = tag := by
  cases kind <;> cases h <;> rfl

theorem scalar_judges (kind : Primitive) (value : Json)
    (h : kind = .any → ∀ location part, value.HasPart location part →
      Judges .any part (step .any part)) :
    Judges (.primitive kind) value (scalar step kind value) := by
  unfold scalar
  split
  · next tag htag =>
      split
      · next data hdata =>
          obtain ⟨hnone, htags⟩ := hashable_of_scalar hdata
          split
          · next heq =>
              refine .of_done ((admits_iff htag value).mpr heq) ?_
              rw [hnone]
              exact .of_none htags
          · next hne => exact .of_refuse (mt (admits_iff htag value).mp hne)
      · next hnone =>
          refine mismatch_judges ?_ _
          intro hmember
          have heq : value.tag = tag := (admits_iff htag value).mp hmember
          cases kind <;> cases htag <;> cases value <;> cases heq <;> cases hnone
  · next hnone =>
      obtain rfl : kind = .any := by cases kind <;> simp_all [tagOf?]
      have hany {value : Json} : Member .any value := trivial
      split
      · refine list_judges ?_ (by simp [hany]) (by simp [DecodesHashable, Json.tag])
        intro item hitem
        obtain ⟨index, hindex⟩ := List.mem_iff_getElem?.mp hitem
        exact h rfl _ _ (.item hindex)
      · exact dict_judges (fun field hfield => h rfl _ _ (.field hfield)) (by simp [hany])
          (by simp [DecodesHashable, Json.tag])
      · next harray hobject =>
          obtain ⟨data, hdata⟩ := Json.exists_scalar? harray hobject
          obtain ⟨hunhashable, htags⟩ := hashable_of_scalar hdata
          refine .of_done hany ?_
          simp only [hdata, Option.getD_some, hunhashable]
          exact .of_none htags

theorem arrayOf_judges {element : Spec} {value : Json}
    (h : ∀ items, value = .array items → ∀ item ∈ items,
      Judges element item (step element item)) :
    Judges (.arrayOf element) value (matching step (.arrayOf element) value) := by
  simp only [matching]
  split
  · exact list_judges (h _ rfl) (by simp [Member]) id
  · next value hvalue =>
      refine mismatch_judges ?_ _
      rintro ⟨items, rfl, -⟩
      exact hvalue items rfl

theorem objectOf_judges {content : Spec} {value : Json}
    (h : ∀ fields, value = .object fields → ∀ field ∈ fields,
      Judges content field.2 (step content field.2)) :
    Judges (.objectOf content) value (matching step (.objectOf content) value) := by
  simp only [matching]
  split
  · exact dict_judges (h _ rfl) (by simp [Member]) id
  · next value hvalue =>
      refine mismatch_judges ?_ _
      rintro ⟨fields, rfl, -⟩
      exact hvalue fields rfl

/-- Keys are looked at before the kind of the value. -/
theorem mapOf_judges {key content : Spec} {value : Json}
    (h : key = .string → ∀ fields, value = .object fields → ∀ field ∈ fields,
      Judges content field.2 (step content field.2)) :
    Judges (.mapOf key content) value (matching step (.mapOf key content) value) := by
  simp only [matching]
  split
  · next hkey =>
      obtain rfl := Spec.isString_iff.mp hkey
      split
      · exact dict_judges (h rfl _ rfl) (by simp [Member]) id
      · next value hvalue =>
          refine mismatch_judges ?_ _
          rintro ⟨-, fields, rfl, -⟩
          exact hvalue fields rfl
  · next hkey => exact .of_refuse fun hmember => hkey (Spec.isString_iff.mpr hmember.1)

theorem tupleOf_judges {specs : List Spec} {value : Json}
    (h : ∀ (position : Nat) {spec} {part}, specs[position]? = some spec →
      value.HasPart (.index position) part → Judges spec part (step spec part)) :
    Judges (.tupleOf specs) value (tupleOf step specs value) := by
  unfold tupleOf
  simp only
  split
  · next items =>
      split
      · next hlength =>
          have hpositions := positions_decides hlength
            (fun position _ _ hspec hitem => h position hspec (.item hitem)) 0
          refine judges_map hpositions (by simp [Member]) ?_
          intro data hdata
          exact hdata.congr (by simp [DecodesHashable])
      · next hlength =>
          refine .of_refuse ?_
          rintro ⟨_, heq, heach⟩
          cases heq
          exact hlength (memberEach_length heach)
  · next value hvalue =>
      refine mismatch_judges ?_ _
      rintro ⟨items, rfl, -⟩
      exact hvalue items rfl

theorem setOf_refuses {spec : Spec} (hspec : spec.HasDescription) (value : Json) {items : List Data}
    {holds : Prop} (hwhole : Data.HashableIff (Data.unhashableItem? items) holds) (hnot : ¬holds) :
    ∃ cause, setOf spec value items = .refuse cause := by
  unfold setOf
  split
  · next hnone => exact (hnot (hwhole.iff.mp hnone)).elim
  · next hlacking => exact (hwhole.whole _ _ hlacking).elim
  · exact ⟨_, describable_of_hasDescription hspec _⟩

theorem setOf_judges {element : Spec} {items : List Json} (hspec : element.HasDescription)
    (h : ∀ item ∈ items, Judges element item (step element item)) :
    Judges (.setOf element) (.array items)
      ((elements (step element) 0 items).bind (setOf (.setOf element) (.array items))) := by
  have hset : (Spec.setOf element).HasDescription := hspec
  have hmember : Member (.setOf element) (.array items) ↔
      (∀ item ∈ items, Member element item) ∧ ∀ item ∈ items, DecodesHashable element item := by
    simp [Member]
  -- an array of members is left to be decided by what its items decode to
  rcases elements_decides h 0 with ⟨hall, data, hdata, hhashable⟩ | ⟨hnot, e, he⟩
  · by_cases hall' : ∀ item ∈ items, DecodesHashable element item
    · refine .inl ⟨hmember.mpr ⟨hall, hall'⟩, Data.setOf data, ?_, .of_kind id⟩
      exact bind_ok.mpr ⟨data, hdata, by simp [setOf, hhashable.iff.mpr hall', done]⟩
    · obtain ⟨cause, hcause⟩ := setOf_refuses hset (.array items) hhashable hall'
      exact .inr ⟨fun hmem => hall' (hmember.mp hmem).2, .ofCause cause,
        bind_error.mpr (.inr ⟨data, hdata, by rw [hcause]; rfl⟩)⟩
  · exact .inr ⟨fun hset => hnot (hmember.mp hset).1, e, bind_error.mpr (.inl he)⟩

/-- With specifications that can be described, a record that is left is no obstacle. -/
theorem unresolved_result {whole alternative : Spec} {e : DecodeError}
    (hwhole : whole.HasDescription) (halternative : alternative.HasDescription)
    (hcause : ∀ spec, e.cause = .unknownSpec spec → spec.HasDescription) (rest : Attempt Data) :
    (unresolved whole alternative e rest).result = rest.result := by
  cases h : e.cause with
  | unknownSpec spec =>
      simp only [unresolved, h, describable_of_hasDescription hwhole,
        describable_of_hasDescription halternative, describable_of_hasDescription (hcause spec h)]
      rfl
  | _ => simp [unresolved, h]

theorem firstOf_judges {whole : Spec} {value : Json} {alternatives : List Spec}
    (hwhole : whole.HasDescription) (hspecs : ∀ spec ∈ alternatives, spec.HasDescription)
    (hcause : ∀ spec ∈ alternatives, ∀ e, (step spec value).result = .error (.failed e) →
      ∀ unknown, e.cause = .unknownSpec unknown → unknown.HasDescription)
    (h : ∀ spec ∈ alternatives, Judges spec value (step spec value)) :
    (firstOf step whole value alternatives).Decides (MemberSome alternatives value) fun data =>
      Data.HashableIff data.unhashable? (DecodesHashableFirst alternatives value) := by
  induction alternatives with
  | nil =>
      simp only [firstOf, describable_of_hasDescription hwhole]
      exact .of_refuse id
  | cons spec rest ih =>
      have hrest := ih (fun s hs => hspecs s (by simp [hs])) (fun s hs => hcause s (by simp [hs]))
        fun s hs => h s (by simp [hs])
      simp only [firstOf]
      rcases h spec (by simp) with ⟨hmember, data, hdata, hhashable⟩ | ⟨hnot, e, he⟩
      · refine .inl ⟨.inl hmember, data, by simp [hdata], ?_⟩
        exact hhashable.congr (by simp [DecodesHashableFirst, hmember])
      · -- the alternative is passed over, and the others decide
        have hunresolved := unresolved_result hwhole (hspecs spec (by simp))
          (hcause spec (by simp) e he) (firstOf step whole value rest)
        rcases hrest with ⟨hsome, data, hdata, hhashable⟩ | ⟨hnone, failure, hfailure⟩
        · refine .inl ⟨.inr hsome, data, by simp [he, hunresolved, hdata], ?_⟩
          exact hhashable.congr (by simp [DecodesHashableFirst, hnot])
        · exact .inr ⟨by simp [MemberSome, hnot, hnone], failure, by
            simp [he, hunresolved, hfailure]⟩

/-! ## Decoding -/

/-- The causes for which a specification without custom parts refuses values: a value of another
kind, an array whose items are members but do not all decode to what can stand in a set, and a
mapping whose keys are not strings. -/
def Explains (registry : Registry) (spec : Spec) (value : Json) (path : List Location) :
    Cause → Prop
  | .typeMismatch .. => True
  | .invalid _ refused _ => ∃ element items, refused = .array items ∧
      Reaches registry spec value path (.setOf element) refused ∧
      (∀ item ∈ items, Member element item) ∧ ∃ item ∈ items, ¬DecodesHashable element item
  | .unknownSpec key => ∃ content part, key ≠ .string ∧
      Reaches registry spec value path (.mapOf key content) part
  | .missingKeys _ => False
  | .unknownKeys _ => False

variable {registry : Registry}

theorem depth_le_of_inner {spec inner : Spec} {location : Location}
    (h : spec.Inner registry location inner) (hfree : spec.CustomFree) :
    inner.depth ≤ spec.depth := by
  cases h with
  | any | bareArray | bareObject => exact Nat.le_refl _
  | arrayOf | objectOf | mapOf | setOf => exact Nat.le_succ _
  | tupleOf hspec =>
      exact Nat.le_succ_of_le (Spec.depth_le_depthAmong (List.mem_of_getElem? hspec))
  | custom => exact absurd trivial hfree.1

/-- A specification that a failure calls unknown can be described. -/
theorem cause_hasDescription {spec unknown : Spec} {value : Json} {room : Nat} {e : DecodeError}
    (hspec : spec.WellFormed) (hfree : spec.CustomFree)
    (h : (decode registry room spec value).result = .error (.failed e))
    (hcause : e.cause = .unknownSpec unknown) : unknown.HasDescription := by
  obtain ⟨_, last, part, hreaches, hrefusal⟩ := failure_origin (absurd hfree) h
  obtain ⟨hlastFree, hlast⟩ := wellFormed_of_reaches hreaches hfree hspec
  rw [hcause] at hrefusal
  cases hrefusal with
  | key =>
      exact (Spec.WellFormed.mapOf_iff.mp hlast).1.hasDescription hlastFree.2.1
  | unregistered => exact absurd trivial hlastFree.1

/-- A specification decides membership when the step does for parts and alternatives. -/
theorem matching_judges {spec : Spec} (hspec : spec.WellFormed) (hfree : spec.CustomFree)
    {value : Json}
    (hparts : ∀ {location} {inner} {part}, spec.Inner registry location inner →
      value.HasPart location part → Judges inner part (step inner part))
    (hsome : ∀ {alternatives}, spec = .anyOf alternatives → ∀ alternative ∈ alternatives,
      Judges alternative value (step alternative value) ∧
      ∀ e, (step alternative value).result = .error (.failed e) →
        ∀ unknown, e.cause = .unknownSpec unknown → unknown.HasDescription) :
    Judges spec value (matching step spec.desugar value) := by
  have hitems {element : Spec}
      (hinner : ∀ {index : Nat}, spec.Inner registry (.index index) element) :
      ∀ items, value = .array items → ∀ item ∈ items, Judges element item (step element item) := by
    rintro items rfl item hitem
    obtain ⟨index, hindex⟩ := List.mem_iff_getElem?.mp hitem
    exact hparts hinner (.item hindex)
  have hfields {content : Spec} (hinner : ∀ {key}, spec.Inner registry (.key key) content) :
      ∀ fields, value = .object fields → ∀ field ∈ fields,
        Judges content field.2 (step content field.2) := by
    rintro fields rfl field hfield
    exact hparts hinner (.field hfield)
  cases spec with
  | primitive kind =>
      refine scalar_judges kind value ?_
      rintro rfl location part hpart
      exact hparts .any hpart
  | bareArray => exact judges_of_desugar (arrayOf_judges (hitems .bareArray))
  | bareObject => exact judges_of_desugar (objectOf_judges (hfields .bareObject))
  | arrayOf element => exact arrayOf_judges (hitems .arrayOf)
  | objectOf content => exact objectOf_judges (hfields .objectOf)
  | mapOf key content =>
      refine mapOf_judges ?_
      rintro rfl
      exact hfields .mapOf
  | setOf element =>
      cases value with
      | array items => exact setOf_judges (hspec.hasDescription hfree) (hitems .setOf items rfl)
      | _ =>
          refine mismatch_judges ?_ _
          rintro ⟨items, heq, -⟩
          cases heq
  | tupleOf specs => exact tupleOf_judges fun _ _ _ hget hpart => hparts (.tupleOf hget) hpart
  | anyOf alternatives =>
      have hdescription := hspec.hasDescription hfree
      exact firstOf_judges hdescription (Spec.HasDescription.anyOf_iff.mp hdescription)
        (fun alternative hmem => (hsome rfl alternative hmem).2)
        fun alternative hmem => (hsome rfl alternative hmem).1
  | custom => exact absurd trivial hfree.1
  | _ => cases hspec

/-- **Decoding decides membership**, with room for the depths of specification and value, and where
the integers of the value can be written. -/
theorem decode_judges {spec : Spec} (hspec : spec.WellFormed) (hfree : spec.CustomFree)
    {value : Json} (hshort : value.IsShort) {room : Nat}
    (hroom : spec.depth + value.depth < room) :
    Judges spec value (decode registry room spec value) := by
  induction room generalizing spec value with
  | zero => omega
  | succ room ih =>
      rw [decode_of_not_custom hfree.head, framedBy_of_hasDescription (hspec.hasDescription hfree).desugar]
      -- a part is less deep than the value, and its specification no deeper than the whole one
      have hparts {location inner part} (hinner : spec.Inner registry location inner)
          (hpart : value.HasPart location part) :
          Judges inner part (decode registry room inner part) := by
        have hdepth := depth_le_of_inner hinner hfree
        have hpartDepth := hpart.depth_lt
        exact ih (wellFormed_of_inner hinner hfree hspec) (customFree_of_inner hinner hfree)
          (hpart.isShort hshort) (by omega)
      refine Decides.framed (matching_judges hspec hfree hparts ?_) ⟨by omega, hshort⟩ _
      -- an alternative has the whole value, but lies less deep than the union
      rintro alternatives rfl alternative hmem
      have halternative := Spec.WellFormed.anyOf_iff.mp hspec alternative hmem
      have halternativeFree := Spec.everyAmong_iff.mp hfree.2 alternative hmem
      have hdepth := Spec.depth_le_depthAmong hmem
      simp only [Spec.depth] at hroom
      exact ⟨ih halternative halternativeFree hshort (by omega),
        fun e he _ => cause_hasDescription halternative halternativeFree he⟩

/-- Items that decode, but not all to what can stand in a set, are members, and not all of them
decode to what can. -/
theorem unhashable_of_elements {element : Spec} (hspec : element.WellFormed)
    (hfree : element.CustomFree) {items : List Json} (hshort : (Json.array items).IsShort)
    {room : Nat} {data : List Data} {reason : Data.Unhashable}
    (h : (elements (decode registry room element) 0 items).result = .ok data)
    (hreason : Data.unhashableItem? data = some reason) :
    (∀ item ∈ items, Member element item) ∧ ∃ item ∈ items, ¬DecodesHashable element item := by
  -- with more room than is needed, decoding is decided and gives the same data
  let more := room + element.depth + (Json.array items).depth + 1
  have hsame : (elements (decode registry more element) 0 items).result = .ok data := by
    have hsettles := elements_settles
      (decode_settles registry (show room ≤ more by omega)) element 0 items
    rcases hsettles with hexhausted | heq
    · cases h.symm.trans hexhausted
    · exact heq ▸ h
  have hjudges (item : Json) (hitem : item ∈ items) :
      Judges element item (decode registry more element item) := by
    have hdepth := Json.depth_le_depthItems hitem
    refine decode_judges hspec hfree (Json.isShort_array.mp hshort item hitem) ?_
    simp only [more, Json.depth]
    omega
  rcases elements_decides hjudges 0 with ⟨hall, found, hfound, hhashable⟩ | ⟨-, e, he⟩
  · obtain rfl : data = found := by simpa using hsame.symm.trans hfound
    refine ⟨hall, ?_⟩
    by_contra hnone
    push Not at hnone
    simp [hhashable.iff.mpr hnone] at hreason
  · cases hsame.symm.trans he

/-- Every failure has one of the three causes. -/
theorem failure_is_explained {spec : Spec} (hspec : spec.WellFormed) (hfree : spec.CustomFree)
    {value : Json} (hshort : value.IsShort) {room : Nat} {e : DecodeError}
    (h : (decode registry room spec value).result = .error (.failed e)) :
    Explains registry spec value e.path e.cause := by
  obtain ⟨less, last, part, hreaches, hrefusal⟩ := failure_origin (absurd hfree) h
  obtain ⟨hlastFree, hlast⟩ := wellFormed_of_reaches hreaches hfree hspec
  generalize e.cause = cause at hrefusal
  cases hrefusal with
  | mismatch => trivial
  | unhashable hitems hreason =>
      have hitem := Spec.WellFormed.setOf_iff.mp hlast
      exact ⟨_, _, rfl, hreaches, unhashable_of_elements hitem hlastFree.2
        (hreaches.isShort hshort) hitems hreason⟩
  | key hkey =>
      refine ⟨_, _, ?_, hreaches⟩
      rintro rfl
      cases hkey
  | unregistered | missing | unknown | rejected => exact absurd trivial hlastFree.1

/-- **Acceptance is membership**: decoding succeeds exactly on the language of the specification,
and everything else fails for one of three causes. The integers of the value are ones that can be
written. -/
theorem decode_ok_iff_member {spec : Spec} (hspec : spec.WellFormed) (hfree : spec.CustomFree)
    {value : Json} (hshort : value.IsShort) {room : Nat} (hroom : spec.depth + value.depth < room) :
    ((∃ data, (decode registry room spec value).result = .ok data) ↔ Member spec value) ∧
    (¬Member spec value → ∃ e, (decode registry room spec value).result = .error (.failed e) ∧
      Explains registry spec value e.path e.cause) := by
  have hjudges : Judges spec value (decode registry room spec value) :=
    decode_judges hspec hfree hshort hroom
  refine ⟨hjudges.ok_iff, ?_⟩
  intro hnot
  rcases hjudges with ⟨hmember, -⟩ | ⟨-, e, he⟩
  · exact absurd hmember hnot
  · exact ⟨e, he, failure_is_explained hspec hfree hshort he⟩

/-- A set of pairs or arrays: the pair can stand in it, the array of one item cannot. -/
theorem decode_ok_iff_member_of_pairs :
    let pair : Spec := .tupleOf [.primitive .number, .string]
    let spec : Spec := .setOf (.anyOf [pair, .bareArray])
    let one : Json := .number (.int 1)
    let good : Json := .array [.array [one, .string (Text.lit "a")]]
    let bad : Json := .array [.array [one, .string (Text.lit "a")], .array [one]]
    (∃ data, (decode ⟨[]⟩ 7 spec good).result = .ok data) ∧
    ∃ e, (decode ⟨[]⟩ 7 spec bad).result = .error (.failed e) ∧
      Explains ⟨[]⟩ spec bad e.path e.cause := by
  intro pair spec one good bad
  have hspec : spec.WellFormed := rfl
  have hfree : spec.CustomFree := by
    simp [spec, pair, Spec.CustomFree, Spec.Every, Spec.EveryAmong, Spec.IsCustom]
  have hgood : good.IsShort := by decide
  have hbad : bad.IsShort := by decide
  constructor
  · refine (decode_ok_iff_member hspec hfree hgood (by decide)).1.mpr ?_
    simp [spec, pair, good, one, Member, MemberSome, MemberEach, DecodesHashable,
      DecodesHashableFirst, DecodesHashableEach, Primitive.Admits, Json.tag]
  · refine (decode_ok_iff_member hspec hfree hbad (by decide)).2 ?_
    simp [spec, pair, bad, one, Member, MemberSome, MemberEach, DecodesHashable,
      DecodesHashableFirst]

end Decoder

end JsonDecoding
