import JsonDecoding.Proofs.EqualData
import JsonDecoding.Proofs.Places

/-!
# Reordered values

Two values may differ in the order of object keys only, at any depth (`Json.Reordered`). Then arrays
have parts that are reorderings of each other at each index, and objects have them under each key
(`Json.Like.cases`), which is all that decoding can tell of them.
-/

namespace JsonDecoding

namespace Json

/-- Values that differ in the order of object keys only, at any depth. -/
inductive Reordered : Json → Json → Prop where
  | scalar {value : Json} {data : Data} (h : value.scalar? = some data) : Reordered value value
  | array {items others : List Json} (hlength : items.length = others.length)
      (h : ∀ (index : Nat) (item other : Json), items[index]? = some item →
        others[index]? = some other → Reordered item other) :
      Reordered (.array items) (.array others)
  | object {fields others : List (Text × Json)}
      (hkeys : (Assoc.keys fields).Perm (Assoc.keys others))
      (h : ∀ (key : Text) (value other : Json), (key, value) ∈ fields → (key, other) ∈ others →
        Reordered value other) :
      Reordered (.object fields) (.object others)

/-- Two fields of an object may change places. -/
theorem Reordered.swap {first second : Text} (hne : first ≠ second) {a b c d : Json}
    (hfirst : Reordered a c) (hsecond : Reordered b d) :
    Reordered (.object [(first, a), (second, b)]) (.object [(second, d), (first, c)]) := by
  refine .object (.swap _ _ _) fun key value other hvalue hother => ?_
  simp only [List.mem_cons, Prod.mk.injEq, List.not_mem_nil, or_false] at hvalue hother
  rcases hvalue with ⟨rfl, rfl⟩ | ⟨rfl, rfl⟩
  · rcases hother with ⟨hkey, -⟩ | ⟨-, rfl⟩
    · exact (hne hkey).elim
    · exact hfirst
  · rcases hother with ⟨-, rfl⟩ | ⟨hkey, -⟩
    · exact hsecond
    · exact (hne hkey.symm).elim

namespace Reordered

theorem symm {value other : Json} (h : Reordered value other) : Reordered other value := by
  induction h with
  | scalar hdata => exact .scalar hdata
  | array hlength _ ih =>
      exact .array hlength.symm fun index item other hitem hother => ih index _ _ hother hitem
  | object hkeys _ ih =>
      exact .object hkeys.symm fun key value other hvalue hother => ih key _ _ hother hvalue

/-- Reordering a value makes no integer longer. -/
theorem isShort {value other : Json} (h : Reordered value other) (hshort : value.IsShort) :
    other.IsShort := by
  induction h with
  | scalar => exact hshort
  | @array items others hlength _ ih =>
      refine isShort_array.mpr fun item hitem => ?_
      obtain ⟨index, hindex, rfl⟩ := List.mem_iff_getElem.mp hitem
      have hbound : index < items.length := hlength ▸ hindex
      exact ih index _ _ (List.getElem?_eq_getElem hbound) (List.getElem?_eq_getElem hindex)
        (isShort_array.mp hshort _ (List.getElem_mem hbound))
  | @object fields others hkeys _ ih =>
      refine isShort_object.mpr fun field hfield => ?_
      obtain ⟨⟨key, value⟩, hvalue, hkey⟩ :=
        List.mem_map.mp (hkeys.mem_iff.mpr (List.mem_map_of_mem hfield))
      obtain rfl : key = field.1 := hkey
      exact ih _ _ _ hvalue hfield (isShort_object.mp hshort _ hvalue)

end Reordered

namespace KeysDistinct

theorem of_item {items : List Json} (h : (array items).KeysDistinct) {item : Json}
    (hitem : item ∈ items) : item.KeysDistinct := KeysDistinctItems.of_mem h hitem

theorem of_field {fields : List (Text × Json)} (h : (object fields).KeysDistinct)
    {field : Text × Json} (hfield : field ∈ fields) : field.2.KeysDistinct :=
  KeysDistinctFields.of_mem h.2 hfield

/-- Two fields of different keys make an object. -/
theorem pair {first second : Text} (hne : first ≠ second) {a b : Json} (ha : a.KeysDistinct)
    (hb : b.KeysDistinct) : (object [(first, a), (second, b)]).KeysDistinct :=
  ⟨by simpa [Assoc.keys] using hne, ha, hb, trivial⟩

/-- The value under a key is the only one. -/
theorem eq_of_field {fields : List (Text × Json)} (h : (object fields).KeysDistinct) {key : Text}
    {value other : Json} (hvalue : (key, value) ∈ fields) (hother : (key, other) ∈ fields) :
    value = other := by
  have hfirst := Assoc.lookup_of_mem h.1 hvalue
  rw [Assoc.lookup_of_mem h.1 hother] at hfirst
  exact (Option.some.inj hfirst).symm

/-- A value is a reordering of itself. -/
theorem reordered_self {value : Json} (h : value.KeysDistinct) : Reordered value value := by
  induction hdepth : value.depth using Nat.strong_induction_on generalizing value with
  | _ n ih =>
    subst hdepth
    cases value with
    | array items =>
        refine .array rfl fun index item other hitem hother => ?_
        obtain rfl := Option.some.inj (hitem.symm.trans hother)
        have hmem := List.mem_of_getElem? hitem
        exact ih _ (Nat.lt_succ_of_le (depth_le_depthItems hmem)) (h.of_item hmem) rfl
    | object fields =>
        refine .object .rfl fun key value other hvalue hother => ?_
        obtain rfl := h.eq_of_field hvalue hother
        exact ih _ (Nat.lt_succ_of_le (depth_le_depthFields hvalue)) (h.of_field hvalue) rfl
    | null | boolean | number | string => exact .scalar rfl

end KeysDistinct

/-! ## Reordered values as decoding sees them -/

/-- Values that are reorderings of each other and have no key twice in one object. -/
structure Like (value other : Json) : Prop where
  reordered : Reordered value other
  keysDistinct : value.KeysDistinct
  keysDistinctOther : other.KeysDistinct

/-- Fields of the same keys, with values that are reorderings of each other under each key. -/
structure FieldsLike (fields others : List (Text × Json)) : Prop where
  keys : (Assoc.keys fields).Perm (Assoc.keys others)
  distinct : (Assoc.keys fields).Nodup
  values : ∀ {key : Text} {value other : Json}, (key, value) ∈ fields → (key, other) ∈ others →
    Like value other

theorem Like.symm {value other : Json} (h : Like value other) : Like other value :=
  ⟨h.reordered.symm, h.keysDistinctOther, h.keysDistinct⟩

theorem Like.refl {value : Json} (h : value.KeysDistinct) : Like value value :=
  ⟨h.reordered_self, h, h⟩

theorem FieldsLike.exists_other {fields others : List (Text × Json)} (h : FieldsLike fields others)
    {field : Text × Json} (hfield : field ∈ fields) :
    ∃ other, (field.1, other) ∈ others ∧ Like field.2 other := by
  have hkey : field.1 ∈ Assoc.keys others := h.keys.mem_iff.mp (List.mem_map_of_mem hfield)
  obtain ⟨⟨_, other⟩, hother, rfl⟩ := List.mem_map.mp hkey
  exact ⟨other, hother, h.values hfield hother⟩

theorem FieldsLike.exists_field {fields others : List (Text × Json)} (h : FieldsLike fields others)
    {other : Text × Json} (hother : other ∈ others) :
    ∃ value, (other.1, value) ∈ fields ∧ Like value other.2 := by
  have hkey : other.1 ∈ Assoc.keys fields := h.keys.mem_iff.mpr (List.mem_map_of_mem hother)
  obtain ⟨⟨_, value⟩, hvalue, heq⟩ := List.mem_map.mp hkey
  obtain rfl : _ = other.1 := heq
  exact ⟨value, hvalue, h.values hvalue hother⟩

/-- A key leads to reorderings of each other, or to nothing on both sides. -/
theorem FieldsLike.lookup {fields others : List (Text × Json)} (h : FieldsLike fields others)
    (key : Text) :
    (fields.lookup key = none ∧ others.lookup key = none) ∨
      ∃ value other, fields.lookup key = some value ∧ others.lookup key = some other ∧
        Like value other := by
  have hmem {entries : List (Text × Json)} {value : Json}
      (hlookup : entries.lookup key = some value) : (key, value) ∈ entries := by
    obtain ⟨before, after, rfl, -⟩ := List.lookup_eq_some_iff.mp hlookup
    simp
  cases hvalue : fields.lookup key with
  | none =>
      cases hother : others.lookup key with
      | none => exact .inl ⟨rfl, rfl⟩
      | some other =>
          obtain ⟨value, hfield, -⟩ := h.exists_field (hmem hother)
          have hfound := Assoc.lookup_of_mem h.distinct hfield
          rw [hvalue] at hfound
          cases hfound
  | some value =>
      obtain ⟨other, hother, hlike⟩ := h.exists_other (hmem hvalue)
      have hdistinct : (Assoc.keys others).Nodup := h.keys.nodup_iff.mp h.distinct
      exact .inr ⟨value, other, rfl, Assoc.lookup_of_mem hdistinct hother, hlike⟩

/-- **What reordered values have in common**: they are one scalar, or arrays of reordered items, or
objects of reordered fields. -/
theorem Like.cases {value other : Json} (h : Like value other) :
    (value = other ∧ ∃ data, value.scalar? = some data) ∨
    (∃ items others, value = .array items ∧ other = .array others ∧
      List.Forall₂ Like items others) ∨
    (∃ fields others, value = .object fields ∧ other = .object others ∧
      FieldsLike fields others) := by
  obtain ⟨hreordered, hvalue, hother⟩ := h
  cases hreordered with
  | scalar hdata => exact .inl ⟨rfl, _, hdata⟩
  | @array items others hlength hitems =>
      refine .inr (.inl ⟨items, others, rfl, rfl, List.forall₂_iff_get.mpr ⟨hlength, ?_⟩⟩)
      intro index hindex hindex'
      exact ⟨hitems index _ _ (List.getElem?_eq_getElem hindex) (List.getElem?_eq_getElem hindex'),
        hvalue.of_item (List.getElem_mem _), hother.of_item (List.getElem_mem _)⟩
  | @object fields others hkeys hfields =>
      exact .inr (.inr ⟨fields, others, rfl, rfl, hkeys, hvalue.1,
        fun hfield hfield' =>
          ⟨hfields _ _ _ hfield hfield', hvalue.of_field hfield, hother.of_field hfield'⟩⟩)

theorem Like.exists_items {value : Json} {others : List Json} (h : Like value (.array others)) :
    ∃ items, value = .array items ∧ List.Forall₂ Like items others := by
  rcases h.cases with ⟨rfl, _, hdata⟩ | ⟨items, _, rfl, hothers, hitems⟩ | ⟨_, _, -, hothers, -⟩
  · cases hdata
  · cases hothers
    exact ⟨items, rfl, hitems⟩
  · cases hothers

theorem Like.exists_fields {value : Json} {others : List (Text × Json)}
    (h : Like value (.object others)) :
    ∃ fields, value = .object fields ∧ FieldsLike fields others := by
  rcases h.cases with ⟨rfl, _, hdata⟩ | ⟨_, _, -, hothers, -⟩ | ⟨fields, _, rfl, hothers, hfields⟩
  · cases hdata
  · cases hothers
  · cases hothers
    exact ⟨fields, rfl, hfields⟩

theorem Like.itemsLike {items others : List Json} (h : Like (.array items) (.array others)) :
    List.Forall₂ Like items others := by
  obtain ⟨_, heq, hitems⟩ := h.exists_items
  cases heq
  exact hitems

theorem Like.fieldsLike {fields others : List (Text × Json)}
    (h : Like (.object fields) (.object others)) : FieldsLike fields others := by
  obtain ⟨_, heq, hfields⟩ := h.exists_fields
  cases heq
  exact hfields

end Json

/-! ## Scalars -/

variable {frozen : Text → Bool}

/-- A number equals itself. -/
theorem Data.same_of_quantity {data : Data} {q : Data.Quantity} (h : data.quantity? = some q) :
    data.same data = true := by
  have hsame : sameQuantity data data = true := by
    refine sameQuantity_iff.mpr ⟨q, q, h, h, ?_⟩
    cases q <;> simp [Quantity.same]
  cases data with
  | bool | int | float | decimal | nonFinite => simpa only [same] using hsame
  | _ => cases h

theorem Json.tag_of_scalar {value : Json} {data : Data} (hdata : value.scalar? = some data) :
    value.tag ≠ .array ∧ value.tag ≠ .object := by
  cases value <;> first | cases hdata; simp [Json.tag] | cases hdata

/-- The data of a scalar is made of no other data. -/
theorem Json.lawful_scalar {value : Json} {data : Data} (hdata : value.scalar? = some data) :
    data.Lawful frozen := by
  cases value with
  | number n =>
      cases n <;> cases hdata <;>
        exact .of (.of_no_parts (by simp [Number.toData]) rfl) (by simp [Number.toData])
          (by simp [Data.members, Number.toData])
  | array | object => cases hdata
  | null | boolean | string =>
      cases hdata
      exact .of (.of_no_parts (by simp) rfl) (by simp) (by simp [Data.members])

/-- **The data of a scalar** equals itself. -/
theorem Json.alike_scalar {value : Json} {data : Data} (hdata : value.scalar? = some data) :
    Data.Alike frozen data data := by
  refine ⟨?_, lawful_scalar hdata, lawful_scalar hdata⟩
  cases value with
  | null =>
      cases hdata
      rw [Data.same]
  | string text =>
      cases hdata
      exact Data.same_str text
  | boolean b =>
      cases hdata
      exact Data.same_of_quantity rfl
  | number n =>
      cases hdata
      cases n with
      | int i => exact Data.same_of_quantity rfl
      | float x => cases x <;> exact Data.same_of_quantity rfl
  | array | object => cases hdata

end JsonDecoding
