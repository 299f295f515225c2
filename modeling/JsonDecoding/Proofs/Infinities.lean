import Mathlib
import JsonDecoding.Proofs.Overflow
import JsonDecoding.Proofs.RoundTrip
import JsonDecoding.Proofs.Texts

/-!
# Infinite numbers in texts

The names of numbers that are not finite are refused, but a numeral with a fraction or an exponent
is read as an infinity where it is too great. `Input.infinities_of_read` says exactly where infinite
numbers in a value that was read come from, that no number in it is undefined, and that its compact
text is read back if and only if there are none.
-/

namespace JsonDecoding

namespace Text

/-- Digits write a number with no more digits. -/
theorem digitsValue_lt {t : Text} (h : ∀ c ∈ t, isDigit c = true) :
    digitsValue t < 10 ^ t.length := by
  induction t using List.reverseRecOn with
  | nil => decide
  | append_singleton rest c ih =>
      have hrest := ih fun other hmem => h other (by simp [hmem])
      have hdigit := h c (by simp)
      simp only [isDigit, Bool.and_eq_true, decide_eq_true_eq] at hdigit
      have hlast : digitsValue [c] ≤ 9 := by
        simpa [digitsValue] using Nat.sub_le_sub_right hdigit.2 48
      rw [digitsValue_append, List.length_append, List.length_singleton, Nat.pow_succ]
      omega

end Text

/-! ## Numerals -/

namespace Scanner

namespace Numeral

/-- A numeral that writes no whole number, and one that is too great for a finite one. -/
structure IsTooGreat (n : Numeral) : Prop where
  notWhole : (n.fraction.isNone && n.exponent.isNone) = false
  great : Binary64.overflow ≤ n.toDecimal.magnitude

/-- **Exactly the numerals that are too great are read as infinities.** -/
theorem toNumber_eq_infinity_iff {n : Numeral} {negative : Bool} :
    n.toNumber = .ok (.float (.infinity negative)) ↔ n.IsTooGreat ∧ n.negative = negative := by
  have hsign : n.toDecimal.negative = n.negative := rfl
  unfold toNumber
  split
  · rename_i hwhole
    have hnot : ¬n.IsTooGreat := fun h => by simp [h.notWhole] at hwhole
    split <;> simp [hnot]
  · rename_i hwhole
    simp only [Except.ok.injEq, Number.float.injEq, Binary64.ofDecimal_eq_infinity_iff, hsign]
    constructor
    · rintro ⟨hnegative, hgreat⟩
      exact ⟨⟨Bool.eq_false_of_not_eq_true hwhole, hgreat⟩, hnegative⟩
    · rintro ⟨hgreat, hnegative⟩
      exact ⟨hnegative, hgreat.great⟩

theorem toNumber_ne_nan (n : Numeral) (mark : Nat) : n.toNumber ≠ .ok (.float (.nan mark)) := by
  unfold toNumber
  split
  · split <;> simp
  · simpa using Binary64.ofDecimal_ne_nan _ mark

/-- What a numeral is read as can be written, unless it is infinite. -/
theorem writable_of_toNumber {n : Numeral} (h : n.WellFormed) {number : Number}
    (hnumber : n.toNumber = .ok number) :
    Writable number ∨ ∃ negative, number = .float (.infinity negative) := by
  cases number with
  | float x =>
      cases x with
      | finite => exact .inl rfl
      | infinity negative => exact .inr ⟨negative, rfl⟩
      | nan mark => exact absurd hnumber (n.toNumber_ne_nan mark)
  | int i =>
      refine .inl ?_
      unfold toNumber at hnumber
      split at hnumber
      · split at hnumber
        · cases hnumber
        · rename_i hlength
          have hvalue : i.natAbs = Text.digitsValue n.whole := by
            cases hnumber
            simp only [toInt]
            split <;> simp
          have hlt := Text.digitsValue_lt h.whole.2
          have hpos : 0 < n.whole.length := List.length_pos_iff.mpr h.whole.1
          have hdigits := (Nat.length_toDigits_le_iff (by norm_num) hpos).mpr hlt
          -- a whole number has no more digits than were read
          rw [Writable, Text.length_ofNat, hvalue]
          omega
      · cases hnumber

end Numeral

/-- A text spells one scalar only. -/
theorem SpellsScalar.unique {written : Text} {first second : Except Fault Json}
    (hfirst : SpellsScalar written first) (hsecond : SpellsScalar written second) :
    first = second := by
  -- the scanner decides: it reads the text as each of the two
  have hread (outcome : Except Fault Json) (h : SpellsScalar written outcome) :
      node 0 none written = outcome.map fun value => (value, []) := by
    rw [← List.append_nil written]
    exact node_scalar h .nil
  have hsame := (hread first hfirst).symm.trans (hread second hsecond)
  cases first <;> cases second <;> simp_all [Except.map]

/-- A number is spelled by a numeral. -/
theorem exists_numeral_of_spellsScalar {written : Text} {number : Number}
    (h : SpellsScalar written (.ok (.number number))) :
    ∃ n : Numeral, n.SpelledBy written ∧ n.toNumber = .ok number := by
  generalize houtcome : (Except.ok (Json.number number) : Except Fault Json) = outcome at h
  cases h with
  | word hword =>
      obtain rfl | ⟨b, rfl⟩ | rfl := outcome_of_word hword <;> cases houtcome
  | @numeral n hspelled =>
      obtain ⟨read, hread, heq⟩ := Outcomes.map_ok.mp houtcome.symm
      cases heq
      exact ⟨n, hspelled, hread⟩
  | quoted => cases houtcome

end Scanner

open Scanner Outcomes

/-! ## What scalars decide -/

namespace Source

mutual

theorem spellsScalar_of_mem_leaves {source : Source} (h : source.Valid)
    {leaf : Text × Except Scanner.Fault Json} (hmem : leaf ∈ source.leaves) :
    SpellsScalar leaf.1 leaf.2 := by
  cases source with
  | scalar =>
      obtain rfl := List.mem_singleton.mp hmem
      exact h
  | array blank items => exact spellsScalar_of_mem_leavesItems h.2 hmem
  | object blank members => exact spellsScalar_of_mem_leavesMembers h.2 hmem

theorem spellsScalar_of_mem_leavesItems {items : List (Spaced Source)} (h : ValidItems items)
    {leaf : Text × Except Scanner.Fault Json} (hmem : leaf ∈ leavesItems items) :
    SpellsScalar leaf.1 leaf.2 := by
  cases items with
  | nil => cases hmem
  | cons item rest =>
      rcases List.mem_append.mp hmem with hitem | hrest
      · exact spellsScalar_of_mem_leaves h.1.2.1 hitem
      · exact spellsScalar_of_mem_leavesItems h.2 hrest

theorem spellsScalar_of_mem_leavesMembers {members : List (Spaced Label × Spaced Source)}
    (h : ValidMembers members) {leaf : Text × Except Scanner.Fault Json}
    (hmem : leaf ∈ leavesMembers members) : SpellsScalar leaf.1 leaf.2 := by
  cases members with
  | nil => cases hmem
  | cons member rest =>
      rcases List.mem_append.mp hmem with hmember | hrest
      · exact spellsScalar_of_mem_leaves h.2.1.2.1 hmember
      · exact spellsScalar_of_mem_leavesMembers h.2.2 hrest

end

theorem error?_map {α β : Type} (x : Except Scanner.Fault α) (f : α → β) :
    error? (x.map f) = error? x := by
  cases x <;> rfl

mutual

/-- **The first scalar that has no value** is what is wrong with a text. -/
theorem error?_value (source : Source) :
    error? source.value = source.leaves.findSome? fun leaf => error? leaf.2 := by
  cases source with
  | scalar written outcome => cases outcome <;> rfl
  | array blank items => rw [value, error?_map, error?_valueItems items, leaves]
  | object blank members => rw [value, error?_map, error?_valueMembers members, leaves]

theorem error?_valueItems (items : List (Spaced Source)) :
    error? (valueItems items) = (leavesItems items).findSome? fun leaf => error? leaf.2 := by
  cases items with
  | nil => rfl
  | cons item rest =>
      rw [valueItems, error?_bind_map, error?_value item.content, error?_valueItems rest,
        leavesItems, List.findSome?_append]

theorem error?_valueMembers (members : List (Spaced Label × Spaced Source)) :
    error? (valueMembers members) =
      (leavesMembers members).findSome? fun leaf => error? leaf.2 := by
  cases members with
  | nil => rfl
  | cons member rest =>
      rw [valueMembers, error?_bind_map, error?_value member.2.content,
        error?_valueMembers rest, leavesMembers, List.findSome?_append]

end

/-- A text that stands for a value has only scalars that do. -/
theorem leaf_ok {source : Source} {value : Json} (h : source.value = .ok value)
    {leaf : Text × Except Scanner.Fault Json} (hmem : leaf ∈ source.leaves) :
    ∃ scalar, leaf.2 = .ok scalar := by
  have hnone := error?_eq_none.mpr ⟨value, h⟩
  rw [error?_value, List.findSome?_eq_none_iff] at hnone
  exact error?_eq_none.mp (hnone leaf hmem)

/-- What is wrong with a text is wrong with one of its scalars. -/
theorem exists_leaf_of_error {source : Source} {fault : Scanner.Fault}
    (h : source.value = .error fault) : ∃ leaf ∈ source.leaves, leaf.2 = .error fault := by
  have hsome := error?_eq_some.mpr h
  rw [error?_value] at hsome
  obtain ⟨leaf, hmem, hleaf⟩ := List.exists_of_findSome?_eq_some hsome
  exact ⟨leaf, hmem, error?_eq_some.mp hleaf⟩

end Source

namespace Json

/-- What a rendered scalar is read as. -/
def reread : Json → Except Scanner.Fault Json
  | .number n => (Scanner.reread n).map .number
  | value => .ok value

mutual

/-- The source of a value has the scalars of the value. -/
theorem leaves_written (value : Json) :
    value.written.leaves = value.leaves.map fun leaf => (leaf.render, leaf.reread) := by
  cases value with
  | array items => exact leavesItems_written items
  | object fields => exact leavesFields_written fields
  | _ => rfl

theorem leavesItems_written (items : List Json) :
    Source.leavesItems (writtenItems items) =
      (leavesItems items).map fun leaf => (leaf.render, leaf.reread) := by
  cases items with
  | nil => rfl
  | cons item rest =>
      rw [writtenItems, Source.leavesItems, leaves_written item, leavesItems_written rest,
        leavesItems, List.map_append]

theorem leavesFields_written (fields : List (Text × Json)) :
    Source.leavesMembers (writtenFields fields) =
      (leavesFields fields).map fun leaf => (leaf.render, leaf.reread) := by
  cases fields with
  | nil => rfl
  | cons field rest =>
      rw [writtenFields, Source.leavesMembers, leaves_written field.2, leavesFields_written rest,
        leavesFields, List.map_append]

end

mutual

theorem writable_iff {value : Json} :
    value.Writable ↔ ∀ number, .number number ∈ value.leaves → Scanner.Writable number := by
  cases value with
  | number n => simp [Writable, leaves]
  | array items => exact writableItems_iff_leaves
  | object fields => exact writableFields_iff_leaves
  | _ => simp [Writable, leaves]

theorem writableItems_iff_leaves {items : List Json} :
    WritableItems items ↔
      ∀ number, .number number ∈ leavesItems items → Scanner.Writable number := by
  cases items with
  | nil => simp [WritableItems, leavesItems]
  | cons item rest =>
      simp only [WritableItems, leavesItems, List.mem_append, or_imp, forall_and,
        @writable_iff item, @writableItems_iff_leaves rest]

theorem writableFields_iff_leaves {fields : List (Text × Json)} :
    WritableFields fields ↔
      ∀ number, .number number ∈ leavesFields fields → Scanner.Writable number := by
  cases fields with
  | nil => simp [WritableFields, leavesFields]
  | cons field rest =>
      simp only [WritableFields, leavesFields, List.mem_append, or_imp, forall_and,
        @writable_iff field.2, @writableFields_iff_leaves rest]

end

mutual

/-- A value is short where all integers among its scalars are. -/
theorem isShort_of_leaves (value : Json)
    (h : ∀ i, .number (.int i) ∈ value.leaves → Text.isOverlong i = false) : value.IsShort := by
  cases value with
  | number n =>
      cases n with
      | int i => exact h i (by simp [leaves])
      | float => rfl
  | array items => exact isShort_array.mpr (isShort_of_leavesItems items h)
  | object fields => exact isShort_object.mpr (isShort_of_leavesFields fields h)
  | _ => rfl

theorem isShort_of_leavesItems (items : List Json)
    (h : ∀ i, .number (.int i) ∈ leavesItems items → Text.isOverlong i = false) :
    ∀ item ∈ items, item.IsShort := by
  cases items with
  | nil => simp
  | cons item rest =>
      simp only [leavesItems, List.mem_append, or_imp, forall_and] at h
      exact List.forall_mem_cons.mpr
        ⟨isShort_of_leaves item h.1, isShort_of_leavesItems rest h.2⟩

theorem isShort_of_leavesFields (fields : List (Text × Json))
    (h : ∀ i, .number (.int i) ∈ leavesFields fields → Text.isOverlong i = false) :
    ∀ field ∈ fields, field.2.IsShort := by
  cases fields with
  | nil => simp
  | cons field rest =>
      simp only [leavesFields, List.mem_append, or_imp, forall_and] at h
      exact List.forall_mem_cons.mpr
        ⟨isShort_of_leaves field.2 h.1, isShort_of_leavesFields rest h.2⟩

end

end Json

/-! ## Values that were read -/

/-- A number that a text stands for can be written, unless it is infinite. -/
theorem Source.writable_of_mem_leaves {source : Source} {value : Json} (hvalid : source.Valid)
    (h : source.value = .ok value) {number : Number} (hmem : .number number ∈ value.leaves) :
    Scanner.Writable number ∨ ∃ negative, number = .float (.infinity negative) := by
  obtain ⟨written, hleaf⟩ := (mem_leaves_iff hvalid h).mp hmem
  obtain ⟨n, hspelled, hnumber⟩ :=
    exists_numeral_of_spellsScalar (spellsScalar_of_mem_leaves (valid_struck hvalid) hleaf)
  exact n.writable_of_toNumber hspelled.wellFormed hnumber

/-- **What is read of a text** has no integer that is too long to be written. -/
theorem Input.IsWritten.isShort_of_read {input : Input} {limit : Int} {value : Json}
    (hwritten : input.IsWritten) (h : (input.read limit).result = .ok value) : value.IsShort := by
  obtain ⟨t, ht⟩ := exists_text? hwritten h
  obtain ⟨whole, hvalid, -, hvalue, -, -⟩ := (read_ok_iff ht).mp h
  refine Json.isShort_of_leaves value fun i hmem => ?_
  rcases Source.writable_of_mem_leaves hvalid.content hvalue hmem with hwritable | ⟨_, heq⟩
  · exact decide_eq_false (Nat.not_lt.mpr hwritable)
  · cases heq

/-- The infinite numbers that a text stands for are spelled by numerals that are too great, none
of them in a member that is replaced. -/
theorem Source.infinity_mem_leaves_iff {source : Source} {value : Json} (hvalid : source.Valid)
    (h : source.value = .ok value) {negative : Bool} :
    .number (.float (.infinity negative)) ∈ value.leaves ↔
      ∃ leaf ∈ source.struck.leaves, ∃ n : Numeral, n.SpelledBy leaf.1 ∧ n.IsTooGreat ∧
        n.negative = negative := by
  have hspells {leaf : Text × Except Scanner.Fault Json} (hmem : leaf ∈ source.struck.leaves) :=
    spellsScalar_of_mem_leaves (valid_struck hvalid) hmem
  rw [mem_leaves_iff hvalid h]
  constructor
  · rintro ⟨written, hleaf⟩
    obtain ⟨n, hspelled, hnumber⟩ := exists_numeral_of_spellsScalar (hspells hleaf)
    obtain ⟨hgreat, hnegative⟩ := Numeral.toNumber_eq_infinity_iff.mp hnumber
    exact ⟨_, hleaf, n, hspelled, hgreat, hnegative⟩
  · rintro ⟨⟨written, outcome⟩, hleaf, n, hspelled, hgreat, hnegative⟩
    -- the text of the scalar leaves it no other outcome
    have houtcome := (hspells hleaf).unique (.numeral hspelled)
    rw [Numeral.toNumber_eq_infinity_iff.mpr ⟨hgreat, hnegative⟩] at houtcome
    obtain rfl : outcome = .ok (.number (.float (.infinity negative))) := houtcome
    exact ⟨written, hleaf⟩

/-- The word by which an infinite number is rendered. -/
def infinityWord (negative : Bool) : Text :=
  if negative then Text.lit "-Infinity" else Text.lit "Infinity"

theorem Scanner.reread_infinity (negative : Bool) :
    reread (.float (.infinity negative)) = .error (.constant (infinityWord negative)) := by
  cases negative <;> rfl

/-- A value with an infinite number is rendered as a text that names one. -/
theorem Json.value_written_of_infinite {value : Json}
    (hnumbers : ∀ number, .number number ∈ value.leaves →
      Scanner.Writable number ∨ ∃ negative, number = .float (.infinity negative))
    {negative : Bool} (h : .number (.float (.infinity negative)) ∈ value.leaves) :
    ∃ other, value.written.value = .error (.constant (infinityWord other)) := by
  cases hvalue : value.written.value with
  | ok read =>
      -- impossible: the word for the infinite number has no value
      have hmem : ((Json.number (.float (.infinity negative))).render,
          (Json.number (.float (.infinity negative))).reread) ∈ value.written.leaves := by
        rw [leaves_written]
        exact List.mem_map_of_mem h
      obtain ⟨scalar, hscalar⟩ := Source.leaf_ok hvalue hmem
      rw [reread, reread_infinity] at hscalar
      cases hscalar
  | error fault =>
      obtain ⟨leaf, hmem, hfault⟩ := Source.exists_leaf_of_error hvalue
      rw [leaves_written] at hmem
      obtain ⟨scalar, hscalar, rfl⟩ := List.mem_map.mp hmem
      cases scalar with
      | number number =>
          rcases hnumbers number hscalar with hwritable | ⟨other, rfl⟩
          · rw [reread, reread_eq_iff.mpr hwritable] at hfault
            cases hfault
          · rw [reread, reread_infinity] at hfault
            cases hfault
            exact ⟨other, rfl⟩
      | _ => cases hfault

/-! ## Rendering what was read -/

/-- The compact text of a value that nests within the limits is read as its source is. -/
theorem Input.read_render_of_fits {value : Json} {limit : Int}
    (hnesting : value.depth ≤ Scanner.nestingLimit)
    (hfits : ¬(0 < value.depth ∧ limit < value.depth)) :
    (∀ fault, value.written.value = .error (.constant fault) →
      ((Input.text value.render).read limit).result = .error (.invalid (.constant fault))) ∧
    (value.written.value = .ok value →
      ((Input.text value.render).read limit).result = .ok value) := by
  have hdocument := Scanner.document_render value hnesting
  constructor
  · intro fault hfault
    rw [Input.read, Reader.readText, hdocument, hfault]
    rfl
  · intro hvalue
    rw [Input.read, Reader.readText, hdocument, hvalue]
    refine Reader.readData_ok.mpr (Json.ofData_toData_of_fits hnesting fun hpos => ?_)
    simp only [Reader.fresh]
    omega

/-- **Infinite numbers in a value that was read** come from numerals with a fraction or an exponent
that are too great for a finite number, outside of members that are replaced, and from nothing else;
no number in the value is undefined. Without infinite numbers the compact text of the value is read
as the value; otherwise it names one of them and is refused. -/
theorem Input.infinities_of_read {input : Input} {limit : Int} {value : Json}
    (hwritten : input.IsWritten) (h : (input.read limit).result = .ok value) :
    (∀ mark, .number (.float (.nan mark)) ∉ value.leaves) ∧
    (∃ whole : Spaced Source, whole.Holds Source.Valid ∧
      input.text? = some (whole.text Source.text) ∧ whole.content.value = .ok value ∧
      ∀ negative, .number (.float (.infinity negative)) ∈ value.leaves ↔
        ∃ leaf ∈ whole.content.struck.leaves, ∃ n : Numeral, n.SpelledBy leaf.1 ∧ n.IsTooGreat ∧
          n.negative = negative) ∧
    ((∀ negative, .number (.float (.infinity negative)) ∉ value.leaves) →
      ((Input.text value.render).read limit).result = .ok value) ∧
    ∀ negative, .number (.float (.infinity negative)) ∈ value.leaves →
      ∃ other, ((Input.text value.render).read limit).result =
        .error (.invalid (.constant (infinityWord other))) := by
  obtain ⟨t, ht⟩ := exists_text? hwritten h
  obtain ⟨whole, hvalid, hdepth, hvalue, rfl, hfits⟩ := (read_ok_iff ht).mp h
  have hnesting := (Source.depth_value_le hvalid.content hvalue).trans hdepth
  have hkeys := Source.keysDistinct_value hvalid.content hvalue
  have hnumbers : ∀ number, .number number ∈ value.leaves →
      Scanner.Writable number ∨ ∃ negative, number = .float (.infinity negative) :=
    fun number hmem => Source.writable_of_mem_leaves hvalid.content hvalue hmem
  obtain ⟨hrefused, hread⟩ := read_render_of_fits hnesting hfits
  refine ⟨?_, ⟨whole, hvalid, ht, hvalue, fun negative => ?_⟩, ?_, ?_⟩
  · intro mark hnan
    rcases hnumbers _ hnan with hwritable | ⟨negative, heq⟩
    · cases hwritable
    · cases heq
  · exact Source.infinity_mem_leaves_iff hvalid.content hvalue
  · intro hfinite
    refine hread (Json.value_written (Json.writable_iff.mpr fun number hmem => ?_) hkeys)
    rcases hnumbers number hmem with hwritable | ⟨negative, rfl⟩
    · exact hwritable
    · exact absurd hmem (hfinite negative)
  · intro negative hinfinite
    obtain ⟨other, hother⟩ := Json.value_written_of_infinite hnumbers hinfinite
    exact ⟨other, hrefused _ hother⟩

/-- Of two numbers under one key the later one counts, and both are too great. -/
theorem Input.infinities_of_read_in_object :
    let input : Input := .text (Text.lit "\x7b\"a\":-1e400,\"b\":[1],\"a\":1E+400\x7d")
    let value : Json := .object [(Text.lit "a", .number (.float (.infinity false))),
      (Text.lit "b", .array [.number (.int 1)])]
    input.IsWritten ∧ (input.read 100).result = .ok value ∧
    (∀ mark, .number (.float (.nan mark)) ∉ value.leaves) ∧
    (∃ whole : Spaced Source, whole.Holds Source.Valid ∧
      input.text? = some (whole.text Source.text) ∧ whole.content.value = .ok value ∧
      ∀ negative, .number (.float (.infinity negative)) ∈ value.leaves ↔
        ∃ leaf ∈ whole.content.struck.leaves, ∃ n : Numeral, n.SpelledBy leaf.1 ∧ n.IsTooGreat ∧
          n.negative = negative) ∧
    ∃ other, ((Input.text value.render).read 100).result =
      .error (.invalid (.constant (infinityWord other))) := by
  intro input value
  have hread : (input.read 100).result = .ok value := by cbv
  have hwritten : input.IsWritten := trivial
  obtain ⟨hnan, hwhole, -, hrefused⟩ := Input.infinities_of_read hwritten hread
  exact ⟨hwritten, hread, hnan, hwhole, hrefused false (List.mem_cons_self ..)⟩

/-- Reading a text can give an infinite number, whose rendered form is refused. -/
theorem Input.infinite_number_is_read :
    ((Input.text (Text.lit "1e400")).read 100).result =
      .ok (.number (.float (.infinity false))) ∧
    (Json.number (.float (.infinity false))).render = Text.lit "Infinity" ∧
    ((Input.text (Text.lit "Infinity")).read 100).result =
      .error (.invalid (.constant (Text.lit "Infinity"))) := by
  refine ⟨by cbv, by cbv, by cbv⟩

end JsonDecoding
