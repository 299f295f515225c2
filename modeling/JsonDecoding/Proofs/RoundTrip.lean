import JsonDecoding.Proofs.Layout
import JsonDecoding.Proofs.Places
import JsonDecoding.Proofs.Reading
import JsonDecoding.Proofs.Scanning

/-!
# Rendering and reading back

The compact text of a value is the text of a source (`Json.text_written`), which stands for that
value if JSON can write all its numbers (`Json.value_written`). So the text is read as the value
(`Input.read_render`): every string and key comes back code point by code point, every number as the
number of its kind, and every object with its keys in their order.
-/

namespace JsonDecoding

/-- Every rendered number is spelled, also one that is not read back. -/
theorem Scanner.spellsScalar_renderNumber (n : Number) :
    SpellsScalar (Json.renderNumber n) ((reread n).map .number) := by
  cases n with
  | int i =>
      obtain ⟨numeral, hformed, htext, hnumber⟩ := exists_numeral_int i
      have hspelled := SpellsScalar.numeral hformed.spelledBy
      rwa [htext, hnumber] at hspelled
  | float x =>
      cases x with
      | finite negative exponent fraction =>
          obtain ⟨numeral, hformed, htext, hnumber⟩ :=
            exists_numeral_float
              (rfl : (Binary64.finite negative exponent fraction).isFinite = true)
          have hspelled := SpellsScalar.numeral hformed.spelledBy
          rwa [htext, hnumber] at hspelled
      | infinity negative =>
          cases negative with
          | false =>
              exact @SpellsScalar.word (Text.lit "Infinity") (.error (Text.lit "Infinity"))
                (by simp [words])
          | true =>
              exact @SpellsScalar.word (Text.lit "-Infinity") (.error (Text.lit "-Infinity"))
                (by simp [words])
      | nan => exact @SpellsScalar.word (Text.lit "NaN") (.error (Text.lit "NaN")) (by simp [words])

namespace Json

/-! ## What JSON can write -/

mutual

/-- Every number in a value is one that JSON can write. -/
def Writable : Json → Prop
  | .number n => Scanner.Writable n
  | .array items => WritableItems items
  | .object fields => WritableFields fields
  | _ => True

/-- Every number among items is one that JSON can write. -/
def WritableItems : List Json → Prop
  | [] => True
  | item :: rest => Writable item ∧ WritableItems rest

/-- Every number among the values of fields is one that JSON can write. -/
def WritableFields : List (Text × Json) → Prop
  | [] => True
  | (_, value) :: rest => Writable value ∧ WritableFields rest

end

/-! ## Values as sources -/

mutual

/-- The source of a rendered value: no blanks, and scalars as they are rendered. -/
def written : Json → Source
  | .number n => .scalar (renderNumber n) ((Scanner.reread n).map .number)
  | .array items => .array [] (writtenItems items)
  | .object fields => .object [] (writtenFields fields)
  | .null => .scalar (render .null) (.ok .null)
  | .boolean b => .scalar (render (.boolean b)) (.ok (.boolean b))
  | .string s => .scalar (renderString s) (.ok (.string s))

/-- The sources of items in order. -/
def writtenItems : List Json → List (Spaced Source)
  | [] => []
  | item :: rest => ⟨[], written item, []⟩ :: writtenItems rest

/-- The sources of fields in order. -/
def writtenFields : List (Text × Json) → List (Spaced Label × Spaced Source)
  | [] => []
  | (key, value) :: rest =>
      (⟨[], ⟨renderString key, key⟩, []⟩, ⟨[], written value, []⟩) :: writtenFields rest

end

mutual

/-- **The compact text is the text of that source.** -/
theorem text_written (value : Json) : value.written.text = value.render := by
  cases value with
  | array items => simp [written, Source.text, render, textItems_written]
  | object fields => simp [written, Source.text, render, textMembers_written]
  | _ => rfl

theorem textItems_written (items : List Json) :
    Source.textItems (writtenItems items) = renderItems items := by
  cases items with
  | nil => rfl
  | cons item rest =>
      simp [writtenItems, Source.textItems, renderItems, text_written item, textItems_written rest]

theorem textMembers_written (fields : List (Text × Json)) :
    Source.textMembers (writtenFields fields) = renderFields fields := by
  cases fields with
  | nil => rfl
  | cons field rest =>
      obtain ⟨key, value⟩ := field
      simp [writtenFields, Source.textMembers, renderFields, Spaced.text, text_written value,
        textMembers_written rest]

end

mutual

theorem valid_written (value : Json) : value.written.Valid := by
  cases value with
  | null => exact @Scanner.SpellsScalar.word (Text.lit "null") (.ok .null) (by simp [Scanner.words])
  | boolean b =>
      cases b with
      | false =>
          exact @Scanner.SpellsScalar.word (Text.lit "false") (.ok (.boolean false))
            (by simp [Scanner.words])
      | true =>
          exact @Scanner.SpellsScalar.word (Text.lit "true") (.ok (.boolean true))
            (by simp [Scanner.words])
  | number n => exact Scanner.spellsScalar_renderNumber n
  | string s => exact .quoted (Scanner.spellsString_renderString s)
  | array items => exact ⟨.nil, validItems_written items⟩
  | object fields => exact ⟨.nil, validMembers_written fields⟩

theorem validItems_written (items : List Json) : Source.ValidItems (writtenItems items) := by
  cases items with
  | nil => trivial
  | cons item rest => exact ⟨⟨.nil, valid_written item, .nil⟩, validItems_written rest⟩

theorem validMembers_written (fields : List (Text × Json)) :
    Source.ValidMembers (writtenFields fields) := by
  cases fields with
  | nil => trivial
  | cons field rest =>
      exact ⟨⟨.nil, Scanner.spellsString_renderString field.1, .nil⟩,
        ⟨.nil, valid_written field.2, .nil⟩, validMembers_written rest⟩

end

mutual

theorem depth_written (value : Json) : value.written.depth = value.depth := by
  cases value with
  | array items => rw [written, Source.depth, depth, depthItems_written]
  | object fields => rw [written, Source.depth, depth, depthMembers_written]
  | _ => rfl

theorem depthItems_written (items : List Json) :
    Source.depthItems (writtenItems items) = depthItems items := by
  cases items with
  | nil => rfl
  | cons item rest =>
      rw [writtenItems, Source.depthItems, depthItems, depth_written, depthItems_written]

theorem depthMembers_written (fields : List (Text × Json)) :
    Source.depthMembers (writtenFields fields) = depthFields fields := by
  cases fields with
  | nil => rfl
  | cons field rest =>
      rw [writtenFields, Source.depthMembers, depthFields, depth_written, depthMembers_written]

end

mutual

/-- **The source stands for the value** whose text it is, if JSON can write all its numbers. -/
theorem value_written {value : Json} (hwritable : value.Writable) (hkeys : value.KeysDistinct) :
    value.written.value = .ok value := by
  cases value with
  | number n => rw [written, Source.value, Scanner.reread_eq_iff.mpr hwritable, Except.map]
  | array items =>
      rw [written, Source.value, valueItems_written hwritable hkeys, Except.map]
  | object fields =>
      rw [written, Source.value, valueMembers_written hwritable hkeys.2, Except.map,
        -- no key comes twice, so none replaces another
        Assoc.ofPairs_of_nodup hkeys.1]
  | _ => rfl

theorem valueItems_written {items : List Json} (hwritable : WritableItems items)
    (hkeys : KeysDistinctItems items) : Source.valueItems (writtenItems items) = .ok items := by
  cases items with
  | nil => rfl
  | cons item rest =>
      rw [writtenItems, Source.valueItems, value_written hwritable.1 hkeys.1,
        valueItems_written hwritable.2 hkeys.2]
      rfl

theorem valueMembers_written {fields : List (Text × Json)} (hwritable : WritableFields fields)
    (hkeys : KeysDistinctFields fields) :
    Source.valueMembers (writtenFields fields) = .ok fields := by
  cases fields with
  | nil => rfl
  | cons field rest =>
      rw [writtenFields, Source.valueMembers, value_written hwritable.1 hkeys.1,
        valueMembers_written hwritable.2 hkeys.2]
      rfl

end

end Json

namespace Scanner

/-- The text of a value is read as its source is. -/
theorem document_render (value : Json) (hdepth : value.depth ≤ nestingLimit) :
    document value.render = value.written.value := by
  have hwhole : (Spaced.mk [] value.written []).Holds Source.Valid :=
    ⟨.nil, value.valid_written, .nil⟩
  have hread := document_text hwhole (value.depth_written.le.trans hdepth)
  rwa [Spaced.text, value.text_written, List.nil_append, List.append_nil] at hread

end Scanner

/-- **Rendering and reading are inverse**: a value with numbers that JSON can write is read from its
text, with all keys in their order, without a record, and by a reader that is left as it was. -/
theorem Input.read_render {value : Json} (hwritable : value.Writable) (hkeys : value.KeysDistinct)
    {limit : Int} (hlimit : (value.depth : Int) ≤ limit)
    (hdepth : value.depth ≤ Scanner.nestingLimit) :
    (Input.text value.render).read limit = ⟨[], .ok value, .fresh limit⟩ := by
  have hdata : Json.ofData limit 0 value.toData = .ok value :=
    Json.ofData_toData (by simpa using hlimit) (by simpa using hdepth)
  simp only [Input.read, Reader.readText, Scanner.document_render value hdepth,
    Json.value_written hwritable hkeys, Reader.readData, Reader.fresh, hdata]

/-- Surrogates side by side and a null character in a key, numbers of both kinds, the least positive
one among them, and an empty key. -/
theorem Input.read_render_of_object :
    let numbers : Json := .array [.number (.int (-120)), .number (.float (.finite true 0 0)),
      .number (.float (.finite false 0 1)), .number (.float (.finite false 1019 2702159776422298))]
    let value : Json := .object [([0xD83D, 0xDE00, 0, 34, 92, 0x1F600], numbers),
      ([], .object [(Text.lit "a", .array [])])]
    (Input.text value.render).read 3 = ⟨[], .ok value, .fresh 3⟩ := by
  intro numbers value
  have hdigits : (Text.ofNat 120).length ≤ Text.digitLimit := by decide
  have hwritable : value.Writable :=
    ⟨⟨hdigits, rfl, rfl, rfl, trivial⟩, ⟨trivial, trivial⟩, trivial⟩
  have hkeys : value.KeysDistinct :=
    ⟨by decide, ⟨trivial, trivial, trivial, trivial, trivial⟩, ⟨by decide, trivial, trivial⟩,
      trivial⟩
  exact Input.read_render hwritable hkeys (by decide) (by decide)

end JsonDecoding
