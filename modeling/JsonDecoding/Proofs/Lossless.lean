import JsonDecoding.Proofs.Failures
import JsonDecoding.Proofs.Reading

/-!
# Nothing is lost

A specification without custom parts and sets decodes a value to the data of the value itself, up to
tuples in the place of lists; so the value can be read back from what it was decoded to.
-/

namespace JsonDecoding

namespace Decoder

open Attempt

/-- Data that holds all of a value, whose containers lie at most `room` deep. -/
structure Holds (room : Nat) (value : Json) (data : Data) : Prop where
  listed : data.listed = value.toData
  depth : value.depth ≤ room

namespace Holds

variable {room : Nat}

theorem items {items : List Json} {data : List Data} (h : List.Forall₂ (Holds room) items data) :
    Data.listedItems data = Json.toDataItems items ∧ Json.depthItems items ≤ room := by
  induction h with
  | nil => exact ⟨rfl, Nat.zero_le _⟩
  | cons hitem _ ih =>
      simp only [Data.listedItems, Json.toDataItems, Json.depthItems]
      exact ⟨by rw [hitem.listed, ih.1], Nat.max_le.mpr ⟨hitem.depth, ih.2⟩⟩

theorem fields {fields : List (Text × Json)} {data : List (Data × Data)}
    (h : List.Forall₂
      (fun field entry => ∃ d, Holds room field.2 d ∧ (.str field.1, d) = entry) fields data) :
    Data.listedEntries data = Json.toDataFields fields ∧ Json.depthFields fields ≤ room := by
  induction h with
  | nil => exact ⟨rfl, Nat.zero_le _⟩
  | cons hfield _ ih =>
      obtain ⟨d, hd, rfl⟩ := hfield
      simp only [Data.listedEntries, Json.toDataFields, Json.depthFields]
      exact ⟨by rw [hd.listed, ih.1], Nat.max_le.mpr ⟨hd.depth, ih.2⟩⟩

theorem list {items : List Json} {data : List Data} (h : List.Forall₂ (Holds room) items data) :
    Holds (room + 1) (.array items) (.list data) :=
  ⟨by rw [Data.listed, Json.toData, (Holds.items h).1], Nat.succ_le_succ (Holds.items h).2⟩

theorem tuple {items : List Json} {data : List Data} (h : List.Forall₂ (Holds room) items data) :
    Holds (room + 1) (.array items) (.tuple data) := ⟨(list h).listed, (list h).depth⟩

theorem dict {fields : List (Text × Json)} {data : List (Data × Data)}
    (h : List.Forall₂
      (fun field entry => ∃ d, Holds room field.2 d ∧ (.str field.1, d) = entry) fields data) :
    Holds (room + 1) (.object fields) (.dict data) :=
  ⟨by rw [Data.listed, Json.toData, (Holds.fields h).1], Nat.succ_le_succ (Holds.fields h).2⟩

theorem scalar {value : Json} {data : Data} (h : value.scalar? = some data) :
    Holds room value data := by
  cases value with
  | array | object => cases h
  | number n => cases n <;> cases h <;> exact ⟨rfl, Nat.zero_le _⟩
  | _ => cases h; exact ⟨rfl, Nat.zero_le _⟩

/-- What can be read from data is the value that the data holds. -/
theorem read_eq {value : Json} {data : Data} (h : Holds room value data)
    (hroom : room ≤ Scanner.nestingLimit) {limit : Int} (hlimit : (value.depth : Int) ≤ limit) :
    ((Input.data data).read limit).result = .ok value := by
  have hvalue : Json.ofData limit 0 data = .ok value := by
    rw [← Json.ofData_listed, h.listed]
    have hdepth := h.depth
    exact Json.ofData_toData (by omega) (by omega)
  simp only [Input.read, Reader.readData, Reader.fresh, hvalue]

end Holds

variable {step : Spec → Json → Attempt Data} {room : Nat}

/-! ## One specification -/

theorem list_holds {element : Spec} {items : List Json} {data : Data}
    (hstep : ∀ {item x}, (step element item).result = .ok x → Holds room item x)
    (h : ((elements (step element) 0 items).map .list).result = .ok data) :
    Holds (room + 1) (.array items) data := by
  obtain ⟨parts, hparts, rfl⟩ := map_ok.mp h
  exact Holds.list ((elements_ok.mp hparts).imp fun _ _ => hstep)

theorem dict_holds {content : Spec} {fields : List (Text × Json)} {data : Data}
    (hstep : ∀ {item x}, (step content item).result = .ok x → Holds room item x)
    (h : ((entries (step content) fields).map .dict).result = .ok data) :
    Holds (room + 1) (.object fields) data := by
  obtain ⟨parts, hparts, rfl⟩ := map_ok.mp h
  refine Holds.dict ((entries_ok.mp hparts).imp ?_)
  rintro field entry ⟨d, hd, hentry⟩
  exact ⟨d, hstep hd, hentry⟩

theorem scalar_holds {kind : Primitive} {value : Json} {data : Data}
    (hstep : ∀ {item x}, (step .any item).result = .ok x → Holds room item x)
    (h : (scalar step kind value).result = .ok data) : Holds (room + 1) value data := by
  unfold scalar at h
  split at h
  · split at h
    · next hdata =>
        split at h
        · cases h
          exact .scalar hdata
        · cases h
    · cases h
  · split at h
    · exact list_holds hstep h
    · exact dict_holds hstep h
    · next harray hobject =>
        obtain ⟨d, hd⟩ := Json.exists_scalar? harray hobject
        cases h
        exact .scalar (by simp [hd])

theorem tupleOf_holds {specs : List Spec} {value : Json} {data : Data}
    (hstep : ∀ spec ∈ specs, ∀ {item x}, (step spec item).result = .ok x → Holds room item x)
    (h : (tupleOf step specs value).result = .ok data) : Holds (room + 1) value data := by
  unfold tupleOf at h
  simp only at h
  split at h
  · next items =>
      split at h
      · next hlength =>
          obtain ⟨parts, hparts, rfl⟩ := map_ok.mp h
          obtain ⟨hcount, hsteps⟩ := List.forall₂_iff_zip.mp (positions_ok.mp hparts)
          have hitems : (specs.zip items).map Prod.snd = items := List.map_snd_zip (by omega)
          refine Holds.tuple ?_
          rw [← hitems, List.forall₂_map_left_iff, List.forall₂_iff_zip]
          refine ⟨hcount, ?_⟩
          intro part d hmem
          exact hstep part.1 (List.of_mem_zip (List.of_mem_zip hmem).1).1 (hsteps hmem)
      · cases h
  · cases h

/-- What a union decodes is what one of its alternatives decodes. -/
theorem firstOf_ok {whole : Spec} {value : Json} {alternatives : List Spec} {data : Data}
    (h : (firstOf step whole value alternatives).result = .ok data) :
    ∃ alternative ∈ alternatives, (step alternative value).result = .ok data := by
  induction alternatives with
  | nil =>
      simp only [firstOf, describable] at h
      split at h <;> cases h
  | cons alternative rest ih =>
      simp only [firstOf] at h
      split at h
      · obtain ⟨other, hmem, hother⟩ := ih ((UnlessFlawed.unresolved (.inl rfl) _ _ _).ok h)
        exact ⟨other, by simp [hmem], hother⟩
      · exact ⟨alternative, by simp, h⟩

theorem arrayOf_holds {element : Spec} {value : Json} {data : Data}
    (hstep : ∀ {item x}, (step element item).result = .ok x → Holds room item x)
    (h : (matching step (.arrayOf element) value).result = .ok data) :
    Holds (room + 1) value data := by
  simp only [matching] at h
  split at h
  · exact list_holds hstep h
  · cases h

theorem objectOf_holds {content : Spec} {value : Json} {data : Data}
    (hstep : ∀ {item x}, (step content item).result = .ok x → Holds room item x)
    (h : (matching step (.objectOf content) value).result = .ok data) :
    Holds (room + 1) value data := by
  simp only [matching] at h
  split at h
  · exact dict_holds hstep h
  · cases h

theorem matching_holds {spec : Spec} {value : Json} {data : Data} (hfree : spec.CustomFree)
    (hset : spec.SetFree)
    (hstep : ∀ {spec : Spec} {value data}, spec.CustomFree → spec.SetFree →
      (step spec value).result = .ok data → Holds room value data)
    (h : (matching step spec.desugar value).result = .ok data) : Holds (room + 1) value data := by
  have hany {value data} (h : (step .any value).result = .ok data) : Holds room value data :=
    @hstep .any value data id id h
  cases spec with
  | primitive kind => exact scalar_holds hany h
  | bareArray => exact arrayOf_holds hany h
  | bareObject => exact objectOf_holds hany h
  | arrayOf element => exact arrayOf_holds (hstep hfree.2 hset.2) h
  | objectOf content => exact objectOf_holds (hstep hfree.2 hset.2) h
  | mapOf key content =>
      simp only [Spec.desugar, matching] at h
      split at h
      · exact objectOf_holds (hstep hfree.2.2 hset.2.2) h
      · cases h
  | setOf => exact absurd trivial hset.1
  | tupleOf specs =>
      exact tupleOf_holds (fun spec hmem => hstep (Spec.everyAmong_iff.mp hfree.2 spec hmem)
        (Spec.everyAmong_iff.mp hset.2 spec hmem)) h
  | anyOf alternatives =>
      -- an alternative decodes the whole value, with less room than the union has
      obtain ⟨alternative, hmem, hdata⟩ := firstOf_ok h
      have hholds := hstep (Spec.everyAmong_iff.mp hfree.2 alternative hmem)
        (Spec.everyAmong_iff.mp hset.2 alternative hmem) hdata
      exact ⟨hholds.listed, Nat.le_succ_of_le hholds.depth⟩
  | _ => cases h

/-! ## Decoding -/

theorem decode_holds {registry : Registry} {spec : Spec} {value : Json} {data : Data}
    (hfree : spec.CustomFree) (hset : spec.SetFree)
    (h : (decode registry room spec value).result = .ok data) : Holds room value data := by
  induction room generalizing spec value data with
  | zero => cases h
  | succ room ih =>
      rw [decode_of_not_custom hfree.head, framedBy_ok] at h
      exact matching_holds hfree hset ih h

/-! ## Any value -/

theorem elements_done {step : Json → Attempt Data} {items : List Json}
    (h : ∀ item ∈ items, step item = .done item.toData) (index : Nat) :
    elements step index items = .done (Json.toDataItems items) := by
  induction items generalizing index with
  | nil => rfl
  | cons item rest ih =>
      rw [elements, h item (by simp), ih (fun other hother => h other (by simp [hother]))]
      rfl

theorem entries_done {step : Json → Attempt Data} {fields : List (Text × Json)}
    (h : ∀ field ∈ fields, step field.2 = .done field.2.toData) :
    entries step fields = .done (Json.toDataFields fields) := by
  induction fields with
  | nil => rfl
  | cons field rest ih =>
      obtain ⟨key, item⟩ := field
      rw [entries, h (key, item) (by simp), ih fun other hother => h other (by simp [hother])]
      rfl

/-- Any value decodes to its own data, without a record. -/
theorem decode_any {registry : Registry} {value : Json} (hroom : value.depth < room) :
    decode registry room .any value = .done value.toData := by
  induction room generalizing value with
  | zero => cases hroom
  | succ room ih =>
      rw [decode_of_not_custom id]
      simp only [Spec.desugar, matching]
      cases value with
      | null | boolean | number | string => rfl
      | array items =>
          simp only [scalar, tagOf?]
          rw [elements_done fun item hitem => ih ?_]
          · rfl
          · have hdepth := Json.depth_le_depthItems hitem
            simp only [Json.depth] at hroom
            omega
      | object fields =>
          simp only [scalar, tagOf?]
          rw [entries_done fun field hfield => ih ?_]
          · rfl
          · have hdepth := Json.depth_le_depthFields hfield
            simp only [Json.depth] at hroom
            omega

/-! ## The whole -/

/-- **Decoding loses and converts nothing**: up to tuples, what a value decodes to is the data of
the value, from which any reader that admits its depth reads the value back; and any value decodes
to its data. -/
theorem decode_is_lossless (registry : Registry) (value : Json) :
    (∀ (spec : Spec) (room : Nat) (data : Data), spec.CustomFree → spec.SetFree →
      (decode registry room spec value).result = .ok data →
      data.listed = value.toData ∧
      (room ≤ Scanner.nestingLimit → ∀ limit : Int, value.depth ≤ limit →
        ((Input.data data).read limit).result = .ok value)) ∧
    ∀ room, value.depth < room → decode registry room .any value = .done value.toData := by
  constructor
  · intro spec room data hfree hset h
    have hholds := decode_holds hfree hset h
    exact ⟨hholds.listed, fun hroom limit => hholds.read_eq hroom⟩
  · intro room hroom
    exact decode_any hroom

/-- A pair decodes to a tuple, which is read back as the array of the pair. -/
theorem decode_is_lossless_for_pair :
    let spec : Spec := .anyOf [.primitive .null, .tupleOf [.primitive .number, .bareArray]]
    let value : Json := .array [.number (.int 1), .array [.boolean true]]
    let data : Data := .tuple [.int 1, .list [.bool true]]
    (decode ⟨[]⟩ 5 spec value).result = .ok data ∧ data.listed = value.toData ∧
    ((Input.data data).read 2).result = .ok value ∧
    decode ⟨[]⟩ 3 .any value = .done value.toData := by
  intro spec value data
  have hfree : spec.CustomFree := by
    simp [spec, Spec.CustomFree, Spec.Every, Spec.EveryAmong, Spec.IsCustom]
  have hset : spec.SetFree := by
    simp [spec, Spec.SetFree, Spec.Every, Spec.EveryAmong, Spec.IsSet]
  have hdecoded : (decode ⟨[]⟩ 5 spec value).result = .ok data := rfl
  obtain ⟨hspecs, hany⟩ := decode_is_lossless ⟨[]⟩ value
  obtain ⟨hlisted, hread⟩ := hspecs spec 5 data hfree hset hdecoded
  exact ⟨hdecoded, hlisted, hread (by decide) 2 (by decide), hany 3 (by decide)⟩

end Decoder

end JsonDecoding
