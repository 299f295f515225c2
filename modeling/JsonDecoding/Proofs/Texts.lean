import JsonDecoding.Proofs.Overwriting
import JsonDecoding.Proofs.Scanning
import JsonDecoding.Proofs.Walk

/-!
# Reading texts

What a reader makes of a JSON text: the value that the text stands for, unless it nests too deeply
(`Reader.readText_source`). Only JSON texts are read as values (`Input.read_ok_iff`).
-/

namespace JsonDecoding

/-! ## Data of values -/

namespace Json

mutual

theorem depth_toData (value : Json) : value.toData.depth = value.depth := by
  cases value with
  | null | boolean | string => rfl
  | number n => cases n <;> rfl
  | array items => exact congrArg (· + 1) (depthItems_toData items)
  | object fields => exact congrArg (· + 1) (depthFields_toData fields)

theorem depthItems_toData (items : List Json) :
    Data.depthItems (toDataItems items) = depthItems items := by
  cases items with
  | nil => rfl
  | cons item rest =>
      rw [toDataItems, Data.depthItems, depthItems, depth_toData item, depthItems_toData rest]

theorem depthFields_toData (fields : List (Text × Json)) :
    Data.depthEntries (toDataFields fields) = depthFields fields := by
  cases fields with
  | nil => rfl
  | cons field rest =>
      rw [toDataFields, Data.depthEntries, depthFields, depth_toData field.2,
        depthFields_toData rest]

end

variable {limit : Int} {value : Json}

/-- The data of a value is read as the value unless it nests too deeply. -/
theorem ofData_toData_of_fits (hnesting : value.depth ≤ Scanner.nestingLimit)
    (hfits : 0 < value.depth → (value.depth : Int) ≤ limit) :
    ofData limit 0 value.toData = .ok value := by
  rcases Nat.eq_zero_or_pos value.depth with hzero | hpos
  · cases value with
    | null | boolean | string => rfl
    | number n => cases n <;> rfl
    | array | object => simp [depth] at hzero
  · exact ofData_toData (by simpa using hfits hpos) (by simpa using hnesting)

/-- If it nests too deeply, that is what is told. -/
theorem ofData_toData_of_deep (hnesting : value.depth ≤ Scanner.nestingLimit)
    (hpos : 0 < value.depth) (hdeep : limit < value.depth) :
    ofData limit 0 value.toData = .error .nesting := by
  have hlevel : limit ≤ Scanner.nestingLimit ∨ 0 + value.toData.depth ≤ Scanner.nestingLimit :=
    .inr (by rwa [Nat.zero_add, depth_toData])
  cases hread : ofData limit 0 value.toData with
  | ok read =>
      have hfits := ((Data.visits_fit limit 0 value.toData).mp
        ((ofData_ok_iff hlevel).mp ⟨read, hread⟩)).2
      rw [depth_toData] at hfits
      have hlimit := hfits hpos
      omega
  | error obstacle =>
      rcases ofData_toData_error hread with rfl | rfl
      · rfl
      · -- no visit is in the way for any other reason than its depth
        obtain ⟨-, visit, -, -, -, -, hobstacle⟩ := (ofData_error_iff hlevel).mp hread
        cases visit <;> cases hobstacle

end Json

/-! ## Readers -/

theorem Source.depth_value_le {source : Source} {value : Json} (hvalid : source.Valid)
    (h : source.value = .ok value) : value.depth ≤ source.depth :=
  (depth_struck hvalid h).ge.trans source.depth_struck_le

/-- **A text is read as the value that it stands for** unless the value nests too deeply. -/
theorem Reader.readText_source {whole : Spaced Source} {value : Json} (limit : Int)
    (hvalid : whole.Holds Source.Valid) (hdepth : whole.content.depth ≤ Scanner.nestingLimit)
    (hvalue : whole.content.value = .ok value) :
    ((Reader.fresh limit).readText (whole.text Source.text)).result =
      if 0 < value.depth ∧ limit < value.depth then .error (.invalid (.nesting limit))
      else .ok value := by
  have hnesting := (Source.depth_value_le hvalid.content hvalue).trans hdepth
  have hread : ((Reader.fresh limit).readText (whole.text Source.text)).result =
      (Json.ofData limit 0 value.toData).mapError (Obstacle.failure limit) := by
    rw [Reader.readText, Scanner.document_text hvalid hdepth, hvalue]
    exact Reader.readData_result _ _
  rw [hread]
  split
  · rename_i hdeep
    rw [Json.ofData_toData_of_deep hnesting hdeep.1 hdeep.2]
    rfl
  · rename_i hfits
    rw [Json.ofData_toData_of_fits hnesting fun hpos => by omega]
    rfl

/-! ## Inputs -/

namespace Input

/-- The text of an input, if it is one; octets are taken as UTF-8. -/
def text? : Input → Option Text
  | .text t => some t
  | .octets units => (Utf8.decode units).toOption
  | .data _ => none

variable {input : Input} {t : Text} {limit : Int} {value : Json}

theorem read_of_text? (h : input.text? = some t) :
    input.read limit = (Reader.fresh limit).readText t := by
  cases input with
  | text => rw [Option.some.inj h, read]
  | octets units =>
      rw [text?] at h
      cases hdecode : Utf8.decode units with
      | error fault =>
          rw [hdecode] at h
          cases h
      | ok decoded =>
          rw [hdecode] at h
          cases h
          rw [read, hdecode]
  | data => cases h

/-- Written input of which a value is read is a text. -/
theorem exists_text? (hwritten : input.IsWritten) (h : (input.read limit).result = .ok value) :
    ∃ t, input.text? = some t := by
  cases input with
  | text t => exact ⟨t, rfl⟩
  | octets units =>
      cases hdecode : Utf8.decode units with
      | error fault =>
          rw [read, hdecode] at h
          cases h
      | ok decoded => exact ⟨decoded, by rw [text?, hdecode]; rfl⟩
  | data => exact hwritten.elim

/-- **Only JSON texts are read as values**: those that stand for the value, within both limits. -/
theorem read_ok_iff (ht : input.text? = some t) :
    (input.read limit).result = .ok value ↔ ∃ whole : Spaced Source,
      whole.Holds Source.Valid ∧ whole.content.depth ≤ Scanner.nestingLimit ∧
        whole.content.value = .ok value ∧ t = whole.text Source.text ∧
        ¬(0 < value.depth ∧ limit < value.depth) := by
  rw [read_of_text? ht]
  constructor
  · intro h
    cases hdocument : Scanner.document t with
    | error fault =>
        rw [Reader.readText, hdocument] at h
        simp only at h
        split at h <;> cases h
    | ok read =>
        obtain ⟨whole, hvalid, hdepth, hvalue, rfl⟩ := Scanner.document_ok_iff.mp hdocument
        rw [Reader.readText_source limit hvalid hdepth hvalue] at h
        split at h
        · cases h
        · rename_i hfits
          cases h
          exact ⟨whole, hvalid, hdepth, hvalue, rfl, hfits⟩
  · rintro ⟨whole, hvalid, hdepth, hvalue, rfl, hfits⟩
    rw [Reader.readText_source limit hvalid hdepth hvalue, if_neg hfits]

end Input

end JsonDecoding
