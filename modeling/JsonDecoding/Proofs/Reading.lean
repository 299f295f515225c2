import JsonDecoding.Json.Reader
import JsonDecoding.Proofs.Outcomes

/-!
# Reading data back

A value that is turned into plain data is read back from it, unless it lies too deep
(`ofData_toData`), and nothing but its depth can be in the way (`ofData_toData_error`). The reader
takes tuples as lists, so the same is true of data whose lists have become tuples (`ofData_listed`).
-/

namespace JsonDecoding

namespace Data

mutual

/-- The data with every tuple in lists, tuples and dictionaries replaced by a list. -/
def listed : Data → Data
  | .list items => .list (listedItems items)
  | .tuple items => .list (listedItems items)
  | .dict entries => .dict (listedEntries entries)
  | data => data

/-- The items with every tuple replaced by a list. -/
def listedItems : List Data → List Data
  | [] => []
  | item :: rest => listed item :: listedItems rest

/-- The entries with every tuple in their values replaced by a list. -/
def listedEntries : List (Data × Data) → List (Data × Data)
  | [] => []
  | (key, item) :: rest => (key, listed item) :: listedEntries rest

end

end Data

namespace Json

/-! ## Tuples are read as lists -/

mutual

theorem ofData_listed (limit : Int) (level : Nat) (data : Data) :
    ofData limit level data.listed = ofData limit level data := by
  cases data with
  | list items | tuple items => simp only [Data.listed, ofData, ofDataItems_listed]
  | dict entries => simp only [Data.listed, ofData, ofDataEntries_listed]
  | _ => rfl

theorem ofDataItems_listed (limit : Int) (level : Nat) (items : List Data) :
    ofDataItems limit level (Data.listedItems items) = ofDataItems limit level items := by
  cases items with
  | nil => rfl
  | cons item rest =>
      simp only [Data.listedItems, ofDataItems, ofData_listed limit level item,
        ofDataItems_listed limit level rest]

theorem ofDataEntries_listed (limit : Int) (level : Nat) (entries : List (Data × Data)) :
    ofDataEntries limit level (Data.listedEntries entries) =
      ofDataEntries limit level entries := by
  cases entries with
  | nil => rfl
  | cons entry rest =>
      obtain ⟨key, item⟩ := entry
      cases key <;>
        simp only [Data.listedEntries, ofDataEntries, ofData_listed limit level item,
          ofDataEntries_listed limit level rest]

end

/-! ## What is in the way of reading -/

/-- A container can be opened where it stays within both limits. -/
theorem enter_ok {limit : Int} {level : Nat} (hlimit : (level : Int) + 1 ≤ limit)
    (hnesting : level < Scanner.nestingLimit) : enter limit level = .ok () := by
  rw [enter, if_neg (by omega), if_neg (by omega)]

/-- Only limits are in the way of opening a container. -/
theorem enter_error {limit : Int} {level : Nat} {obstacle : Obstacle}
    (h : enter limit level = .error obstacle) : obstacle = .nesting ∨ obstacle = .recursion := by
  unfold enter at h
  split at h
  · cases h
    exact .inl rfl
  · split at h
    · cases h
      exact .inr rfl
    · cases h

mutual

/-- **A value is read back** from its data where its depth is within the limits. -/
theorem ofData_toData {limit : Int} {level : Nat} {value : Json}
    (hlimit : (level + value.depth : Nat) ≤ limit)
    (hnesting : level + value.depth ≤ Scanner.nestingLimit) :
    ofData limit level value.toData = .ok value := by
  cases value with
  | null | boolean | string => rfl
  | number n => cases n <;> rfl
  | array items =>
      simp only [depth] at hlimit hnesting
      rw [toData, ofData, enter_ok (by omega) (by omega), Except.bind,
        ofDataItems_toData (by omega) (by omega), Except.map]
  | object fields =>
      simp only [depth] at hlimit hnesting
      rw [toData, ofData, enter_ok (by omega) (by omega), Except.bind,
        ofDataEntries_toData (by omega) (by omega), Except.map]

theorem ofDataItems_toData {limit : Int} {level : Nat} {items : List Json}
    (hlimit : (level + depthItems items : Nat) ≤ limit)
    (hnesting : level + depthItems items ≤ Scanner.nestingLimit) :
    ofDataItems limit level (toDataItems items) = .ok items := by
  cases items with
  | nil => rfl
  | cons item rest =>
      simp only [depthItems] at hlimit hnesting
      rw [toDataItems, ofDataItems, ofData_toData (by omega) (by omega), Except.bind,
        ofDataItems_toData (by omega) (by omega), Except.map]

theorem ofDataEntries_toData {limit : Int} {level : Nat} {fields : List (Text × Json)}
    (hlimit : (level + depthFields fields : Nat) ≤ limit)
    (hnesting : level + depthFields fields ≤ Scanner.nestingLimit) :
    ofDataEntries limit level (toDataFields fields) = .ok fields := by
  cases fields with
  | nil => rfl
  | cons field rest =>
      obtain ⟨key, value⟩ := field
      simp only [depthFields] at hlimit hnesting
      rw [toDataFields, ofDataEntries, ofData_toData (by omega) (by omega), Except.bind,
        ofDataEntries_toData (by omega) (by omega), Except.map]

end

mutual

/-- **Nothing but its depth** is in the way of reading a value back. -/
theorem ofData_toData_error {limit : Int} {level : Nat} {value : Json} {obstacle : Obstacle}
    (h : ofData limit level value.toData = .error obstacle) :
    obstacle = .nesting ∨ obstacle = .recursion := by
  cases value with
  | null | boolean | string => cases h
  | number n => cases n <;> cases h
  | array items =>
      rcases Outcomes.bind_error.mp h with h | ⟨_, _, h⟩
      · exact enter_error h
      · exact ofDataItems_toData_error (Outcomes.map_error.mp h)
  | object fields =>
      rcases Outcomes.bind_error.mp h with h | ⟨_, _, h⟩
      · exact enter_error h
      · exact ofDataEntries_toData_error (Outcomes.map_error.mp h)

theorem ofDataItems_toData_error {limit : Int} {level : Nat} {items : List Json}
    {obstacle : Obstacle} (h : ofDataItems limit level (toDataItems items) = .error obstacle) :
    obstacle = .nesting ∨ obstacle = .recursion := by
  cases items with
  | nil => cases h
  | cons item rest =>
      rcases Outcomes.bind_error.mp h with h | ⟨_, _, h⟩
      · exact ofData_toData_error h
      · exact ofDataItems_toData_error (Outcomes.map_error.mp h)

theorem ofDataEntries_toData_error {limit : Int} {level : Nat} {fields : List (Text × Json)}
    {obstacle : Obstacle} (h : ofDataEntries limit level (toDataFields fields) = .error obstacle) :
    obstacle = .nesting ∨ obstacle = .recursion := by
  cases fields with
  | nil => cases h
  | cons field rest =>
      rcases Outcomes.bind_error.mp h with h | ⟨_, _, h⟩
      · exact ofData_toData_error h
      · exact ofDataEntries_toData_error (Outcomes.map_error.mp h)

end

end Json

/-! ## Text -/

/-- Whether an input is a text, decoded or not. -/
def Input.IsWritten : Input → Prop
  | .data _ => False
  | _ => True

/-- What reading gives is a value, or the input is at fault; the only records are of rejections. -/
structure Reader.Outcome.OfText (outcome : Reader.Outcome) : Prop where
  result : ∀ unreadable, outcome.result = .error unreadable → ∃ e, unreadable = .invalid e
  log : ∀ record ∈ outcome.log, ∃ position problem, record = .textRejected position problem

theorem Reader.readData_ofText (r : Reader) (value : Json) :
    (r.readData value.toData).OfText := by
  unfold Reader.readData
  split
  · exact ⟨by simp, by simp⟩
  · exact ⟨by simp [Obstacle.failure], by simp⟩
  · next hobstacle =>
      rcases Json.ofData_toData_error hobstacle with rfl | rfl
      · exact ⟨by simp [Obstacle.failure], by simp⟩
      · exact ⟨by simp [Obstacle.failure], by simp⟩

theorem Reader.readText_ofText (r : Reader) (t : Text) : (r.readText t).OfText := by
  unfold Reader.readText
  split
  · exact r.readData_ofText _
  · simp only
    split
    · exact ⟨by simp, by simp⟩
    · exact ⟨by simp, by simp⟩

/-- **A text is read or rejected**: nothing that the scanner makes is refused as data. -/
theorem Input.IsWritten.read_ofText {input : Input} (h : input.IsWritten) (limit : Int) :
    (input.read limit).OfText := by
  cases input with
  | text t => exact Reader.readText_ofText _ t
  | octets units =>
      simp only [Input.read]
      split
      · exact Reader.readText_ofText _ _
      · exact ⟨by simp, by simp⟩
  | data => exact h.elim

end JsonDecoding
