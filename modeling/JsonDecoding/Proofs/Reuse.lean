import JsonDecoding.Proofs.Walk

/-!
# Using a reader again

A reader that meets a container beyond its limit counts that container and keeps the count, so each
such reading costs it one level for good; no other outcome costs anything (`Reader.after_eq`). A
reader is therefore as good as new exactly as long as that has not happened, or where its limit
admits no container anyway (`Reader.answers_as_fresh_iff`).
-/

namespace JsonDecoding

open Outcomes

/-- What a reader is asked to read: a text, or plain data. -/
inductive Reading where
  | text (t : Text)
  | data (content : Data)

/-- The data that is looked at in the end; there is none where a text is malformed. -/
def Reading.content? : Reading → Option Data
  | .text t => (Scanner.document t).toOption.map Json.toData
  | .data content => some content

namespace Data

/-- Lists around one another. -/
def nested : Nat → Data
  | 0 => .null
  | count + 1 => .list [nested count]

theorem depth_nested (count : Nat) : (nested count).depth = count := by
  induction count with
  | zero => rfl
  | succ count ih => simp [nested, depth, depthItems, ih]

theorem isJson_nested (count : Nat) : (nested count).IsJson := by
  induction count with
  | zero => rfl
  | succ count ih => exact ⟨ih, trivial⟩

end Data

/-! ## Where nesting is the obstacle -/

namespace Json

theorem limit_le_of_enter {limit : Int} {level : Nat} (hlevel : level ≤ Scanner.nestingLimit)
    (h : enter limit level = .error .nesting) : limit ≤ Scanner.nestingLimit := by
  unfold enter at h
  split at h
  · omega
  · split at h <;> cases h

theorem level_lt_of_enter {limit : Int} {level : Nat} (h : enter limit level = .ok ()) :
    level < Scanner.nestingLimit := by
  unfold enter at h
  split at h
  · cases h
  · split at h
    · cases h
    · omega

mutual

/-- Nesting is the obstacle only to a reader whose limit comes before that of all readers. -/
theorem limit_le_of_nesting {limit : Int} {level : Nat} {data : Data}
    (hlevel : level ≤ Scanner.nestingLimit) (h : ofData limit level data = .error .nesting) :
    limit ≤ Scanner.nestingLimit := by
  cases data with
  | list items | tuple items =>
      rcases bind_error.mp h with h | ⟨_, hopen, h⟩
      · exact limit_le_of_enter hlevel h
      · exact limit_le_of_nesting_items (level_lt_of_enter hopen) (map_error.mp h)
  | dict entries =>
      rcases bind_error.mp h with h | ⟨_, hopen, h⟩
      · exact limit_le_of_enter hlevel h
      · exact limit_le_of_nesting_entries (level_lt_of_enter hopen) (map_error.mp h)
  | _ => cases h

theorem limit_le_of_nesting_items {limit : Int} {level : Nat} {items : List Data}
    (hlevel : level ≤ Scanner.nestingLimit) (h : ofDataItems limit level items = .error .nesting) :
    limit ≤ Scanner.nestingLimit := by
  cases items with
  | nil => cases h
  | cons item rest =>
      rcases bind_error.mp h with h | ⟨_, _, h⟩
      · exact limit_le_of_nesting hlevel h
      · exact limit_le_of_nesting_items hlevel (map_error.mp h)

theorem limit_le_of_nesting_entries {limit : Int} {level : Nat} {entries : List (Data × Data)}
    (hlevel : level ≤ Scanner.nestingLimit)
    (h : ofDataEntries limit level entries = .error .nesting) : limit ≤ Scanner.nestingLimit := by
  cases entries with
  | nil => cases h
  | cons entry rest =>
      obtain ⟨key, item⟩ := entry
      cases key with
      | str key =>
          rcases bind_error.mp h with h | ⟨_, _, h⟩
          · exact limit_le_of_nesting hlevel h
          · exact limit_le_of_nesting_entries hlevel (map_error.mp h)
      | _ => cases h

end

/-- A limit that admits no container leaves no difference between levels. -/
theorem ofData_of_nonpositive {limit : Int} (hlimit : limit ≤ 0) (level other : Nat) (data : Data) :
    ofData limit level data = ofData limit other data := by
  have hclosed (level : Nat) : enter limit level = .error .nesting := by
    rw [enter, if_pos (by omega)]
  cases data <;> simp [ofData, hclosed, Except.bind]

end Json

namespace Reader

/-! ## One reading -/

/-- What one reading gives. -/
def read (r : Reader) : Reading → Outcome
  | .text t => r.readText t
  | .data content => r.readData content

/-- Whether data holds a container beyond the limit, met before any other obstacle. -/
def exceededBy (r : Reader) (data : Data) : Bool :=
  match Json.ofData r.maxDepth r.level data with
  | .error .nesting => true
  | _ => false

/-- Whether a reading meets a container beyond the limit. -/
def overflows (r : Reader) (reading : Reading) : Bool := reading.content?.any r.exceededBy

/-- Data is looked at in the same way wherever it comes from. -/
theorem read_of_content (r : Reader) {reading : Reading} {data : Data}
    (h : reading.content? = some data) : r.read reading = r.readData data := by
  cases reading with
  | data content =>
      cases h
      rfl
  | text t =>
      cases hdocument : Scanner.document t with
      | error fault => simp [Reading.content?, hdocument, Except.toOption] at h
      | ok value =>
          simp only [Reading.content?, hdocument, Except.toOption, Option.map_some,
            Option.some.injEq] at h
          simp only [read, readText, hdocument, h]

/-- Without data to look at, there was a text with a fault. -/
theorem exists_fault {reading : Reading} (h : reading.content? = none) :
    ∃ t fault, reading = .text t ∧ Scanner.document t = .error fault := by
  cases reading with
  | data content => cases h
  | text t =>
      cases hdocument : Scanner.document t with
      | error fault => exact ⟨t, fault, rfl, hdocument⟩
      | ok value => simp [Reading.content?, hdocument, Except.toOption] at h

/-- A text with a fault leaves the reader as it was, and only its limit shows in the outcome. -/
theorem readText_of_fault (r : Reader) {t : Text} {fault : Scanner.Fault}
    (h : Scanner.document t = .error fault) :
    (r.readText t).after = r ∧
      (r.readText t).result = .error (.invalid (.ofFault t r.maxDepth fault)) := by
  simp only [readText, h]
  split <;> exact ⟨rfl, rfl⟩

theorem readData_after (r : Reader) (data : Data) :
    (r.readData data).after = ⟨r.maxDepth, r.level + (r.exceededBy data).toNat⟩ := by
  unfold readData exceededBy
  cases Json.ofData r.maxDepth r.level data with
  | ok value => rfl
  | error obstacle => cases obstacle <;> rfl

/-- **One reading** raises the level where it meets a container beyond the limit, and changes
nothing else. -/
theorem read_after (r : Reader) (reading : Reading) :
    (r.read reading).after = ⟨r.maxDepth, r.level + (r.overflows reading).toNat⟩ := by
  cases hcontent : reading.content? with
  | none =>
      obtain ⟨t, fault, rfl, hfault⟩ := exists_fault hcontent
      rw [read, (r.readText_of_fault hfault).1, overflows, hcontent]
      rfl
  | some data =>
      rw [r.read_of_content hcontent, readData_after, overflows, hcontent]
      rfl

/-- Readers with one limit answer alike where they look at the data alike. -/
theorem read_result_congr {r other : Reader} (hlimit : r.maxDepth = other.maxDepth)
    {reading : Reading}
    (h : ∀ data, Json.ofData r.maxDepth r.level data = Json.ofData r.maxDepth other.level data) :
    (r.read reading).result = (other.read reading).result := by
  cases hcontent : reading.content? with
  | none =>
      obtain ⟨t, fault, rfl, hfault⟩ := exists_fault hcontent
      rw [read, read, (r.readText_of_fault hfault).2, (other.readText_of_fault hfault).2, hlimit]
  | some data =>
      rw [r.read_of_content hcontent, other.read_of_content hcontent, readData_result,
        readData_result, h data, hlimit]

/-! ## Many readings -/

/-- The reader after readings, one after the other. -/
def after (r : Reader) : List Reading → Reader
  | [] => r
  | reading :: rest => (r.read reading).after.after rest

/-- How many of the readings meet a container beyond the limit. -/
def overflowCount (r : Reader) : List Reading → Nat
  | [] => 0
  | reading :: rest =>
      (r.overflows reading).toNat + overflowCount (r.read reading).after rest

/-- **The level after readings** has grown by one for each that met a container beyond the limit. -/
theorem after_eq (r : Reader) (readings : List Reading) :
    r.after readings = ⟨r.maxDepth, r.level + r.overflowCount readings⟩ := by
  induction readings generalizing r with
  | nil => rfl
  | cons reading rest ih =>
      rw [after, ih, overflowCount, read_after, Nat.add_assoc]

theorem limit_le_of_exceeded {r : Reader} (hlevel : r.level ≤ Scanner.nestingLimit) {data : Data}
    (h : r.exceededBy data = true) : r.maxDepth ≤ Scanner.nestingLimit := by
  unfold exceededBy at h
  split at h
  · next hnesting => exact Json.limit_le_of_nesting hlevel hnesting
  · cases h

/-- Only a limit below that of all readers is ever met. -/
theorem limit_le_of_overflowCount {r : Reader} (hlevel : r.level ≤ Scanner.nestingLimit)
    {readings : List Reading} (h : 0 < r.overflowCount readings) :
    r.maxDepth ≤ Scanner.nestingLimit := by
  induction readings generalizing r with
  | nil => cases h
  | cons reading rest ih =>
      cases hfirst : r.overflows reading with
      | true =>
          obtain ⟨data, -, hdata⟩ := (Option.any_eq_true _ _).mp hfirst
          exact limit_le_of_exceeded hlevel hdata
      | false =>
          have hsame : (r.read reading).after = r := by rw [read_after, hfirst]; rfl
          simp only [overflowCount, hfirst, hsame, Bool.toNat_false, Nat.zero_add] at h
          exact ih hlevel h

/-- A reader reads lists around one another exactly where its level leaves room for them. -/
theorem reads_nested_iff {limit : Int} (hlimit : limit ≤ Scanner.nestingLimit) (level count : Nat)
    (hcount : 0 < count) :
    (∃ value, ((Reader.mk limit level).read (.data (.nested count))).result = .ok value) ↔
      (level + count : Int) ≤ limit := by
  simp only [read, readData_ok, Json.ofData_ok_iff (.inl hlimit), Data.visits_fit,
    Data.depth_nested, Data.isJson_nested, true_and, hcount, forall_const]

/-- **As good as new**: after any readings, a reader answers every further one as a new reader would
exactly if none of them met a container beyond the limit, or if the limit admits no container; its
level is the number of those that did. -/
theorem answers_as_fresh_iff (limit : Int) (readings : List Reading) :
    (fresh limit).after readings = ⟨limit, (fresh limit).overflowCount readings⟩ ∧
    ((∀ reading, (((fresh limit).after readings).read reading).result =
        ((fresh limit).read reading).result) ↔
      (fresh limit).overflowCount readings = 0 ∨ limit ≤ 0) := by
  have hafter : (fresh limit).after readings = ⟨limit, (fresh limit).overflowCount readings⟩ := by
    rw [after_eq, fresh, Nat.zero_add]
  refine ⟨hafter, ?_⟩
  rw [hafter]
  constructor
  · intro hsame
    by_contra hspent
    rw [not_or] at hspent
    obtain ⟨hcount, hpositive⟩ := hspent
    have hlevel : (fresh limit).level ≤ Scanner.nestingLimit := Nat.zero_le _
    have hnesting : limit ≤ Scanner.nestingLimit :=
      limit_le_of_overflowCount hlevel (Nat.pos_of_ne_zero hcount)
    -- as many lists as the limit admits are too many for a reader that has lost a level
    have hfresh := (reads_nested_iff hnesting 0 limit.toNat (by omega)).mpr (by omega)
    have hanswer := hsame (.data (.nested limit.toNat))
    change (∃ value, ((fresh limit).read _).result = .ok value) at hfresh
    rw [← hanswer, reads_nested_iff hnesting _ _ (by omega)] at hfresh
    omega
  · rintro (hnone | hclosed) reading
    · rw [hnone]
      rfl
    · apply read_result_congr
      · rfl
      · exact fun data => Json.ofData_of_nonpositive hclosed _ _ data

/-- A reader that once met a container beyond its limit refuses what a new one reads. -/
theorem reader_not_reusable :
    let spent := (fresh 1).after [.data (.list [.list []])]
    spent.level = 1 ∧
    (spent.read (.data (.list []))).result = .error (.invalid (.nesting 1)) ∧
    ((fresh 1).read (.data (.list []))).result = .ok (.array []) := ⟨rfl, rfl, rfl⟩

end Reader

end JsonDecoding
