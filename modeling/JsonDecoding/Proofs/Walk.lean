import JsonDecoding.Parser
import JsonDecoding.Proofs.Numerals
import JsonDecoding.Proofs.Reading

/-!
# Walking through data

A reader looks at data from left to right, into each container before what stands behind it.
`Data.visits` lists what it meets on the way, whatever the limits are. The first visit that is in
the way decides how reading ends (`error?_ofData`), and none is exactly when the data has the shape
of a JSON value and does not nest too deeply (`all_fits_iff`).
-/

namespace JsonDecoding

namespace Outcomes

variable {ε α β γ : Type}

/-- What a result is an error for, if it is one. -/
def error? : Except ε α → Option ε
  | .error e => some e
  | .ok _ => none

theorem error?_eq_some {x : Except ε α} {e : ε} : error? x = some e ↔ x = .error e := by
  cases x <;> simp [error?]

theorem error?_eq_none {x : Except ε α} : error? x = none ↔ ∃ a, x = .ok a := by
  cases x <;> simp [error?]

/-- Of two results in order, the first error counts. -/
theorem error?_bind_map (x : Except ε α) (y : Except ε β) (f : α → β → γ) :
    error? (x.bind fun a => y.map (f a)) = (error? x).or (error? y) := by
  cases x <;> cases y <;> rfl

/-- The first answer among several is the first one's, or that of the others. -/
theorem findSome?_cons_or (f : α → Option β) (a : α) (rest : List α) :
    (a :: rest).findSome? f = (f a).or (rest.findSome? f) := by
  rw [List.findSome?_cons]
  cases f a <;> rfl

end Outcomes

open Outcomes

/-! ## Visits -/

/-- What is met on a walk through data: data that is no container, a container that is opened, with
the number of containers that are open then, or a key. -/
inductive Visit where
  | leaf (data : Data)
  | opening (depth : Nat)
  | key (data : Data)

namespace Data

mutual

/-- What is met on the walk through data that stands inside `level` containers, in order. A key
comes before the value under it. -/
def visits (level : Nat) : Data → List Visit
  | .list items => .opening (level + 1) :: visitsItems (level + 1) items
  | .tuple items => .opening (level + 1) :: visitsItems (level + 1) items
  | .dict entries => .opening (level + 1) :: visitsEntries (level + 1) entries
  | data => [.leaf data]

/-- What is met on the walk through items. -/
def visitsItems (level : Nat) : List Data → List Visit
  | [] => []
  | item :: rest => visits level item ++ visitsItems level rest

/-- What is met on the walk through entries. -/
def visitsEntries (level : Nat) : List (Data × Data) → List Visit
  | [] => []
  | (key, item) :: rest => .key key :: (visits level item ++ visitsEntries level rest)

end

/-- Whether data is null, a truth value, a number or a text. -/
def isScalar : Data → Bool
  | .null | .bool _ | .int _ | .float _ | .str _ => true
  | _ => false

/-- Whether data is a text. -/
def isText : Data → Bool
  | .str _ => true
  | _ => false

mutual

/-- Data that is built of null, truth values, numbers, texts, lists, tuples, and dictionaries with
texts for keys. -/
def IsJson : Data → Prop
  | .list items => AreJson items
  | .tuple items => AreJson items
  | .dict entries => AreFields entries
  | data => data.isScalar = true

/-- Items that are all of this kind. -/
def AreJson : List Data → Prop
  | [] => True
  | item :: rest => IsJson item ∧ AreJson rest

/-- Entries of this kind, each with a text for its key. -/
def AreFields : List (Data × Data) → Prop
  | [] => True
  | (key, item) :: rest => key.isText = true ∧ IsJson item ∧ AreFields rest

end

mutual

/-- How many lists, tuples and dictionaries lie inside one another at most. -/
def depth : Data → Nat
  | .list items => depthItems items + 1
  | .tuple items => depthItems items + 1
  | .dict entries => depthEntries entries + 1
  | _ => 0

/-- The greatest depth among items. -/
def depthItems : List Data → Nat
  | [] => 0
  | item :: rest => max (depth item) (depthItems rest)

/-- The greatest depth among the values of entries. -/
def depthEntries : List (Data × Data) → Nat
  | [] => 0
  | (_, item) :: rest => max (depth item) (depthEntries rest)

end

/-- Containers inside one another, the outermost included, are no more than a limit; data without
containers is within every limit. -/
def NestsWithin (limit : Int) (data : Data) : Prop := 0 < data.depth → (data.depth : Int) ≤ limit

end Data

namespace Visit

/-- Whether a reader with a depth limit goes on after a visit. -/
def fits (limit : Int) : Visit → Bool
  | .leaf data => data.isScalar
  | .opening depth => depth ≤ limit
  | .key data => data.isText

/-- What is in the way at a visit that does not fit. -/
def obstacle : Visit → Obstacle
  | .leaf data => .unsupported data
  | .opening _ => .nesting
  | .key data => .keyNotString data

/-- Whether a container is opened that no reader can open, whatever its limit. -/
def isBeyond : Visit → Bool
  | .opening depth => Scanner.nestingLimit < depth
  | _ => false

/-- What is in the way of a reader with a depth limit at a visit. -/
def obstacle? (limit : Int) (visit : Visit) : Option Obstacle :=
  if visit.fits limit then if visit.isBeyond then some .recursion else none
  else some visit.obstacle

end Visit

/-! ## The first obstacle -/

namespace Json

/-- Opening a container is a visit. -/
theorem error?_enter (limit : Int) (level : Nat) :
    error? (enter limit level) = (Visit.opening (level + 1)).obstacle? limit := by
  simp only [enter, Visit.obstacle?, Visit.fits, Visit.isBeyond, Visit.obstacle, decide_eq_true_eq]
  by_cases hlimit : limit < level + 1
  · have hunfit : ¬((level + 1 : Nat) : Int) ≤ limit := by omega
    rw [if_pos hlimit, if_neg hunfit, error?]
  · have hfits : ((level + 1 : Nat) : Int) ≤ limit := by omega
    rw [if_neg hlimit, if_pos hfits]
    by_cases hnesting : Scanner.nestingLimit ≤ level
    · rw [if_pos hnesting, if_pos (Nat.lt_succ_of_le hnesting), error?]
    · rw [if_neg hnesting, if_neg (by omega), error?]

/-- What a container holds is looked at once the container is open. -/
theorem error?_enter_bind {α β : Type} (limit : Int) (level : Nat) (x : Except Obstacle α)
    (f : α → β) :
    error? ((enter limit level).bind fun _ => x.map f) =
      ((Visit.opening (level + 1)).obstacle? limit).or (error? x) := by
  rw [error?_bind_map, error?_enter]

mutual

/-- **The first obstacle on the walk** decides how reading data ends. -/
theorem error?_ofData (limit : Int) (level : Nat) (data : Data) :
    error? (ofData limit level data) =
      (data.visits level).findSome? (Visit.obstacle? limit) := by
  cases data with
  | list items | tuple items =>
      rw [ofData, error?_enter_bind, error?_ofDataItems limit (level + 1) items, Data.visits,
        findSome?_cons_or]
  | dict entries =>
      rw [ofData, error?_enter_bind, error?_ofDataEntries limit (level + 1) entries, Data.visits,
        findSome?_cons_or]
  | _ => rfl

theorem error?_ofDataItems (limit : Int) (level : Nat) (items : List Data) :
    error? (ofDataItems limit level items) =
      (Data.visitsItems level items).findSome? (Visit.obstacle? limit) := by
  cases items with
  | nil => rfl
  | cons item rest =>
      rw [ofDataItems, error?_bind_map, error?_ofData limit level item,
        error?_ofDataItems limit level rest, Data.visitsItems, List.findSome?_append]

theorem error?_ofDataEntries (limit : Int) (level : Nat) (entries : List (Data × Data)) :
    error? (ofDataEntries limit level entries) =
      (Data.visitsEntries level entries).findSome? (Visit.obstacle? limit) := by
  cases entries with
  | nil => rfl
  | cons entry rest =>
      obtain ⟨key, item⟩ := entry
      cases key with
      | str key =>
          rw [ofDataEntries, error?_bind_map, error?_ofData limit level item,
            error?_ofDataEntries limit level rest, Data.visitsEntries, List.findSome?_cons,
            List.findSome?_append]
          rfl
      | _ => rfl

end

end Json

/-! ## Walks without obstacles -/

namespace Visit

variable {limit : Int}

theorem fits_leaf {data : Data} : (leaf data).fits limit = true ↔ data.isScalar = true := Iff.rfl

theorem fits_opening {depth : Nat} : (opening depth).fits limit = true ↔ (depth : Int) ≤ limit :=
  decide_eq_true_iff

theorem fits_key {data : Data} : (key data).fits limit = true ↔ data.isText = true := Iff.rfl

end Visit

namespace Data

mutual

/-- **A walk fits** exactly when the data has the shape of a JSON value and nests within the
limit. -/
theorem visits_fit (limit : Int) (level : Nat) (data : Data) :
    (∀ visit ∈ data.visits level, visit.fits limit = true) ↔
      data.IsJson ∧ (0 < data.depth → (level + data.depth : Int) ≤ limit) := by
  cases data with
  | list items | tuple items =>
      simp only [visits, List.forall_mem_cons, visitsItems_fit limit (level + 1) items,
        Visit.fits_opening, IsJson, depth]
      constructor
      · rintro ⟨hopening, hitems, hdepth⟩
        exact ⟨hitems, fun _ => by omega⟩
      · rintro ⟨hitems, hdepth⟩
        exact ⟨by omega, hitems, fun _ => by omega⟩
  | dict entries =>
      simp only [visits, List.forall_mem_cons, visitsEntries_fit limit (level + 1) entries,
        Visit.fits_opening, IsJson, depth]
      constructor
      · rintro ⟨hopening, hentries, hdepth⟩
        exact ⟨hentries, fun _ => by omega⟩
      · rintro ⟨hentries, hdepth⟩
        exact ⟨by omega, hentries, fun _ => by omega⟩
  | _ => simp [visits, Visit.fits_leaf, IsJson, depth]

theorem visitsItems_fit (limit : Int) (level : Nat) (items : List Data) :
    (∀ visit ∈ visitsItems level items, visit.fits limit = true) ↔
      AreJson items ∧ (0 < depthItems items → (level + depthItems items : Int) ≤ limit) := by
  cases items with
  | nil => simp [visitsItems, AreJson, depthItems]
  | cons item rest =>
      simp only [visitsItems, List.forall_mem_append, visits_fit limit level item,
        visitsItems_fit limit level rest, AreJson, depthItems]
      constructor
      · rintro ⟨⟨hitem, hdepth⟩, hrest, hothers⟩
        exact ⟨⟨hitem, hrest⟩, fun _ => by omega⟩
      · rintro ⟨⟨hitem, hrest⟩, hdepth⟩
        exact ⟨⟨hitem, fun _ => by omega⟩, hrest, fun _ => by omega⟩

theorem visitsEntries_fit (limit : Int) (level : Nat) (entries : List (Data × Data)) :
    (∀ visit ∈ visitsEntries level entries, visit.fits limit = true) ↔
      AreFields entries ∧
        (0 < depthEntries entries → (level + depthEntries entries : Int) ≤ limit) := by
  cases entries with
  | nil => simp [visitsEntries, AreFields, depthEntries]
  | cons entry rest =>
      obtain ⟨key, item⟩ := entry
      simp only [visitsEntries, List.forall_mem_cons, List.forall_mem_append,
        visits_fit limit level item, visitsEntries_fit limit level rest, AreFields, depthEntries,
        Visit.fits_key]
      constructor
      · rintro ⟨hkey, ⟨hitem, hdepth⟩, hrest, hothers⟩
        exact ⟨⟨hkey, hitem, hrest⟩, fun _ => by omega⟩
      · rintro ⟨⟨hkey, hitem, hrest⟩, hdepth⟩
        exact ⟨hkey, ⟨hitem, fun _ => by omega⟩, hrest, fun _ => by omega⟩

end

mutual

/-- No container on the walk is opened deeper than the data is deep. -/
theorem opening_le {level depth : Nat} {data : Data} (h : .opening depth ∈ data.visits level) :
    depth ≤ level + data.depth := by
  cases data with
  | list items | tuple items =>
      simp only [visits, List.mem_cons, Visit.opening.injEq] at h
      simp only [Data.depth]
      rcases h with rfl | h
      · omega
      · have hitems := opening_le_items h
        omega
  | dict entries =>
      simp only [visits, List.mem_cons, Visit.opening.injEq] at h
      simp only [Data.depth]
      rcases h with rfl | h
      · omega
      · have hentries := opening_le_entries h
        omega
  | _ => simp [visits] at h

theorem opening_le_items {level depth : Nat} {items : List Data}
    (h : .opening depth ∈ visitsItems level items) : depth ≤ level + depthItems items := by
  cases items with
  | nil => simp [visitsItems] at h
  | cons item rest =>
      simp only [visitsItems, List.mem_append] at h
      simp only [depthItems]
      rcases h with h | h
      · have hitem := opening_le h
        omega
      · have hrest := opening_le_items h
        omega

theorem opening_le_entries {level depth : Nat} {entries : List (Data × Data)}
    (h : .opening depth ∈ visitsEntries level entries) : depth ≤ level + depthEntries entries := by
  cases entries with
  | nil => simp [visitsEntries] at h
  | cons entry rest =>
      obtain ⟨key, item⟩ := entry
      simp only [visitsEntries, List.mem_cons, List.mem_append, reduceCtorEq, false_or] at h
      simp only [depthEntries]
      rcases h with h | h
      · have hitem := opening_le h
        omega
      · have hrest := opening_le_entries h
        omega

end

end Data

namespace Visit

variable {limit : Int} {visit : Visit}

/-- Where readers can open every container that a limit allows, only what does not fit is in the
way. -/
theorem obstacle?_eq (h : visit.fits limit = true → visit.isBeyond = false) :
    visit.obstacle? limit = if visit.fits limit then none else some visit.obstacle := by
  unfold obstacle?
  split
  · next hfits => rw [h hfits, if_neg Bool.false_ne_true]
  · rfl

/-- A container is not beyond all readers where its depth, or the limit that allows it, is not. -/
theorem not_beyond {level : Nat} {data : Data}
    (h : limit ≤ Scanner.nestingLimit ∨ level + data.depth ≤ Scanner.nestingLimit)
    (hmem : visit ∈ data.visits level) (hfits : visit.fits limit = true) :
    visit.isBeyond = false := by
  cases visit with
  | opening depth =>
      have hdepth := Data.opening_le hmem
      have hlimit := fits_opening.mp hfits
      simp only [isBeyond, decide_eq_false_iff_not]
      omega
  | leaf | key => rfl

end Visit

/-! ## How reading ends -/

namespace Json

variable {limit : Int} {level : Nat} {data : Data}

/-- The first visit that does not fit is the obstacle to reading. -/
theorem ofData_error_iff
    (h : limit ≤ Scanner.nestingLimit ∨ level + data.depth ≤ Scanner.nestingLimit)
    {obstacle : Obstacle} :
    ofData limit level data = .error obstacle ↔
      ∃ before visit after, data.visits level = before ++ visit :: after ∧
        (∀ earlier ∈ before, earlier.fits limit = true) ∧ visit.fits limit = false ∧
        visit.obstacle = obstacle := by
  have hvisits : ∀ visit ∈ data.visits level,
      visit.obstacle? limit = if visit.fits limit then none else some visit.obstacle :=
    fun visit hmem => Visit.obstacle?_eq (Visit.not_beyond h hmem)
  rw [← error?_eq_some, error?_ofData, List.findSome?_eq_some_iff]
  constructor
  · rintro ⟨before, visit, after, hwalk, hvisit, hbefore⟩
    have hhere := hvisits visit (by simp [hwalk])
    rw [hvisit] at hhere
    -- the first visit that is in the way is the first that does not fit
    refine ⟨before, visit, after, hwalk, ?_, ?_, ?_⟩
    · intro earlier hearlier
      have hfits := hvisits earlier (by simp [hwalk, hearlier])
      rw [hbefore earlier hearlier] at hfits
      by_contra hunfit
      rw [if_neg hunfit] at hfits
      cases hfits
    · by_contra hfits
      rw [if_pos (by simpa using hfits)] at hhere
      cases hhere
    · split at hhere
      · cases hhere
      · exact (Option.some.inj hhere).symm
  · rintro ⟨before, visit, after, hwalk, hbefore, hvisit, rfl⟩
    refine ⟨before, visit, after, hwalk, ?_, ?_⟩
    · rw [hvisits visit (by simp [hwalk]), hvisit, if_neg Bool.false_ne_true]
    · intro earlier hearlier
      rw [hvisits earlier (by simp [hwalk, hearlier]), if_pos (hbefore earlier hearlier)]

/-- Data is read exactly when everything on the walk fits. -/
theorem ofData_ok_iff
    (h : limit ≤ Scanner.nestingLimit ∨ level + data.depth ≤ Scanner.nestingLimit) :
    (∃ value, ofData limit level data = .ok value) ↔
      ∀ visit ∈ data.visits level, visit.fits limit = true := by
  rw [← error?_eq_none, error?_ofData, List.findSome?_eq_none_iff]
  refine forall₂_congr fun visit hmem => ?_
  rw [Visit.obstacle?_eq (Visit.not_beyond h hmem)]
  cases visit.fits limit <;> simp

end Json

/-! ## What is read -/

namespace Json

mutual

/-- **What is read** has the data itself, tuples being lists. -/
theorem toData_of_ofData {limit : Int} {level : Nat} {data : Data} {value : Json}
    (h : ofData limit level data = .ok value) : value.toData = data.listed := by
  cases data with
  | list items | tuple items =>
      obtain ⟨-, -, hitems⟩ := bind_ok.mp h
      obtain ⟨values, hvalues, rfl⟩ := map_ok.mp hitems
      rw [toData, Data.listed, toDataItems_of_ofDataItems hvalues]
  | dict entries =>
      obtain ⟨-, -, hentries⟩ := bind_ok.mp h
      obtain ⟨fields, hfields, rfl⟩ := map_ok.mp hentries
      rw [toData, Data.listed, toDataFields_of_ofDataEntries hfields]
  | null | bool | int | float | str =>
      cases h
      rfl
  | _ => cases h

theorem toDataItems_of_ofDataItems {limit : Int} {level : Nat} {items : List Data}
    {values : List Json} (h : ofDataItems limit level items = .ok values) :
    toDataItems values = Data.listedItems items := by
  cases items with
  | nil =>
      cases h
      rfl
  | cons item rest =>
      obtain ⟨value, hvalue, hrest⟩ := bind_ok.mp h
      obtain ⟨others, hothers, rfl⟩ := map_ok.mp hrest
      rw [toDataItems, Data.listedItems, toData_of_ofData hvalue,
        toDataItems_of_ofDataItems hothers]

theorem toDataFields_of_ofDataEntries {limit : Int} {level : Nat} {entries : List (Data × Data)}
    {fields : List (Text × Json)} (h : ofDataEntries limit level entries = .ok fields) :
    toDataFields fields = Data.listedEntries entries := by
  cases entries with
  | nil =>
      cases h
      rfl
  | cons entry rest =>
      obtain ⟨key, item⟩ := entry
      cases key with
      | str key =>
          obtain ⟨value, hvalue, hrest⟩ := bind_ok.mp h
          obtain ⟨others, hothers, rfl⟩ := map_ok.mp hrest
          rw [toDataFields, Data.listedEntries, toData_of_ofData hvalue,
            toDataFields_of_ofDataEntries hothers]
      | _ => cases h

end

end Json

/-! ## A reader of data -/

namespace Reader

/-- What reading data results in. -/
theorem readData_result (r : Reader) (data : Data) :
    (r.readData data).result =
      (Json.ofData r.maxDepth r.level data).mapError (Obstacle.failure r.maxDepth) := by
  unfold readData
  split <;> simp_all [Except.mapError]

variable {r : Reader} {data : Data}

theorem readData_ok {value : Json} :
    (r.readData data).result = .ok value ↔ Json.ofData r.maxDepth r.level data = .ok value := by
  rw [readData_result, mapError_ok]

theorem readData_error {failure : Unreadable} :
    (r.readData data).result = .error failure ↔
      ∃ obstacle, Json.ofData r.maxDepth r.level data = .error obstacle ∧
        obstacle.failure r.maxDepth = failure := by
  rw [readData_result]
  cases Json.ofData r.maxDepth r.level data <;> simp [Except.mapError]

end Reader

/-- Data that cannot be shown: it holds an integer that has too many digits, or a record that lacks a
field. -/
def Data.Unshown (data : Data) : Prop := data.isOverlong = true ∨ data.lacking?.isSome = true

/-- What is read is at fault for its type, unless it is data that should be shown and cannot be. -/
theorem Unreadable.concern_iff {unreadable : Unreadable} {fault : Fault}
    (h : unreadable.failure = .faulted fault) :
    fault.concern = .type ↔ ¬∃ leaf, unreadable = .unsupported leaf ∧ leaf.Unshown := by
  cases unreadable with
  | invalid error => cases h
  | keyNotString key =>
      cases h
      simp [Fault.concern, Fault.isOverlong, Fault.lacking?, Fault.ownConcern]
  | unsupported data =>
      cases h
      cases hlong : data.isOverlong <;> cases hlacking : data.lacking? <;>
        simp [Fault.concern, Fault.isOverlong, Fault.lacking?, Fault.ownConcern, Data.Unshown,
          hlong, hlacking]

/-- **Exactly the data in the shape of a JSON value is read**, up to the depth limit: what is read
is that data, with lists for tuples; the first visit on the walk that does not fit decides the
failure, which is one of the type, if none of the depth, unless what is in the way cannot be shown;
and the data of a value is read as that value. The depth that no reader can handle is left aside. -/
theorem Input.data_read_iff (limit : Int) (data : Data)
    (hdepth : limit ≤ Scanner.nestingLimit ∨ data.depth ≤ Scanner.nestingLimit) :
    ((∃ value, ((Input.data data).read limit).result = .ok value) ↔
      data.IsJson ∧ data.NestsWithin limit) ∧
    (∀ value, ((Input.data data).read limit).result = .ok value → value.toData = data.listed) ∧
    (∀ failure, ((Input.data data).read limit).result = .error failure ↔
      ∃ before visit after, data.visits 0 = before ++ visit :: after ∧
        (∀ earlier ∈ before, earlier.fits limit = true) ∧ visit.fits limit = false ∧
        visit.obstacle.failure limit = failure) ∧
    (∀ unreadable fault, ((Input.data data).read limit).result = .error unreadable →
      unreadable.failure = .faulted fault →
      (fault.concern = .type ↔ ¬∃ leaf, unreadable = .unsupported leaf ∧ leaf.Unshown)) ∧
    ∀ value : Json, (value.depth : Int) ≤ limit → value.depth ≤ Scanner.nestingLimit →
      ((Input.data value.toData).read limit).result = .ok value := by
  have hlevel : limit ≤ Scanner.nestingLimit ∨ 0 + data.depth ≤ Scanner.nestingLimit := by
    rwa [Nat.zero_add]
  have hok {input : Data} {value : Json} :
      ((Input.data input).read limit).result = .ok value ↔ Json.ofData limit 0 input = .ok value :=
    Reader.readData_ok
  refine ⟨?_, ?_, ?_, fun _ _ _ hfault => Unreadable.concern_iff hfault, ?_⟩
  · simp only [hok, Json.ofData_ok_iff hlevel, Data.visits_fit, Data.NestsWithin,
      Int.natCast_zero, Int.zero_add]
  · intro value hvalue
    exact Json.toData_of_ofData (hok.mp hvalue)
  · intro failure
    rw [Input.read, Reader.readData_error]
    simp only [Reader.fresh, Json.ofData_error_iff hlevel]
    constructor
    · rintro ⟨_, ⟨before, visit, after, hwalk, hbefore, hvisit, rfl⟩, hfailure⟩
      exact ⟨before, visit, after, hwalk, hbefore, hvisit, hfailure⟩
    · rintro ⟨before, visit, after, hwalk, hbefore, hvisit, hfailure⟩
      exact ⟨_, ⟨before, visit, after, hwalk, hbefore, hvisit, rfl⟩, hfailure⟩
  · intro value hlimit hnesting
    exact hok.mpr (Json.ofData_toData (by simpa using hlimit) (by simpa using hnesting))

/-- A key that is no text is in the way before the set under it, and a third container before both
of them; without these the data is read. -/
theorem Input.data_read_iff_for_dictionaries :
    let text (key : String) : Data := .str (Text.lit key)
    let pair : Data := .dict [(text "a", .tuple [.bool true, .int 1])]
    let data : Data := .list [pair, .dict [(.int 1, .set [])]]
    ((Input.data data).read 3).result = .error (.keyNotString (.int 1)) ∧
    ((Input.data data).read 2).result = .error (.invalid (.nesting 2)) ∧
    (∃ value, ((Input.data pair).read 2).result = .ok value) ∧
    ∀ value, ((Input.data pair).read 2).result = .ok value →
      value.toData = .dict [(text "a", .list [.bool true, .int 1])] := by
  intro text pair data
  refine ⟨?_, ?_, ?_, ?_⟩
  · refine ((data_read_iff 3 data (.inl (by decide))).2.2.1 _).mpr
      ⟨[.opening 1, .opening 2, .key (text "a"), .opening 3, .leaf (.bool true), .leaf (.int 1),
        .opening 2], .key (.int 1), [.leaf (.set [])], rfl, by decide, rfl, rfl⟩
  · refine ((data_read_iff 2 data (.inr (by decide))).2.2.1 _).mpr
      ⟨[.opening 1, .opening 2, .key (text "a")], .opening 3,
        [.leaf (.bool true), .leaf (.int 1), .opening 2, .key (.int 1), .leaf (.set [])], rfl,
        by decide, rfl, rfl⟩
  · exact (data_read_iff 2 pair (.inl (by decide))).1.mpr
      ⟨⟨rfl, ⟨rfl, rfl, trivial⟩, trivial⟩, fun _ => by decide⟩
  · exact (data_read_iff 2 pair (.inl (by decide))).2.1

/-- A set is not refused for its type where the message would have to show too great an integer. -/
theorem Input.unshown_set_is_not_refused : ∃ great : Nat, great = 10 ^ Text.digitLimit ∧
    let data : Data := .set [.int great]
    ∃ unreadable fault, ((Input.data data).read 100).result = .error unreadable ∧
      unreadable.failure = .faulted fault ∧ fault.concern = .value := by
  obtain ⟨great, hgreat⟩ : ∃ great : Nat, great = 10 ^ Text.digitLimit := ⟨_, rfl⟩
  have hlong := Text.isOverlong_of_eq hgreat
  refine ⟨great, hgreat, _, _, rfl, rfl, ?_⟩
  simp [Fault.concern, Fault.isOverlong, Data.isOverlong, Data.anyOverlong, hlong]

end JsonDecoding
