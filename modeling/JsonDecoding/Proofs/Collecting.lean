import JsonDecoding.Proofs.EqualData
import JsonDecoding.Proofs.Failures
import JsonDecoding.Proofs.Numerals

/-!
# Sets of decoded elements

A set specification decodes the items of an array as an array specification does, and only then
makes a set of them. So an item that does not decode decides before data that has no hash, wherever
they stand. A set has for each item the first of all that equal it: positions of such firsts are
`Data.firsts`, and each item has exactly one of them (`Data.Collects`). What all this comes to is
`Decoder.sets_collect_first_elements`.
-/

namespace JsonDecoding

open Attempt Decoder

namespace Data

variable {data : List Data}

/-! ## What no set can hold -/

/-- Data that no set can hold: containers that can change, instances that can, numbers that signal,
and records that lack a field, also inside tuples and frozen records. -/
inductive Hashless : Data → Prop where
  | list (items : List Data) : Hashless (.list items)
  | dict (entries : List (Data × Data)) : Hashless (.dict entries)
  | set (items : List Data) : Hashless (.set items)
  | model (className : Text) (fields : List (Text × Data)) (given : List Text) :
      Hashless (.model className fields given)
  | record (className : Text) (fields : List (Text × Data)) (lacking : List Text) :
      Hashless (.record className false fields lacking)
  | lacking (className : Text) (fields : List (Text × Data)) (field : Text)
      (others : List Text) : Hashless (.record className true fields (field :: others))
  | signalling (negative : Bool) (payload mark : Nat) :
      Hashless (.nonFinite (.undefined negative true payload mark))
  | inTuple {items : List Data} {item : Data} (hmem : item ∈ items) (h : Hashless item) :
      Hashless (.tuple items)
  | inFrozen {className : Text} {fields : List (Text × Data)} {field : Text × Data}
      (hmem : field ∈ fields) (h : Hashless field.2) : Hashless (.record className true fields [])

/-- **What has no hash** is what has a reason for it. -/
theorem hashless_iff {d : Data} : d.Hashless ↔ d.unhashable? ≠ none := by
  constructor
  · intro h
    induction h with
    | list | dict | set | model | record | lacking | signalling => simp [unhashable?]
    | @inTuple items item hmem _ ih =>
        intro hnone
        exact ih (unhashableItem?_eq_none.mp hnone item hmem)
    | inFrozen hmem _ ih =>
        intro hnone
        exact ih (unhashable?_of_record hnone hmem)
  · intro h
    induction hsize : sizeOf d using Nat.strong_induction_on generalizing d with
    | _ n ih =>
      subst hsize
      cases d with
      | list => exact .list _
      | dict => exact .dict _
      | set => exact .set _
      | model => exact .model _ _ _
      | tuple items =>
          obtain ⟨item, hitem, hreason⟩ : ∃ item ∈ items, item.unhashable? ≠ none := by
            by_contra hall
            refine h (unhashableItem?_eq_none.mpr fun item hitem => ?_)
            by_contra hreason
            exact hall ⟨item, hitem, hreason⟩
          exact .inTuple hitem (ih _ (sizeOf_item_lt hitem) hreason rfl)
      | record className frozen fields lacking =>
          cases frozen with
          | false => exact .record _ _ _
          | true =>
              cases lacking with
              | cons field others => exact .lacking _ _ field others
              | nil =>
                  obtain ⟨field, hfield, hreason⟩ :
                      ∃ field ∈ fields, field.2.unhashable? ≠ none := by
                    by_contra hall
                    refine h (unhashableField?_eq_none.mpr fun field hfield => ?_)
                    by_contra hreason
                    exact hall ⟨field, hfield, hreason⟩
                  exact .inFrozen hfield (ih _ (sizeOf_field_lt hfield) hreason rfl)
      | nonFinite value =>
          cases value with
          | infinite => exact (h rfl).elim
          | undefined negative signals payload mark =>
              cases signals with
              | true => exact .signalling _ _ _
              | false => exact (h rfl).elim
      | _ => exact (h rfl).elim

/-! ## Firsts -/

/-- The data at positions where nothing in front is equal, with these positions. -/
def firsts (data : List Data) : List (Data × Nat) :=
  data.zipIdx.filter fun entry => !(data.take entry.2).any fun earlier => entry.1 == earlier

/-- A first stands for a datum at a position: it is this one, or equals it. -/
def StandsFor (first entry : Data × Nat) : Prop := first = entry ∨ (entry.1 == first.1) = true

/-- The members of a set collect data: they are its firsts, and each datum has exactly one that
stands for it, none of those behind which it comes. -/
structure Collects (members data : List Data) : Prop where
  perm : members.Perm ((firsts data).map Prod.fst)
  covers : ∀ entry ∈ data.zipIdx, ∃ first ∈ firsts data, StandsFor first entry ∧
    ∀ other ∈ firsts data, StandsFor other entry → other = first
  first : ∀ first ∈ firsts data, ∀ entry ∈ data.zipIdx, StandsFor first entry → first.2 ≤ entry.2

theorem mem_firsts {entry : Data × Nat} :
    entry ∈ firsts data ↔
      entry ∈ data.zipIdx ∧ ∀ earlier ∈ data.take entry.2, (entry.1 == earlier) = false := by
  simp [firsts]

/-- Data in front of a position is at a position before it. -/
theorem mem_take_iff {d : Data} {n : Nat} :
    d ∈ data.take n ↔ ∃ m < n, (d, m) ∈ data.zipIdx := by
  rw [List.mem_iff_getElem?]
  constructor
  · intro h
    obtain ⟨m, hm⟩ := h
    by_cases hlt : m < n
    · rw [List.getElem?_take_of_lt hlt] at hm
      exact ⟨m, hlt, List.mk_mem_zipIdx_iff_getElem?.mpr hm⟩
    · rw [List.getElem?_take_eq_none (by omega)] at hm
      cases hm
  · intro h
    obtain ⟨m, hlt, hm⟩ := h
    exact ⟨m, by rw [List.getElem?_take_of_lt hlt, List.mk_mem_zipIdx_iff_getElem?.mp hm]⟩

/-- A first equals nothing in front of it. -/
theorem le_of_same {first other : Data × Nat} (hfirst : first ∈ firsts data)
    (hother : other ∈ data.zipIdx) (h : (first.1 == other.1) = true) : first.2 ≤ other.2 := by
  by_contra hlt
  have hfalse := (mem_firsts.mp hfirst).2 other.1
    (mem_take_iff.mpr ⟨other.2, by omega, hother⟩)
  rw [h] at hfalse
  cases hfalse

/-- Data at one position is one. -/
theorem eq_of_position_eq {entry other : Data × Nat} (hentry : entry ∈ data.zipIdx)
    (hother : other ∈ data.zipIdx) (h : entry.2 = other.2) : entry = other := by
  rw [List.mem_zipIdx_iff_getElem?] at hentry hother
  rw [h, hother] at hentry
  exact Prod.ext (Option.some.inj hentry).symm h

section Keys

variable (hkeys : ∀ d ∈ data, d.unhashable? = none)

include hkeys

theorem unhashable?_of_entry {entry : Data × Nat} (h : entry ∈ data.zipIdx) :
    entry.1.unhashable? = none := hkeys _ (List.fst_mem_of_mem_zipIdx h)

/-- What stands for a datum stands for what equals it. -/
theorem StandsFor.of_same {first entry other : Data × Nat} (h : StandsFor first entry)
    (hentry : entry ∈ data.zipIdx) (hother : other ∈ data.zipIdx)
    (hsame : (other.1 == entry.1) = true) : StandsFor first other := by
  rcases h with rfl | hequal
  · exact .inr hsame
  · exact .inr (same_trans (unhashable?_of_entry hkeys hother)
      (unhashable?_of_entry hkeys hentry) hsame hequal)

/-- Every datum has a first that stands for it: equal ones lead to the front. -/
theorem exists_first {entry : Data × Nat} (hentry : entry ∈ data.zipIdx) :
    ∃ first ∈ firsts data, StandsFor first entry := by
  obtain ⟨d, n⟩ := entry
  induction n using Nat.strong_induction_on generalizing d with
  | _ n ih =>
    by_cases hearlier : ∃ earlier ∈ data.take n, (d == earlier) = true
    · obtain ⟨earlier, hmem, hequal⟩ := hearlier
      obtain ⟨m, hlt, hposition⟩ := mem_take_iff.mp hmem
      obtain ⟨first, hfirst, hstands⟩ := ih m hlt earlier hposition
      exact ⟨first, hfirst,
        hstands.of_same hkeys hposition hentry hequal⟩
    · refine ⟨(d, n), mem_firsts.mpr ⟨hentry, fun earlier hmem => ?_⟩, .inl rfl⟩
      by_contra hequal
      exact hearlier ⟨earlier, hmem, by simpa using hequal⟩

/-- Firsts that are equal are one. -/
theorem first_unique {first other : Data × Nat} (hfirst : first ∈ firsts data)
    (hother : other ∈ firsts data) (h : (first.1 == other.1) = true) : other = first := by
  have hposition := (mem_firsts.mp hfirst).1
  have hotherPosition := (mem_firsts.mp hother).1
  have hback : (other.1 == first.1) = true :=
    same_symm (unhashable?_of_entry hkeys hposition) h
  have hle := le_of_same hfirst hotherPosition h
  have hge := le_of_same hother hposition hback
  exact eq_of_position_eq hotherPosition hposition (by omega)

/-- A datum has one first that stands for it. -/
theorem StandsFor.unique {first other entry : Data × Nat} (hfirst : first ∈ firsts data)
    (hother : other ∈ firsts data) (hentry : entry ∈ data.zipIdx) (h : StandsFor first entry)
    (hotherStands : StandsFor other entry) : other = first := by
  rcases h with rfl | hsame
  · rcases hotherStands with rfl | hequal
    · rfl
    · exact first_unique hkeys hfirst hother hequal
  · have hback : (first.1 == entry.1) = true :=
      same_symm (unhashable?_of_entry hkeys hentry) hsame
    have hboth := hotherStands.of_same hkeys hentry (mem_firsts.mp hfirst).1 hback
    rcases hboth with rfl | hequal
    · rfl
    · exact first_unique hkeys hfirst hother hequal

/-- A first comes before all that it stands for. -/
theorem StandsFor.le {first entry : Data × Nat} (hfirst : first ∈ firsts data)
    (hentry : entry ∈ data.zipIdx) (h : StandsFor first entry) : first.2 ≤ entry.2 := by
  rcases h with rfl | hsame
  · exact Nat.le_refl _
  · exact le_of_same hfirst hentry (same_symm (unhashable?_of_entry hkeys hentry) hsame)

/-- What equals a datum equals a first. -/
theorem any_firsts {d : Data} (hd : d.unhashable? = none) :
    ((firsts data).map Prod.fst).any (fun k => d == k) = data.any fun k => d == k := by
  rw [Bool.eq_iff_iff, List.any_eq_true, List.any_eq_true]
  constructor
  · rintro ⟨k, hk, hequal⟩
    obtain ⟨first, hfirst, rfl⟩ := List.mem_map.mp hk
    exact ⟨first.1, List.fst_mem_of_mem_zipIdx (mem_firsts.mp hfirst).1, hequal⟩
  · rintro ⟨k, hk, hequal⟩
    obtain ⟨n, hn⟩ := List.mem_iff_getElem?.mp hk
    have hposition : (k, n) ∈ data.zipIdx := List.mk_mem_zipIdx_iff_getElem?.mpr hn
    obtain ⟨first, hfirst, hstands⟩ := exists_first hkeys hposition
    refine ⟨first.1, List.mem_map_of_mem hfirst, ?_⟩
    rcases hstands with rfl | hsame
    · exact hequal
    · exact same_trans hd (hkeys k hk) hequal hsame

end Keys

theorem firsts_concat (data : List Data) (d : Data) :
    firsts (data ++ [d]) =
      firsts data ++ if data.any fun k => d == k then [] else [(d, data.length)] := by
  have hfront : (data.zipIdx.filter fun entry =>
      !((data ++ [d]).take entry.2).any fun earlier => entry.1 == earlier) = firsts data := by
    refine List.filter_congr fun entry hentry => ?_
    have hlt : entry.2 < data.length := by
      rw [List.mem_zipIdx_iff_getElem?] at hentry
      exact (List.getElem?_eq_some_iff.mp hentry).1
    rw [List.take_append_of_le_length (by omega)]
  rw [firsts, List.zipIdx_append, List.filter_append, hfront]
  congr 1
  by_cases hany : (data.any fun k => d == k) = true
  · simp [hany]
  · simp [hany]

theorem distinct_concat (data : List Data) (d : Data) :
    distinct (data ++ [d]) =
      if (distinct data).any fun k => d == k then distinct data else distinct data ++ [d] := by
  rw [distinct, List.foldl_append]
  rfl

/-- **The distinct ones are the firsts**, where all can be keys. -/
theorem distinct_eq_firsts (hkeys : ∀ d ∈ data, d.unhashable? = none) :
    distinct data = (firsts data).map Prod.fst := by
  induction data using List.reverseRecOn with
  | nil => rfl
  | append_singleton data d ih =>
      have hfront : ∀ k ∈ data, k.unhashable? = none := fun k hk => hkeys k (by simp [hk])
      rw [distinct_concat, firsts_concat, ih hfront, any_firsts hfront (hkeys d (by simp))]
      split <;> simp

/-- **Sets collect the firsts** of data that can be keys. -/
theorem collects_arranged (hkeys : ∀ d ∈ data, d.unhashable? = none) :
    Collects (arranged (distinct data)) data where
  perm := by
    rw [← distinct_eq_firsts hkeys]
    exact arranged_perm _
  covers entry hentry := by
    obtain ⟨first, hfirst, hstands⟩ := exists_first hkeys hentry
    exact ⟨first, hfirst, hstands,
      fun other hother => hstands.unique hkeys hfirst hother hentry⟩
  first _ hfirst _ hentry hstands := hstands.le hkeys hfirst hentry

end Data

/-! ## Arrays and sets -/

/-- A failure with another description for its outermost frame. -/
def DecodeError.renamed (description : Text) (e : DecodeError) : DecodeError :=
  match e.frames with
  | [] => e
  | frame :: rest => ⟨e.cause, ⟨description, frame.seen, frame.location⟩ :: rest⟩

/-- A stop with another description for the outermost frame of a failure. -/
def Stop.renamed (description : Text) : Stop → Stop
  | .failed e => .failed (e.renamed description)
  | stop => stop

namespace Attempt

variable {α β : Type} {t : Attempt α} {u : Attempt β} {stop : Stop}

/-- The same stop under two descriptions differs by them alone. -/
theorem framed_of_same_stop (ht : t.result = .error stop) (hu : u.result = .error stop)
    (room : Nat) (description other : Text) (value : Json) :
    ∃ framed, (t.framed room description value).result = .error framed ∧
      (u.framed room other value).result = .error (framed.renamed other) := by
  simp only [framed, result_mapStop, ht, hu, Except.mapError]
  cases stop with
  | failed e =>
      refine ⟨_, rfl, ?_⟩
      simp only [shownAs]
      cases hunshown : unshown? room value with
      | none => rfl
      | some stop => rcases unshown?_eq_some hunshown with rfl | ⟨rfl, -⟩ <;> rfl
  | faulted | exhausted => exact ⟨_, rfl, rfl⟩

/-- The same stop of two specifications with the same flaw, if any, differs by their descriptions. -/
theorem framedBy_of_same_stop (ht : t.result = .error stop) (hu : u.result = .error stop)
    {spec other : Spec} (hflaw : spec.flaw? = other.flaw?) (room : Nat) (value : Json) :
    ∃ framed, (t.framedBy room spec value).result = .error framed ∧
      (u.framedBy room other value).result = .error (framed.renamed other.describe) := by
  cases hspec : spec.flaw? with
  | none =>
      rw [framedBy_of_hasDescription hspec, framedBy_of_hasDescription (hflaw.symm.trans hspec)]
      exact framed_of_same_stop ht hu room _ _ value
  | some flaw =>
      simp only [framedBy, result_mapStop, ht, hu, Except.mapError, hspec, ← hflaw]
      cases stop <;> exact ⟨_, rfl, rfl⟩

end Attempt

namespace Decoder

variable {registry : Registry} {element : Spec}

theorem decode_arrayOf (room : Nat) (items : List Json) :
    decode registry (room + 1) (.arrayOf element) (.array items) =
      ((elements (decode registry room element) 0 items).map .list).framedBy room
        (.arrayOf element) (.array items) := rfl

theorem decode_setOf (room : Nat) (items : List Json) :
    decode registry (room + 1) (.setOf element) (.array items) =
      ((elements (decode registry room element) 0 items).bind
        (setOf (.setOf element) (.array items))).framedBy room (.setOf element) (.array items) := rfl

/-- Items of which one does not decode stop. -/
theorem exists_stop_of_not_ok {step : Json → Attempt Data} {items : List Json}
    (h : ∃ item ∈ items, ∀ d, (step item).result ≠ .ok d) :
    ∃ stop, (elements step 0 items).result = .error stop := by
  obtain ⟨item, hitem, hnot⟩ := h
  cases hresult : (elements step 0 items).result with
  | error stop => exact ⟨stop, rfl⟩
  | ok data =>
      obtain ⟨d, -, hd⟩ := Outcomes.exists_of_forall₂ (elements_ok.mp hresult) hitem
      exact (hnot d hd).elim

/-- Making a set leaves no records. -/
theorem log_setOf (spec : Spec) (value : Json) (data : List Data) :
    (setOf spec value data).log = [] := by
  unfold setOf describable
  repeat' split
  all_goals rfl

/-- How a set stops of which an element has no hash: its array is refused, if the set can be
described and the array shown. -/
def unhashed (room : Nat) (whole : Spec) (value : Json) (detail : Text) : Stop :=
  match whole.flaw? with
  | some flaw => .faulted (.ofFlaw flaw)
  | none =>
      (unshown? room value).getD
        (.failed ⟨.invalid whole.describe value detail, [⟨whole.describe, value.seen, none⟩]⟩)

/-- Data of which one has no hash is refused as a whole, unless the first such lacks a field. -/
theorem framedBy_setOf_of_hashless {data : List Data} (hhashless : ∃ d ∈ data, d.Hashless)
    (hlacking : ∀ className field,
      Data.unhashableItem? data ≠ some (.lacking className field))
    (room : Nat) (whole : Spec) (value : Json) :
    ∃ detail, ((setOf whole value data).framedBy room whole value).result =
      .error (unhashed room whole value detail) := by
  obtain ⟨d, hd, hhashless⟩ := hhashless
  cases hreason : Data.unhashableItem? data with
  | none =>
      have hhash := Data.unhashableItem?_eq_none.mp hreason d hd
      exact (Data.hashless_iff.mp hhashless hhash).elim
  | some reason =>
      refine ⟨Text.lit "set elements must be hashable (" ++ reason.message ++ Text.lit ")", ?_⟩
      have hmade : setOf whole value data = describable whole (.refuse (.invalid whole.describe value
          (Text.lit "set elements must be hashable (" ++ reason.message ++ Text.lit ")"))) := by
        cases reason with
        | lacking className field => exact (hlacking className field hreason).elim
        | kind | signalling => simp only [setOf, hreason]
      rw [hmade]
      cases hflaw : whole.flaw? with
      | none =>
          rw [framedBy_of_hasDescription hflaw, describable_of_hasDescription hflaw]
          simp only [unhashed, hflaw, framed, result_mapStop, refuse, stopped, Except.mapError,
            shownAs]
          rfl
      | some flaw =>
          simp only [describable, hflaw, framedBy, result_mapStop, Attempt.fault, stopped,
            Except.mapError, unhashed]

/-- Data that all has a hash becomes a set. -/
theorem setOf_of_keys (spec : Spec) (value : Json) {data : List Data}
    (h : ∀ d ∈ data, d.unhashable? = none) :
    setOf spec value data = .done (Data.setOf data) := by
  simp only [setOf, Data.unhashableItem?_eq_none.mpr h]

/-- **Sets collect the first of equal elements.** An array of which an item does not decode stops a
set specification where it stops an array specification, with another description outermost. If all
items decode and one of them to something without a hash, the whole array is refused, if that can be
told; a record that lacks a field, where it is the first without a hash, is a fault. If all have a
hash, the outcome is a set with the first of all equal data for each item. Both specifications leave
the same records. -/
theorem sets_collect_first_elements (registry : Registry) (element : Spec) (room : Nat)
    (items : List Json) :
    (decode registry (room + 1) (.setOf element) (.array items)).log =
      (decode registry (room + 1) (.arrayOf element) (.array items)).log ∧
    ((∃ item ∈ items, ∀ d, (decode registry room element item).result ≠ .ok d) →
      ∃ stop, (decode registry (room + 1) (.arrayOf element) (.array items)).result = .error stop ∧
        (decode registry (room + 1) (.setOf element) (.array items)).result =
          .error (stop.renamed (Spec.setOf element).describe)) ∧
    ∀ data, List.Forall₂ (fun item d => (decode registry room element item).result = .ok d)
        items data →
      (∀ className field, Data.unhashableItem? data = some (.lacking className field) →
        (decode registry (room + 1) (.setOf element) (.array items)).result = .error (.faulted
          (.complaint ⟨.attribute, (Data.Unhashable.lacking className field).message⟩))) ∧
      ((∃ d ∈ data, d.Hashless) →
        (∀ className field, Data.unhashableItem? data ≠ some (.lacking className field)) →
        ∃ detail, (decode registry (room + 1) (.setOf element) (.array items)).result =
          .error (unhashed room (.setOf element) (.array items) detail)) ∧
      ((∀ d ∈ data, ¬d.Hashless) →
        ∃ members, (decode registry (room + 1) (.setOf element) (.array items)).result =
          .ok (.set members) ∧ Data.Collects members data) := by
  rw [decode_setOf, decode_arrayOf]
  refine ⟨?_, ?_, ?_⟩
  · show ((elements _ 0 items).bind _).log = (elements (decode registry room element) 0 items).log
    rw [Attempt.bind]
    split
    · simp [log_setOf]
    · rfl
  · intro hnot
    obtain ⟨stop, hstop⟩ := exists_stop_of_not_ok hnot
    have hflaw : (Spec.arrayOf element).flaw? = (Spec.setOf element).flaw? := rfl
    exact framedBy_of_same_stop (map_error.mpr hstop) (bind_error.mpr (.inl hstop)) hflaw _ _
  · intro data hdata
    -- with all items decoded it is the set that decides
    have hset : (((elements (decode registry room element) 0 items).bind
        (setOf (.setOf element) (.array items))).framedBy room (.setOf element)
          (.array items)).result =
        ((setOf (.setOf element) (.array items) data).framedBy room (.setOf element)
          (.array items)).result := by
      rw [framedBy, framedBy, result_mapStop, result_mapStop, result_bind, elements_ok.mpr hdata]
      rfl
    rw [hset]
    refine ⟨fun className field hlacking => ?_, fun hhashless hlacking => ?_, fun hall => ?_⟩
    · simp only [setOf, hlacking, framedBy, result_mapStop, Attempt.fault, stopped, Except.mapError]
    · exact framedBy_setOf_of_hashless hhashless hlacking room _ _
    · have hkeys : ∀ d ∈ data, d.unhashable? = none := by
        intro d hd
        by_contra hreason
        exact hall d hd (Data.hashless_iff.mpr hreason)
      rw [setOf_of_keys _ _ hkeys]
      exact ⟨_, rfl, Data.collects_arranged hkeys⟩

/-- Of a truth value and two numbers that equal it the first stays, and so does a text. -/
theorem sets_collect_first_elements_for_ones :
    let one : Binary64 := .finite false 1023 0
    let items : List Json :=
      [.boolean true, .number (.int 1), .number (.float one), .string (Text.lit "a")]
    ∃ members, (decode .empty 4 (.setOf .any) (.array items)).result = .ok (.set members) ∧
      members.Perm [.bool true, .str (Text.lit "a")] := by
  intro one items
  let data : List Data := [.bool true, .int 1, .float one, .str (Text.lit "a")]
  obtain ⟨-, -, hcollect⟩ := sets_collect_first_elements .empty .any 3 items
  obtain ⟨-, -, hcollects⟩ := hcollect data (.cons rfl (.cons rfl (.cons rfl (.cons rfl .nil))))
  have hkeys : ∀ d ∈ data, ¬d.Hashless := by
    have hhash : Data.unhashableItem? data = none := by decide +kernel
    exact fun d hd h => Data.hashless_iff.mp h (Data.unhashableItem?_eq_none.mp hhash d hd)
  obtain ⟨members, hmembers, hperm, -, -⟩ := hcollects hkeys
  have hfirsts : Data.firsts data = [(.bool true, 0), (.str (Text.lit "a"), 3)] := by
    have hint : (Data.int 1 == Data.bool true) = true := by decide +kernel
    have hfloat : (Data.float one == Data.bool true) = true := by decide +kernel
    have htext : (data.take 3).any (fun d => Data.str (Text.lit "a") == d) = false := by
      decide +kernel
    simp_all [data, Data.firsts]
  rw [hfirsts] at hperm
  exact ⟨members, hmembers, hperm⟩

/-- An empty array is no element of a set, but a set of arrays of a kind whose name shows too great an
integer cannot be refused. -/
theorem set_of_unnamed_is_not_refused : ∃ great : Nat, great = 10 ^ Text.digitLimit ∧
    (decode .empty 4 (.setOf (.arrayOf (.custom (.token (.int great)) [])))
      (.array [.array []])).result = .error (.faulted .overlong) := by
  obtain ⟨great, hgreat⟩ : ∃ great : Nat, great = 10 ^ Text.digitLimit := ⟨_, rfl⟩
  refine ⟨great, hgreat, ?_⟩
  let element : Spec := .arrayOf (.custom (.token (.int great)) [])
  have hflaw : (Spec.setOf element).flaw? = some .overlong := by
    have hlong := Text.isOverlong_of_eq hgreat
    simp [element, Spec.flaw?, Spec.isNameable, Spec.isOverlong, Data.isOverlong, hlong]
  have hitems : (elements (decode .empty 3 element) 0 [.array []]).result = .ok [.list []] := rfl
  have hset : setOf (.setOf element) (.array [.array []]) [.list []] = .fault .overlong := by
    simp only [setOf, Data.unhashableItem?, Data.unhashable?, Option.or, describable, hflaw]
    rfl
  show (decode .empty 4 (.setOf element) (.array [.array []])).result = _
  rw [decode_setOf, framedBy, result_mapStop, result_bind, hitems]
  simp only [Except.bind, hset, Attempt.fault, stopped, Except.mapError]

end Decoder

end JsonDecoding
