import JsonDecoding.Proofs.Hashable
import JsonDecoding.Proofs.Slots

/-!
# Equal parts make equal data

Lists, tuples, dictionaries and sets of equal parts are equal. For sets this takes most: equal
elements are merged alike on both sides (`Data.same_distinct`), and none is lost on the way to its
slot (`SlotTable.arranged_perm`), so each element of one has an equal one in the other
(`Data.same_setOf`).
-/

namespace JsonDecoding

/-- Lists of one length in which every member is related to one of the other list. -/
structure Matched {α β : Type} (R : α → β → Prop) (as : List α) (bs : List β) : Prop where
  length : as.length = bs.length
  first : ∀ a ∈ as, ∃ b ∈ bs, R a b
  second : ∀ b ∈ bs, ∃ a ∈ as, R a b

theorem Matched.flip {α β : Type} {R : α → β → Prop} {S : β → α → Prop} {as : List α}
    {bs : List β} (h : Matched R as bs) (hflip : ∀ a b, R a b → S b a) : Matched S bs as where
  length := h.length.symm
  first b hb := (h.second b hb).imp fun _ ⟨ha, hab⟩ => ⟨ha, hflip _ _ hab⟩
  second a ha := (h.first a ha).imp fun _ ⟨hb, hab⟩ => ⟨hb, hflip _ _ hab⟩

theorem Matched.of_forall₂ {α β : Type} {R : α → β → Prop} {as : List α} {bs : List β}
    (h : List.Forall₂ R as bs) : Matched R as bs :=
  ⟨h.length_eq, fun _ => Outcomes.exists_of_forall₂ h, fun _ => Outcomes.exists_of_forall₂ h.flip⟩

namespace Data

/-! ## Lawful data -/

/-- The data that data is made of. -/
def members : Data → List Data
  | .list items => items
  | .tuple items => items
  | .set items => items
  | .dict entries => entries.flatMap fun entry => [entry.1, entry.2]
  | .record _ _ fields _ => fields.map Prod.snd
  | .model _ fields _ => fields.map Prod.snd
  | .labelled _ _ content => [content]
  | _ => []

/-- Data as it really is, at any depth: records are frozen as their classes are, and lack no field,
which equality would ask for. -/
inductive Lawful (frozen : Text → Bool) : Data → Prop where
  | of {data : Data} (hfrozen : data.FrozenAs frozen)
      (hwhole : ∀ className isFrozen fields lacking,
        data = .record className isFrozen fields lacking → lacking = [])
      (hmembers : ∀ member ∈ data.members, Lawful frozen member) : Lawful frozen data

variable {frozen : Text → Bool}

namespace Lawful

theorem frozenAs {data : Data} (h : data.Lawful frozen) : data.FrozenAs frozen := by
  obtain ⟨hfrozen, -⟩ := h
  exact hfrozen

/-- What keeps lawful data from being a key is never that a record lacks a field. -/
theorem unhashable?_ne_lacking {data : Data} (h : data.Lawful frozen) (className field : Text) :
    data.unhashable? ≠ some (.lacking className field) := by
  induction h with
  | @of data hfrozen hwhole hmembers ih =>
      intro hlacking
      cases data with
      | tuple items =>
          obtain ⟨item, hitem, hreason⟩ := exists_of_unhashableItem? hlacking
          exact ih item hitem hreason
      | record name isFrozen fields lacking =>
          obtain rfl := hwhole _ _ _ _ rfl
          cases isFrozen with
          | false => simp [unhashable?] at hlacking
          | true =>
              obtain ⟨entry, hentry, hreason⟩ := exists_of_unhashableField? hlacking
              exact ih entry.2 (List.mem_map_of_mem hentry) hreason
      | nonFinite value =>
          rcases value with _ | ⟨_, _ | _, _, _⟩ <;> simp [unhashable?] at hlacking
      | _ => simp [unhashable?] at hlacking

theorem list {items : List Data} (h : ∀ item ∈ items, item.Lawful frozen) :
    (list items).Lawful frozen :=
  .of (.of_no_parts (by simp) rfl) (by simp) h

theorem set {items : List Data} (h : ∀ item ∈ items, item.Lawful frozen) :
    (set items).Lawful frozen :=
  .of (.of_no_parts (by simp) rfl) (by simp) h

theorem tuple {items : List Data} (h : ∀ item ∈ items, item.Lawful frozen) :
    (tuple items).Lawful frozen :=
  .of (.of (by simp) fun item hitem => (h item hitem).frozenAs) (by simp) h

theorem dict {entries : List (Data × Data)}
    (h : ∀ entry ∈ entries, entry.1.Lawful frozen ∧ entry.2.Lawful frozen) :
    (dict entries).Lawful frozen := by
  refine .of (.of_no_parts (by simp) rfl) (by simp) fun member hmember => ?_
  obtain ⟨entry, hentry, hmem⟩ := List.mem_flatMap.mp hmember
  obtain ⟨hkey, hvalue⟩ := h entry hentry
  simp only [List.mem_cons, List.not_mem_nil, or_false] at hmem
  rcases hmem with rfl | rfl
  · exact hkey
  · exact hvalue

theorem str (text : Text) : (str text).Lawful frozen :=
  .of (.of_no_parts (by simp) rfl) (by simp) (by simp [members])

end Lawful

/-! ## Lists, tuples and dictionaries -/

theorem same_str (text : Text) : same (.str text) (.str text) = true := by
  rw [same, beq_self_eq_true]

theorem same_list {as bs : List Data} (h : List.Forall₂ (fun a b => same a b = true) as bs) :
    same (.list as) (.list bs) = true := by
  rw [same, sameItems_iff.mpr h]

theorem same_tuple {as bs : List Data} (h : List.Forall₂ (fun a b => same a b = true) as bs) :
    same (.tuple as) (.tuple bs) = true := by
  rw [same, sameItems_iff.mpr h]

theorem includedEntries_iff {as bs : List (Data × Data)} :
    includedEntries as bs = true ↔
      ∀ a ∈ as, ∃ b ∈ bs, same a.1 b.1 = true ∧ same a.2 b.2 = true := by
  induction as with
  | nil => simp [includedEntries]
  | cons a rest ih =>
      obtain ⟨key, value⟩ := a
      simp [includedEntries, ih]

theorem includedItems_iff {as bs : List Data} :
    includedItems as bs = true ↔ ∀ a ∈ as, ∃ b ∈ bs, same a b = true := by
  induction as with
  | nil => simp [includedItems]
  | cons a rest ih => simp [includedItems, ih]

/-- Dictionaries are equal where every entry of the one is one of the other. -/
theorem same_dict {as bs : List (Data × Data)} (hlength : as.length = bs.length)
    (h : ∀ a ∈ as, ∃ b ∈ bs, same a.1 b.1 = true ∧ same a.2 b.2 = true) :
    same (.dict as) (.dict bs) = true := by
  rw [same, hlength, beq_self_eq_true, includedEntries_iff.mpr h, Bool.and_true]

/-! ## Sets -/

theorem word_lt (i : Int) : Hash.word i < Hash.wordSize := by
  have hpositive : (0 : Int) < Hash.wordSize := by decide
  have hlt := Int.emod_lt_of_pos i hpositive
  have hnonneg := Int.emod_nonneg i (ne_of_gt hpositive)
  unfold Hash.word
  omega

/-- Elements with their hashes are the elements, with words. -/
theorem hashed_eq {elements : List Data} {entries : List (Nat × Data)}
    (h : (elements.mapM fun element =>
      element.hash?.map fun hash => (Hash.word hash, element)) = some entries) :
    entries.map Prod.snd = elements ∧ ∀ entry ∈ entries, entry.1 < Hash.wordSize := by
  induction elements generalizing entries with
  | nil =>
      cases h
      simp
  | cons element rest ih =>
      simp only [List.mapM_cons, bind, Option.bind_eq_some_iff, Option.map_eq_some_iff, pure] at h
      obtain ⟨_, ⟨hash, -, rfl⟩, others, hothers, heq⟩ := h
      obtain rfl := Option.some.inj heq
      obtain ⟨helements, hwords⟩ := ih hothers
      simp only [List.map_cons, helements, List.mem_cons, forall_eq_or_imp, true_and]
      exact ⟨word_lt hash, hwords⟩

/-- A set lists each of its distinct elements once. -/
theorem arranged_perm (elements : List Data) : (arranged elements).Perm elements := by
  unfold arranged
  split
  · next entries hentries =>
      obtain ⟨helements, hwords⟩ := hashed_eq hentries
      rw [← helements]
      exact SlotTable.arranged_perm hwords
  · exact .rfl

/-- Equal keys equal the same keys. -/
theorem any_same_congr {kept others : List Data} {a b : Data}
    (h : List.Forall₂ (fun a b => same a b = true) kept others)
    (hkept : ∀ k ∈ kept, k.unhashable? = none) (hothers : ∀ k ∈ others, k.unhashable? = none)
    (ha : a.unhashable? = none) (hb : b.unhashable? = none) (hab : same a b = true) :
    (kept.any fun k => a == k) = others.any fun k => b == k := by
  rw [Bool.eq_iff_iff, List.any_eq_true, List.any_eq_true]
  constructor
  · rintro ⟨k, hk, hak⟩
    obtain ⟨l, hl, hkl⟩ := Outcomes.exists_of_forall₂ h hk
    have hbk := same_trans hb ha (same_symm ha hab) hak
    exact ⟨l, hl, same_trans hb (hkept k hk) hbk hkl⟩
  · rintro ⟨l, hl, hbl⟩
    obtain ⟨k, hk, hkl⟩ := Outcomes.exists_of_forall₂ h.flip hl
    have hal := same_trans ha hb hab hbl
    exact ⟨k, hk, same_trans ha (hothers l hl) hal (same_symm (hkept k hk) hkl)⟩

/-- The distinct ones among items, where some have been kept before. -/
theorem distinct_subset {items kept : List Data} {item : Data}
    (h : item ∈ items.foldl
      (fun kept item => if kept.any (fun k => item == k) then kept else kept ++ [item]) kept) :
    item ∈ kept ∨ item ∈ items := by
  induction items generalizing kept with
  | nil => exact .inl h
  | cons first rest ih =>
      rcases ih h with hkept | hrest
      · simp only at hkept
        split at hkept
        · exact .inl hkept
        · rcases List.mem_append.mp hkept with hkept | hfirst
          · exact .inl hkept
          · exact .inr (List.mem_cons.mpr (.inl (List.mem_singleton.mp hfirst)))
      · exact .inr (List.mem_cons_of_mem _ hrest)

/-- **Equal elements are merged alike**, where all are keys. -/
theorem same_distinct {as bs : List Data} (h : List.Forall₂ (fun a b => same a b = true) as bs)
    (has : ∀ a ∈ as, a.unhashable? = none) (hbs : ∀ b ∈ bs, b.unhashable? = none) :
    List.Forall₂ (fun a b => same a b = true) (distinct as) (distinct bs) := by
  have hfold (kept others : List Data)
      (hkept : ∀ k ∈ kept, k.unhashable? = none) (hothers : ∀ k ∈ others, k.unhashable? = none)
      (hsame : List.Forall₂ (fun a b => same a b = true) kept others) :
      List.Forall₂ (fun a b => same a b = true)
        (as.foldl (fun kept a => if kept.any (fun k => a == k) then kept else kept ++ [a]) kept)
        (bs.foldl (fun kept b => if kept.any (fun k => b == k) then kept else kept ++ [b])
          others) := by
    induction h generalizing kept others with
    | nil => exact hsame
    | @cons a b as bs hab _ ih =>
        simp only [List.mem_cons, forall_eq_or_imp] at has hbs
        simp only [List.foldl_cons, any_same_congr hsame hkept hothers has.1 hbs.1 hab]
        split
        · exact ih has.2 hbs.2 kept others hkept hothers hsame
        · refine ih has.2 hbs.2 _ _ ?_ ?_ (List.rel_append hsame (.cons hab .nil))
          · simpa [or_imp, forall_and] using ⟨hkept, has.1⟩
          · simpa [or_imp, forall_and] using ⟨hothers, hbs.1⟩
  exact hfold [] [] (by simp) (by simp) .nil

theorem mem_setOf {items : List Data} {item : Data} (h : item ∈ arranged (distinct items)) :
    item ∈ items := by
  have hdistinct := (arranged_perm (distinct items)).mem_iff.mp h
  exact (distinct_subset hdistinct).resolve_left (by simp)

/-- **Sets of equal elements are equal.** -/
theorem same_setOf {as bs : List Data} (h : List.Forall₂ (fun a b => same a b = true) as bs)
    (has : ∀ a ∈ as, a.unhashable? = none) (hbs : ∀ b ∈ bs, b.unhashable? = none) :
    same (Data.setOf as) (Data.setOf bs) = true := by
  have hdistinct := same_distinct h has hbs
  have hlength : (arranged (distinct as)).length = (arranged (distinct bs)).length := by
    rw [(arranged_perm _).length_eq, (arranged_perm _).length_eq, hdistinct.length_eq]
  have hincluded : includedItems (arranged (distinct as)) (arranged (distinct bs)) = true := by
    refine includedItems_iff.mpr fun a ha => ?_
    obtain ⟨b, hb, hab⟩ :=
      Outcomes.exists_of_forall₂ hdistinct ((arranged_perm _).mem_iff.mp ha)
    exact ⟨b, (arranged_perm _).mem_iff.mpr hb, hab⟩
  simp only [Data.setOf, same, hlength, beq_self_eq_true, hincluded, Bool.and_self]

theorem Lawful.setOf {items : List Data} (h : ∀ item ∈ items, item.Lawful frozen) :
    (Data.setOf items).Lawful frozen :=
  .set fun item hitem => h item (mem_setOf hitem)

/-! ## Alike data -/

/-- Equal data, as data really is. -/
structure Alike (frozen : Text → Bool) (a b : Data) : Prop where
  same : same a b = true
  lawful : a.Lawful frozen
  lawfulOther : b.Lawful frozen

/-- Entries of alike keys and values. -/
def AlikeEntries (frozen : Text → Bool) (a b : Data × Data) :
    Prop :=
  Alike frozen a.1 b.1 ∧ Alike frozen a.2 b.2

namespace Alike

variable {as bs : List Data}

theorem str (text : Text) : Alike frozen (.str text) (.str text) :=
  ⟨same_str text, .str text, .str text⟩

theorem forall₂_same (h : List.Forall₂ (Alike frozen) as bs) :
    List.Forall₂ (fun a b => Data.same a b = true) as bs := h.imp fun _ _ => Alike.same

theorem lawful_of_forall₂ (h : List.Forall₂ (Alike frozen) as bs) :
    (∀ a ∈ as, a.Lawful frozen) ∧ ∀ b ∈ bs, b.Lawful frozen := by
  constructor
  · intro a ha
    obtain ⟨b, -, hab⟩ := Outcomes.exists_of_forall₂ h ha
    exact hab.lawful
  · intro b hb
    obtain ⟨a, -, hab⟩ := Outcomes.exists_of_forall₂ h.flip hb
    exact hab.lawfulOther

theorem list (h : List.Forall₂ (Alike frozen) as bs) :
    Alike frozen (.list as) (.list bs) :=
  ⟨same_list (forall₂_same h), .list (lawful_of_forall₂ h).1, .list (lawful_of_forall₂ h).2⟩

theorem tuple (h : List.Forall₂ (Alike frozen) as bs) :
    Alike frozen (.tuple as) (.tuple bs) :=
  ⟨same_tuple (forall₂_same h), .tuple (lawful_of_forall₂ h).1, .tuple (lawful_of_forall₂ h).2⟩

/-- Dictionaries need not have their entries in the same order. -/
theorem dict {entries others : List (Data × Data)}
    (h : Matched (AlikeEntries frozen) entries others) :
    Alike frozen (.dict entries) (.dict others) := by
  refine ⟨same_dict h.length fun a ha => ?_, .dict fun a ha => ?_, .dict fun b hb => ?_⟩
  · obtain ⟨b, hb, hkey, hvalue⟩ := h.first a ha
    exact ⟨b, hb, hkey.same, hvalue.same⟩
  · obtain ⟨b, -, hkey, hvalue⟩ := h.first a ha
    exact ⟨hkey.lawful, hvalue.lawful⟩
  · obtain ⟨a, -, hkey, hvalue⟩ := h.second b hb
    exact ⟨hkey.lawfulOther, hvalue.lawfulOther⟩

/-- Of alike data both have a hash or neither has. -/
theorem hashable_iff {a b : Data} (h : Alike frozen a b) :
    a.unhashable? = none ↔ b.unhashable? = none :=
  hashable_iff_of_same h.lawful.frozenAs h.lawfulOther.frozenAs h.same

/-- Alike elements can be in a set together or not at all. -/
theorem unhashableItem?_iff (h : List.Forall₂ (Alike frozen) as bs) :
    unhashableItem? as = none ↔ unhashableItem? bs = none := by
  rw [unhashableItem?_eq_none, unhashableItem?_eq_none]
  exact hashable_iff_of_forall₂ h fun a _ b _ hab => hab.hashable_iff

/-- Sets need not list their elements in the same order. -/
theorem setOf (h : List.Forall₂ (Alike frozen) as bs) (has : unhashableItem? as = none)
    (hbs : unhashableItem? bs = none) :
    Alike frozen (Data.setOf as) (Data.setOf bs) := by
  obtain ⟨hlawful, hother⟩ := lawful_of_forall₂ h
  rw [unhashableItem?_eq_none] at has hbs
  exact ⟨same_setOf (forall₂_same h) has hbs, .setOf hlawful, .setOf hother⟩

end Alike

end Data

end JsonDecoding
