import Mathlib.Data.List.Forall2
import Mathlib.Data.Nat.Init
import JsonDecoding.Data

/-!
# Equality of data

Data is compared by an equality that is coarser than structure: numbers of different kinds are equal.
On data that has a hash, and so can be a key, it is symmetric and transitive (`Data.same_symm`,
`Data.same_trans`).
-/

namespace JsonDecoding

/-! ## Lists with related members -/

/-- Related lists are related the other way where their members are. -/
theorem Outcomes.forall₂_flip {α β : Type} {R : α → β → Prop} {S : β → α → Prop} {as : List α}
    {bs : List β} (h : List.Forall₂ R as bs) (hflip : ∀ a ∈ as, ∀ b ∈ bs, R a b → S b a) :
    List.Forall₂ S bs as := by
  induction h with
  | nil => exact .nil
  | cons hfirst _ ih =>
      refine .cons (hflip _ (by simp) _ (by simp) hfirst) (ih ?_)
      intro a ha b hb
      exact hflip a (by simp [ha]) b (by simp [hb])

/-- Relations between members compose to one between lists. -/
theorem Outcomes.forall₂_comp {α β γ : Type} {R : α → β → Prop} {S : β → γ → Prop}
    {T : α → γ → Prop} {as : List α} {bs : List β} {cs : List γ} (hfirst : List.Forall₂ R as bs)
    (hsecond : List.Forall₂ S bs cs)
    (hcomp : ∀ a ∈ as, ∀ b ∈ bs, ∀ c ∈ cs, R a b → S b c → T a c) : List.Forall₂ T as cs := by
  induction hfirst generalizing cs with
  | nil =>
      cases hsecond
      exact .nil
  | cons hab _ ih =>
      cases hsecond with
      | cons hbc hrest =>
          refine .cons (hcomp _ (by simp) _ (by simp) _ (by simp) hab hbc) (ih hrest ?_)
          intro a ha b hb c hc
          exact hcomp a (by simp [ha]) b (by simp [hb]) c (by simp [hc])

namespace Data

/-! ## Numbers -/

theorem Quantity.same_symm {a b : Quantity} (h : a.same b = true) : b.same a = true := by
  cases a <;> cases b <;> simp_all [Quantity.same]

theorem Quantity.same_trans {a b c : Quantity} (hab : a.same b = true) (hbc : b.same c = true) :
    a.same c = true := by
  cases a <;> cases b <;> cases c <;> simp_all [Quantity.same]

/-- Data is the same quantity where both are numbers and these are the same. -/
theorem sameQuantity_iff {a b : Data} :
    sameQuantity a b = true ↔
      ∃ m n, a.quantity? = some m ∧ b.quantity? = some n ∧ m.same n = true := by
  unfold sameQuantity
  cases a.quantity? <;> cases b.quantity? <;> simp

theorem sameQuantity_symm {a b : Data} (h : sameQuantity a b = true) :
    sameQuantity b a = true := by
  obtain ⟨m, n, hm, hn, hmn⟩ := sameQuantity_iff.mp h
  exact sameQuantity_iff.mpr ⟨n, m, hn, hm, Quantity.same_symm hmn⟩

theorem sameQuantity_trans {a b c : Data} (hab : sameQuantity a b = true)
    (hbc : sameQuantity b c = true) : sameQuantity a c = true := by
  obtain ⟨m, n, hm, hn, hmn⟩ := sameQuantity_iff.mp hab
  obtain ⟨n', k, hn', hk, hnk⟩ := sameQuantity_iff.mp hbc
  obtain rfl := Option.some.inj (hn.symm.trans hn')
  exact sameQuantity_iff.mpr ⟨m, k, hm, hk, Quantity.same_trans hmn hnk⟩

/-! ## What equal keys are -/

theorem sameItems_iff {as bs : List Data} :
    sameItems as bs = true ↔ List.Forall₂ (fun a b => same a b = true) as bs := by
  induction as generalizing bs with
  | nil => cases bs <;> simp [sameItems]
  | cons a rest ih => cases bs <;> simp [sameItems, ih]

/-- Fields are the same name by name. -/
theorem sameFields_iff {as bs : List (Text × Data)} :
    sameFields as bs = true ↔
      List.Forall₂ (fun a b => a.1 = b.1 ∧ same a.2 b.2 = true) as bs := by
  induction as generalizing bs with
  | nil => cases bs <;> simp [sameFields]
  | cons a rest ih =>
      obtain ⟨name, value⟩ := a
      cases bs with
      | nil => simp [sameFields]
      | cons b others =>
          obtain ⟨other, y⟩ := b
          simp [sameFields, ih, and_assoc]

/-- How two keys can be equal. -/
inductive EqualKeys : Data → Data → Prop where
  | quantity {a b : Data} (h : sameQuantity a b = true) : EqualKeys a b
  | null : EqualKeys .null .null
  | str {s : Text} : EqualKeys (.str s) (.str s)
  | bytes {octets : List Nat} : EqualKeys (.bytes octets) (.bytes octets)
  | date {d : Date} : EqualKeys (.date d) (.date d)
  | moment {m n : Moment} (h : m.same n = true) : EqualKeys (.moment m) (.moment n)
  | uuid {u : Uuid} : EqualKeys (.uuid u) (.uuid u)
  | tuple {as bs : List Data} (h : List.Forall₂ (fun a b => same a b = true) as bs) :
      EqualKeys (.tuple as) (.tuple bs)
  | record {className : Text} {frozen other : Bool} {as bs : List (Text × Data)}
      {lacking : List Text}
      (h : List.Forall₂ (fun a b => a.1 = b.1 ∧ same a.2 b.2 = true) as bs) :
      EqualKeys (.record className frozen as lacking) (.record className other bs lacking)
  | labelled {mark : Nat} {label other : Text} {a b : Data} :
      EqualKeys (.labelled (some mark) label a) (.labelled (some mark) other b)

/-- **Keys are equal** in one of these ways. -/
theorem equalKeys_of_same {a b : Data} (h : a.unhashable? = none) (hsame : same a b = true) :
    EqualKeys a b := by
  unfold same at hsame
  split at hsame
  · exact .null
  · obtain rfl := eq_of_beq hsame
    exact .str
  · obtain rfl := eq_of_beq hsame
    exact .bytes
  · obtain rfl := of_decide_eq_true hsame
    exact .date
  · exact .moment hsame
  · obtain rfl := of_decide_eq_true hsame
    exact .uuid
  · cases h
  · exact .tuple (sameItems_iff.mp hsame)
  · cases h
  · cases h
  · simp only [Bool.and_eq_true, beq_iff_eq] at hsame
    obtain ⟨⟨rfl, rfl⟩, hfields⟩ := hsame
    exact .record (sameFields_iff.mp hfields)
  · cases h
  · obtain rfl := of_decide_eq_true hsame
    exact .labelled
  · exact .quantity hsame

theorem EqualKeys.same {a b : Data} (h : EqualKeys a b) : same a b = true := by
  cases h with
  | null => rw [Data.same]
  | str | bytes => rw [Data.same, beq_self_eq_true]
  | date | uuid | labelled => rw [Data.same, decide_eq_true rfl]
  | moment hmoment => rw [Data.same, hmoment]
  | tuple hitems => rw [Data.same, sameItems_iff.mpr hitems]
  | record hfields =>
      simp only [Data.same, beq_self_eq_true, sameFields_iff.mpr hfields, Bool.and_self]
  | quantity hquantity =>
      obtain ⟨m, n, hm, -, -⟩ := sameQuantity_iff.mp hquantity
      unfold Data.same
      -- data that is a number is compared as one
      split
      case h_14 => exact hquantity
      all_goals cases hm

/-- What equals a number is a number. -/
theorem EqualKeys.sameQuantity_of_left {a b : Data} (h : EqualKeys a b) {m : Quantity}
    (hm : a.quantity? = some m) : sameQuantity a b = true := by
  cases h with
  | quantity hquantity => exact hquantity
  | _ => cases hm

/-! ## Parts of keys -/

theorem unhashableItem?_eq_none {items : List Data} :
    unhashableItem? items = none ↔ ∀ item ∈ items, item.unhashable? = none := by
  induction items with
  | nil => simp [unhashableItem?]
  | cons item rest ih => simp [unhashableItem?, ih]

theorem unhashableField?_eq_none {fields : List (Text × Data)} :
    unhashableField? fields = none ↔ ∀ field ∈ fields, field.2.unhashable? = none := by
  induction fields with
  | nil => simp [unhashableField?]
  | cons field rest ih => simp [unhashableField?, ih]

/-- A record that is a key has fields that are keys. -/
theorem unhashable?_of_record {className : Text} {frozen : Bool} {fields : List (Text × Data)}
    {lacking : List Text} (h : (record className frozen fields lacking).unhashable? = none)
    {field : Text × Data} (hmem : field ∈ fields) : field.2.unhashable? = none := by
  cases frozen with
  | false => cases h
  | true =>
      cases lacking with
      | nil => exact unhashableField?_eq_none.mp h field hmem
      | cons => cases h

/-! ## Symmetry and transitivity -/

theorem sizeOf_item_lt {items : List Data} {item : Data} (h : item ∈ items) :
    sizeOf item < sizeOf (tuple items) := by
  have hitem := List.sizeOf_lt_of_mem h
  simp only [tuple.sizeOf_spec]
  omega

theorem sizeOf_field_lt {className : Text} {frozen : Bool} {lacking : List Text}
    {fields : List (Text × Data)} {field : Text × Data} (h : field ∈ fields) :
    sizeOf field.2 < sizeOf (record className frozen fields lacking) := by
  have hfield := List.sizeOf_lt_of_mem h
  obtain ⟨name, value⟩ := field
  simp only [record.sizeOf_spec, Prod.mk.sizeOf_spec] at hfield ⊢
  omega

/-- **Equality of keys is symmetric.** -/
theorem same_symm {a b : Data} (h : a.unhashable? = none) (hab : same a b = true) :
    same b a = true := by
  induction hsize : sizeOf a using Nat.strong_induction_on generalizing a b with
  | _ n ih =>
    subst hsize
    apply EqualKeys.same
    cases equalKeys_of_same h hab with
    | quantity hquantity => exact .quantity (sameQuantity_symm hquantity)
    | null => exact .null
    | str => exact .str
    | bytes => exact .bytes
    | date => exact .date
    | uuid => exact .uuid
    | labelled => exact .labelled
    | moment hmoment =>
        refine .moment ?_
        simp only [Moment.same, Bool.and_eq_true, decide_eq_true_eq] at hmoment ⊢
        exact ⟨hmoment.1.symm, hmoment.2.symm⟩
    | tuple hitems =>
        refine .tuple (Outcomes.forall₂_flip hitems ?_)
        intro item hitem other _ hsame
        exact ih _ (sizeOf_item_lt hitem) (unhashableItem?_eq_none.mp h item hitem) hsame rfl
    | record hfields =>
        refine .record (Outcomes.forall₂_flip hfields ?_)
        rintro ⟨name, value⟩ hfield ⟨_, other⟩ - ⟨rfl, hsame⟩
        exact ⟨rfl, ih _ (sizeOf_field_lt hfield) (unhashable?_of_record h hfield) hsame rfl⟩

/-- **Equality of keys is transitive.** -/
theorem same_trans {a b c : Data} (ha : a.unhashable? = none) (hb : b.unhashable? = none)
    (hab : same a b = true) (hbc : same b c = true) : same a c = true := by
  induction hsize : sizeOf a using Nat.strong_induction_on generalizing a b c with
  | _ n ih =>
    subst hsize
    have hsecond := equalKeys_of_same hb hbc
    apply EqualKeys.same
    cases equalKeys_of_same ha hab with
    | null | str | bytes | date | uuid => exact hsecond
    | quantity hquantity =>
        obtain ⟨-, n, -, hn, -⟩ := sameQuantity_iff.mp hquantity
        exact .quantity (sameQuantity_trans hquantity (hsecond.sameQuantity_of_left hn))
    | labelled =>
        cases hsecond with
        | quantity hquantity => cases hquantity
        | labelled => exact .labelled
    | moment hmoment =>
        cases hsecond with
        | quantity hquantity => cases hquantity
        | moment hother =>
            refine .moment ?_
            simp only [Moment.same, Bool.and_eq_true, decide_eq_true_eq] at hmoment hother ⊢
            exact ⟨hmoment.1.trans hother.1, hmoment.2.trans hother.2⟩
    | tuple hitems =>
        cases hsecond with
        | quantity hquantity => cases hquantity
        | tuple hothers =>
            refine .tuple (Outcomes.forall₂_comp hitems hothers ?_)
            intro x hx y hy z _ hxy hyz
            exact ih _ (sizeOf_item_lt hx) (unhashableItem?_eq_none.mp ha x hx)
              (unhashableItem?_eq_none.mp hb y hy) hxy hyz rfl
    | record hfields =>
        cases hsecond with
        | quantity hquantity => cases hquantity
        | record hothers =>
            refine .record (Outcomes.forall₂_comp hfields hothers ?_)
            rintro ⟨name, x⟩ hx ⟨_, y⟩ hy ⟨_, z⟩ - ⟨rfl, hxy⟩ ⟨rfl, hyz⟩
            exact ⟨rfl, ih _ (sizeOf_field_lt hx) (unhashable?_of_record ha hx)
              (unhashable?_of_record hb hy) hxy hyz rfl⟩

end Data

end JsonDecoding
