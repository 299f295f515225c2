import JsonDecoding.Proofs.Identities
import JsonDecoding.Proofs.Outcomes

/-!
# What equals a key is a key

Equality of data crosses kinds, and only some data has a hash. Still, of two equal data either both
have one or neither has, as long as the records of a class are all frozen or none is
(`Data.hashable_iff_of_same`). So what equals the identity of a schema can be looked up itself
(`Spec.hashable_of_same`).
-/

namespace JsonDecoding

namespace Data

/-- The first reason among items is that of one of them. -/
theorem exists_of_unhashableItem? {items : List Data} {reason : Unhashable}
    (h : unhashableItem? items = some reason) :
    ∃ item ∈ items, item.unhashable? = some reason := by
  induction items with
  | nil => cases h
  | cons item rest ih =>
      rcases Option.or_eq_some_iff.mp h with hfirst | ⟨-, hrest⟩
      · exact ⟨item, .head _, hfirst⟩
      · obtain ⟨other, hother, hreason⟩ := ih hrest
        exact ⟨other, .tail _ hother, hreason⟩

/-- The first reason among fields is that of one of them. -/
theorem exists_of_unhashableField? {fields : List (Text × Data)} {reason : Unhashable}
    (h : unhashableField? fields = some reason) :
    ∃ field ∈ fields, field.2.unhashable? = some reason := by
  induction fields with
  | nil => cases h
  | cons field rest ih =>
      rcases Option.or_eq_some_iff.mp h with hfirst | ⟨-, hrest⟩
      · exact ⟨field, .head _, hfirst⟩
      · obtain ⟨other, hother, hreason⟩ := ih hrest
        exact ⟨other, .tail _ hother, hreason⟩

/-- The data that equality of keys looks into. -/
def parts : Data → List Data
  | .tuple items => items
  | .record _ _ fields _ => fields.map Prod.snd
  | _ => []

/-- Whether a record is frozen depends on its class only, inside tuples and records too. -/
inductive FrozenAs (frozen : Text → Bool) : Data → Prop where
  | of {data : Data}
      (hrecord : ∀ className isFrozen fields lacking,
        data = .record className isFrozen fields lacking → isFrozen = frozen className)
      (hparts : ∀ part ∈ data.parts, FrozenAs frozen part) : FrozenAs frozen data

variable {frozen : Text → Bool}

namespace FrozenAs

theorem of_part {data part : Data} (h : data.FrozenAs frozen) (hpart : part ∈ data.parts) :
    part.FrozenAs frozen := by
  obtain ⟨-, hparts⟩ := h
  exact hparts part hpart

theorem of_field {className : Text} {isFrozen : Bool} {fields : List (Text × Data)}
    {lacking : List Text} (h : (record className isFrozen fields lacking).FrozenAs frozen)
    {field : Text × Data} (hfield : field ∈ fields) : field.2.FrozenAs frozen :=
  h.of_part (List.mem_map_of_mem hfield)

theorem frozen_eq {className : Text} {isFrozen : Bool} {fields : List (Text × Data)}
    {lacking : List Text} (h : (record className isFrozen fields lacking).FrozenAs frozen) :
    isFrozen = frozen className := by
  obtain ⟨hrecord, -⟩ := h
  exact hrecord _ _ _ _ rfl

/-- Data that looks into no other data is frozen in any way. -/
theorem of_no_parts {data : Data} (hrecord : ∀ className isFrozen fields lacking,
    data ≠ .record className isFrozen fields lacking) (hparts : data.parts = []) :
    data.FrozenAs frozen := by
  refine .of (fun _ _ _ _ h => (hrecord _ _ _ _ h).elim) fun part hpart => ?_
  rw [hparts] at hpart
  cases hpart

end FrozenAs

/-- The number that data is says whether the data has a hash: undefined numbers that signal have
none. -/
theorem unhashable?_of_quantity {data : Data} {q : Quantity} (h : data.quantity? = some q) :
    data.unhashable? = none ↔ ∀ mark, q ≠ .undefined true mark := by
  cases data with
  | bool | int | decimal =>
      cases h
      simp [unhashable?, Quantity.ofInt]
  | float value => cases value <;> cases h <;> simp [unhashable?]
  | nonFinite value =>
      cases value with
      | infinite =>
          cases h
          simp [unhashable?]
      | undefined negative signalling =>
          cases h
          cases signalling <;> simp [unhashable?]
  | _ => cases h

/-- Of equal numbers both have a hash or neither has. -/
theorem hashable_iff_of_sameQuantity {a b : Data} (h : sameQuantity a b = true) :
    a.unhashable? = none ↔ b.unhashable? = none := by
  obtain ⟨m, n, hm, hn, hmn⟩ := sameQuantity_iff.mp h
  rw [unhashable?_of_quantity hm, unhashable?_of_quantity hn]
  cases m <;> cases n <;> simp_all [Quantity.same]

/-- Members are all hashable on one side exactly when they are on the other. -/
theorem hashable_iff_of_forall₂ {α β : Type} {R : α → β → Prop} {p : α → Prop} {q : β → Prop}
    {as : List α} {bs : List β} (h : List.Forall₂ R as bs)
    (hmembers : ∀ a ∈ as, ∀ b ∈ bs, R a b → (p a ↔ q b)) :
    (∀ a ∈ as, p a) ↔ ∀ b ∈ bs, q b := by
  induction h with
  | nil => simp
  | cons hab _ ih =>
      simp only [List.mem_cons, forall_eq_or_imp] at hmembers ⊢
      rw [hmembers.1.1 hab, ih fun a ha b hb => (hmembers.2 a ha).2 b hb]

/-- **Of equal data both can be keys or neither.** -/
theorem hashable_iff_of_same {a b : Data} (ha : a.FrozenAs frozen) (hb : b.FrozenAs frozen)
    (h : same a b = true) : a.unhashable? = none ↔ b.unhashable? = none := by
  induction hsize : sizeOf a using Nat.strong_induction_on generalizing a b with
  | _ n ih =>
    subst hsize
    unfold same at h
    split at h
    case h_8 as bs =>
      -- tuples
      simp only [unhashable?, unhashableItem?_eq_none]
      refine hashable_iff_of_forall₂ (sameItems_iff.mp h) fun x hx y hy hxy => ?_
      exact ih _ (sizeOf_item_lt hx) (ha.of_part hx) (hb.of_part hy) hxy rfl
    case h_11 c flag as lacking d other bs absent =>
      -- records
      simp only [Bool.and_eq_true, beq_iff_eq] at h
      obtain ⟨⟨rfl, rfl⟩, hfields⟩ := h
      obtain rfl := ha.frozen_eq
      obtain rfl := hb.frozen_eq
      cases hfrozen : frozen c with
      | false => simp [unhashable?]
      | true =>
          cases lacking with
          | cons => simp [unhashable?]
          | nil =>
              simp only [unhashable?, if_true, unhashableField?_eq_none]
              refine hashable_iff_of_forall₂ (sameFields_iff.mp hfields) ?_
              rintro ⟨name, x⟩ hx ⟨_, y⟩ hy ⟨rfl, hxy⟩
              exact ih _ (sizeOf_field_lt hx) (ha.of_field hx) (hb.of_field hy) hxy rfl
    case h_14 => exact hashable_iff_of_sameQuantity h
    all_goals simp [unhashable?]

end Data

namespace Spec

/-- The records that tokens hold are frozen as their classes are, at any depth. -/
inductive FrozenAs (frozen : Text → Bool) : Spec → Prop where
  | of {spec : Spec} (htoken : ∀ value, spec = .token value → value.FrozenAs frozen)
      (hparts : ∀ part ∈ spec.parts, FrozenAs frozen part) : FrozenAs frozen spec

variable {frozen : Text → Bool}

theorem FrozenAs.of_part {spec part : Spec} (h : spec.FrozenAs frozen) (hpart : part ∈ spec.parts) :
    part.FrozenAs frozen := by
  obtain ⟨-, hparts⟩ := h
  exact hparts part hpart

end Spec

end JsonDecoding
