import Mathlib.Data.Fintype.EquivFin
import JsonDecoding.Proofs.Equality
import JsonDecoding.Spec

/-!
# Equality of annotations

Annotations serve as identities of schemas. They are compared by structure, except that tokens are
compared as data and unions without regard to order. Like equality of data this is symmetric and
transitive on what can be a key (`Spec.same_symm`, `Spec.same_trans`).
-/

namespace JsonDecoding

/-- Lists of one length whose members are related one way are so the other way, if no two members
of the first are related to one of the second. -/
theorem Outcomes.covered {α β : Type} {R : α → β → Prop} {as : List α} {bs : List β}
    (hlength : as.length = bs.length) (h : ∀ a ∈ as, ∃ b ∈ bs, R a b)
    (hapart : as.Pairwise fun a other => ∀ b ∈ bs, R a b → ¬R other b) :
    ∀ b ∈ bs, ∃ a ∈ as, R a b := by
  have hindex : ∀ i : Fin as.length, ∃ j : Fin bs.length, R as[i] bs[j] := by
    intro i
    obtain ⟨b, hb, hab⟩ := h as[i] (List.getElem_mem _)
    obtain ⟨j, hj, rfl⟩ := List.getElem_of_mem hb
    exact ⟨⟨j, hj⟩, hab⟩
  choose f hf using hindex
  have hinjective : Function.Injective f := by
    intro i j hij
    by_contra hne
    rcases lt_or_gt_of_ne hne with hlt | hlt
    · have hboth := List.pairwise_iff_getElem.mp hapart i j i.isLt j.isLt hlt
      exact hboth _ (List.getElem_mem _) (hf i) (hij ▸ hf j)
    · have hboth := List.pairwise_iff_getElem.mp hapart j i j.isLt i.isLt hlt
      exact hboth _ (List.getElem_mem _) (hf j) (hij ▸ hf i)
  have hsurjective := (Finite.injective_iff_surjective_of_equiv (finCongr hlength)).mp hinjective
  intro b hb
  obtain ⟨j, hj, rfl⟩ := List.getElem_of_mem hb
  obtain ⟨i, hi⟩ := hsurjective ⟨j, hj⟩
  have hrelated := hf i
  rw [hi] at hrelated
  exact ⟨as[i], List.getElem_mem _, hrelated⟩

namespace Spec

/-! ## What equal annotations are -/

theorem sameAll_iff {as bs : List Spec} :
    sameAll as bs = true ↔ List.Forall₂ (fun a b => same a b = true) as bs := by
  induction as generalizing bs with
  | nil => cases bs <;> simp [sameAll]
  | cons a rest ih => cases bs <;> simp [sameAll, ih]

theorem includedAll_iff {as bs : List Spec} :
    includedAll as bs = true ↔ ∀ a ∈ as, ∃ b ∈ bs, same a b = true := by
  induction as with
  | nil => simp [includedAll]
  | cons a rest ih => simp [includedAll, ih]

/-- Equal position by position. -/
abbrev Equals (as bs : List Spec) : Prop := List.Forall₂ (fun a b => same a b = true) as bs

/-- How two annotations can be equal. -/
inductive EqualKeys : Spec → Spec → Prop where
  | primitive {kind : Primitive} : EqualKeys (.primitive kind) (.primitive kind)
  | bareArray : EqualKeys .bareArray .bareArray
  | bareObject : EqualKeys .bareObject .bareObject
  | builtin {type : Builtin} : EqualKeys (.builtin type) (.builtin type)
  | symbol {name label : Text} : EqualKeys (.symbol name label) (.symbol name label)
  | written {text : Text} : EqualKeys (.written text) (.written text)
  | named {name home : Text} {mark : Nat} :
      EqualKeys (.named name home mark) (.named name home mark)
  | token {a b : Data} (h : a.same b = true) : EqualKeys (.token a) (.token b)
  | arrayOf {a b : Spec} (h : Equals [a] [b]) : EqualKeys (.arrayOf a) (.arrayOf b)
  | objectOf {a b : Spec} (h : Equals [a] [b]) : EqualKeys (.objectOf a) (.objectOf b)
  | mapOf {k l a b : Spec} (h : Equals [k, a] [l, b]) : EqualKeys (.mapOf k a) (.mapOf l b)
  | setOf {a b : Spec} (h : Equals [a] [b]) : EqualKeys (.setOf a) (.setOf b)
  | tupleOf {as bs : List Spec} (h : Equals as bs) : EqualKeys (.tupleOf as) (.tupleOf bs)
  | anyOf {as bs : List Spec} (h : Equals as bs) : EqualKeys (.anyOf as) (.anyOf bs)
  | custom {i j : Spec} {as bs : List Spec} (h : Equals (i :: as) (j :: bs)) :
      EqualKeys (.custom i as) (.custom j bs)
  | generic {head : Generic} {as bs : List Spec} (h : Equals as bs) :
      EqualKeys (.generic head as) (.generic head bs)
  | union {form other : UnionForm} {as bs : List Spec} (hlength : as.length = bs.length)
      (h : ∀ a ∈ as, ∃ b ∈ bs, same a b = true) : EqualKeys (.union form as) (.union other bs)
  | several {form : SequenceForm} {as bs : List Spec} (h : Equals as bs) :
      EqualKeys (.several form as) (.several form bs)

/-- **Annotations are equal** in one of these ways. -/
theorem equalKeys_of_same {a b : Spec} (h : same a b = true) : EqualKeys a b := by
  unfold same at h
  split at h
  · obtain rfl := of_decide_eq_true h
    exact .primitive
  · exact .bareArray
  · exact .bareObject
  · exact .arrayOf (.cons h .nil)
  · exact .objectOf (.cons h .nil)
  · rw [Bool.and_eq_true] at h
    exact .mapOf (.cons h.1 (.cons h.2 .nil))
  · exact .setOf (.cons h .nil)
  · exact .tupleOf (sameAll_iff.mp h)
  · exact .anyOf (sameAll_iff.mp h)
  · rw [Bool.and_eq_true] at h
    exact .custom (.cons h.1 (sameAll_iff.mp h.2))
  · obtain rfl := of_decide_eq_true h
    exact .builtin
  · simp only [Bool.and_eq_true, decide_eq_true_eq] at h
    obtain ⟨⟨rfl, rfl⟩, rfl⟩ := h
    exact .named
  · simp only [Bool.and_eq_true, decide_eq_true_eq] at h
    obtain ⟨rfl, rfl⟩ := h
    exact .symbol
  · exact .token h
  · obtain rfl := of_decide_eq_true h
    exact .written
  · simp only [Bool.and_eq_true, decide_eq_true_eq] at h
    obtain ⟨rfl, hparameters⟩ := h
    exact .generic (sameAll_iff.mp hparameters)
  · simp only [Bool.and_eq_true, decide_eq_true_eq] at h
    exact .union h.1 (includedAll_iff.mp h.2)
  · simp only [Bool.and_eq_true, decide_eq_true_eq] at h
    obtain ⟨rfl, hitems⟩ := h
    exact .several (sameAll_iff.mp hitems)
  · cases h

theorem EqualKeys.same {a b : Spec} (h : EqualKeys a b) : same a b = true := by
  cases h with
  | primitive | bareArray | bareObject | builtin | symbol | written | named => simp [Spec.same]
  | token h => rw [Spec.same, h]
  | union hlength h => simp [Spec.same, hlength, includedAll_iff.mpr h]
  | tupleOf h | anyOf h | generic h | several h => simp [Spec.same, sameAll_iff.mpr h]
  | arrayOf h | objectOf h | setOf h | mapOf h | custom h =>
      have hall := sameAll_iff.mpr h
      simpa [Spec.same, sameAll] using hall

/-! ## Parts of annotations -/

/-- The specifications that equality looks into. -/
def parts : Spec → List Spec
  | .arrayOf element => [element]
  | .objectOf content => [content]
  | .mapOf key content => [key, content]
  | .setOf element => [element]
  | .tupleOf specs => specs
  | .anyOf specs => specs
  | .custom identity arguments => identity :: arguments
  | .generic _ parameters => parameters
  | .union _ members => members
  | .several _ items => items
  | _ => []

theorem unhashableAmong?_eq_none {specs : List Spec} :
    unhashableAmong? specs = none ↔ ∀ spec ∈ specs, spec.unhashable? = none := by
  induction specs with
  | nil => simp [unhashableAmong?]
  | cons spec rest ih => simp [unhashableAmong?, ih]

theorem unhashable?_of_part {spec : Spec} (h : spec.unhashable? = none) :
    ∀ part ∈ spec.parts, part.unhashable? = none := by
  cases spec with
  | several form items =>
      cases form with
      | tuple => exact unhashableAmong?_eq_none.mp h
      | list => cases h
  | _ => simp_all [parts, unhashable?, unhashableAmong?_eq_none]

theorem sizeOf_part_lt {spec part : Spec} (h : part ∈ spec.parts) : sizeOf part < sizeOf spec := by
  cases spec with
  | primitive | bareArray | bareObject | builtin | named | symbol | token | written => cases h
  | arrayOf | objectOf | setOf =>
      obtain rfl := List.mem_singleton.mp h
      simp
  | mapOf key content =>
      have hsize : sizeOf part < sizeOf [key, content] := List.sizeOf_lt_of_mem h
      simp only [List.cons.sizeOf_spec, List.nil.sizeOf_spec, mapOf.sizeOf_spec] at hsize ⊢
      rcases List.mem_cons.mp h with rfl | hcontent
      · omega
      · obtain rfl := List.mem_singleton.mp hcontent
        omega
  | custom identity arguments =>
      rcases List.mem_cons.mp h with rfl | hargument
      · simp only [custom.sizeOf_spec]
        omega
      · have hsize := List.sizeOf_lt_of_mem hargument
        simp only [custom.sizeOf_spec]
        omega
  | tupleOf items | anyOf items | generic _ items | union _ items | several _ items =>
      have hsize : sizeOf part < sizeOf items := List.sizeOf_lt_of_mem h
      simp only [tupleOf.sizeOf_spec, anyOf.sizeOf_spec, generic.sizeOf_spec, union.sizeOf_spec,
        several.sizeOf_spec]
      omega

/-- The members of a union differ from each other, at any depth. -/
inductive Regular : Spec → Prop where
  | of {spec : Spec} (hunion : ∀ form members, spec = .union form members →
        members.Pairwise fun a b => same a b = false)
      (hparts : ∀ part ∈ spec.parts, Regular part) : Regular spec

/-- Annotations that can be keys: they have a hash, and are what annotations really are. -/
structure IsKey (spec : Spec) : Prop where
  hashable : spec.unhashable? = none
  regular : spec.Regular

namespace IsKey

theorem of_part {spec part : Spec} (h : spec.IsKey) (hpart : part ∈ spec.parts) :
    part.IsKey := by
  obtain ⟨hhash, -, hparts⟩ := h
  exact ⟨unhashable?_of_part hhash part hpart, hparts part hpart⟩

theorem pairwise {form : UnionForm} {members : List Spec} (h : (union form members).IsKey) :
    members.Pairwise fun a b => same a b = false := by
  obtain ⟨-, hunion, -⟩ := h
  exact hunion form members rfl

end IsKey

/-! ## Transitivity and symmetry -/

/-- **Equality of annotations is transitive.** -/
theorem same_trans {a b c : Spec} (ha : a.unhashable? = none) (hb : b.unhashable? = none)
    (hab : same a b = true) (hbc : same b c = true) : same a c = true := by
  induction hsize : sizeOf a using Nat.strong_induction_on generalizing a b c with
  | _ n ih =>
    subst hsize
    have hpart : ∀ x ∈ a.parts, ∀ y ∈ b.parts, ∀ z ∈ c.parts, same x y = true → same y z = true →
        same x z = true := fun x hx y hy z _ hxy hyz =>
      ih _ (sizeOf_part_lt hx) (unhashable?_of_part ha x hx) (unhashable?_of_part hb y hy) hxy hyz
        rfl
    have hsecond := equalKeys_of_same hbc
    apply EqualKeys.same
    cases equalKeys_of_same hab with
    | primitive | bareArray | bareObject | builtin | symbol | written | named => exact hsecond
    | token h =>
        cases hsecond with
        | token h' => exact .token (Data.same_trans ha hb h h')
    | arrayOf h =>
        cases hsecond with
        | arrayOf h' => exact .arrayOf (Outcomes.forall₂_comp h h' hpart)
    | objectOf h =>
        cases hsecond with
        | objectOf h' => exact .objectOf (Outcomes.forall₂_comp h h' hpart)
    | mapOf h =>
        cases hsecond with
        | mapOf h' => exact .mapOf (Outcomes.forall₂_comp h h' hpart)
    | setOf h =>
        cases hsecond with
        | setOf h' => exact .setOf (Outcomes.forall₂_comp h h' hpart)
    | tupleOf h =>
        cases hsecond with
        | tupleOf h' => exact .tupleOf (Outcomes.forall₂_comp h h' hpart)
    | anyOf h =>
        cases hsecond with
        | anyOf h' => exact .anyOf (Outcomes.forall₂_comp h h' hpart)
    | custom h =>
        cases hsecond with
        | custom h' => exact .custom (Outcomes.forall₂_comp h h' hpart)
    | generic h =>
        cases hsecond with
        | generic h' => exact .generic (Outcomes.forall₂_comp h h' hpart)
    | several h =>
        cases hsecond with
        | several h' => exact .several (Outcomes.forall₂_comp h h' hpart)
    | union hlength h =>
        cases hsecond with
        | union hlength' h' =>
            refine .union (hlength.trans hlength') fun x hx => ?_
            obtain ⟨y, hy, hxy⟩ := h x hx
            obtain ⟨z, hz, hyz⟩ := h' y hy
            exact ⟨z, hz, hpart x hx y hy z hz hxy hyz⟩

/-- **Equality of annotations is symmetric.** -/
theorem same_symm {a b : Spec} (ha : a.IsKey) (hb : b.IsKey) (hab : same a b = true) :
    same b a = true := by
  induction hsize : sizeOf a using Nat.strong_induction_on generalizing a b with
  | _ n ih =>
    subst hsize
    have hpart : ∀ x ∈ a.parts, ∀ y ∈ b.parts, same x y = true → same y x = true :=
      fun x hx y hy hxy => ih _ (sizeOf_part_lt hx) (ha.of_part hx) (hb.of_part hy) hxy rfl
    apply EqualKeys.same
    cases equalKeys_of_same hab with
    | primitive => exact .primitive
    | bareArray => exact .bareArray
    | bareObject => exact .bareObject
    | builtin => exact .builtin
    | symbol => exact .symbol
    | written => exact .written
    | named => exact .named
    | token h => exact .token (Data.same_symm ha.hashable h)
    | arrayOf h => exact .arrayOf (Outcomes.forall₂_flip h hpart)
    | objectOf h => exact .objectOf (Outcomes.forall₂_flip h hpart)
    | mapOf h => exact .mapOf (Outcomes.forall₂_flip h hpart)
    | setOf h => exact .setOf (Outcomes.forall₂_flip h hpart)
    | tupleOf h => exact .tupleOf (Outcomes.forall₂_flip h hpart)
    | anyOf h => exact .anyOf (Outcomes.forall₂_flip h hpart)
    | custom h => exact .custom (Outcomes.forall₂_flip h hpart)
    | generic h => exact .generic (Outcomes.forall₂_flip h hpart)
    | several h => exact .several (Outcomes.forall₂_flip h hpart)
    | @union _ _ as bs hlength h =>
        refine .union hlength.symm fun y hy => ?_
        -- as many members on both sides, so none is equal to two of the other side's
        have hapart : as.Pairwise fun x other => ∀ y ∈ bs, same x y = true → ¬same other y = true :=
          ha.pairwise.imp_of_mem fun {x other} hx hother hne y hy hxy hoy => by
            have hyo := hpart other hother y hy hoy
            rw [same_trans (ha.of_part hx).hashable (hb.of_part hy).hashable hxy hyo] at hne
            cases hne
        obtain ⟨x, hx, hxy⟩ := Outcomes.covered hlength h hapart y hy
        exact ⟨x, hx, hpart x hx y hy hxy⟩

end Spec

end JsonDecoding
