import JsonDecoding.Proofs.Arrivals
import JsonDecoding.Proofs.Recipe
import JsonDecoding.Proofs.Reordering

/-!
# Decoding reordered values

Decoding values that are reorderings of each other ends alike (`decode_alike`): both decode, to
equal data, or both fail, unless one decoding is disturbed, that is, ends in a fault or runs out of
room. An object stops at a different field when its fields come in a different order, but each field
has its like in the other order (`inOrder_alike`). What rules answer about alike data has to be
alike (`Schema.Respects`); all else is.
-/

namespace JsonDecoding

open Attempt Decoder

/-! ## Attempts that end alike -/

/-- A stop that says nothing about the value: a fault, or too little room. -/
def Stop.Disturbs (stop : Stop) : Prop := ∀ e, stop ≠ .failed e

@[simp] theorem Stop.not_disturbs_failed (e : DecodeError) : ¬(Stop.failed e).Disturbs :=
  fun h => h e rfl

@[simp] theorem Stop.disturbs_faulted (fault : Fault) : (Stop.faulted fault).Disturbs := nofun

@[simp] theorem Stop.disturbs_exhausted : Stop.exhausted.Disturbs := nofun

namespace Attempt

variable {α β γ δ : Type} {R : α → β → Prop} {S : γ → δ → Prop}

/-- An attempt ends in a fault or runs out of room. -/
def Disturbed (t : Attempt α) : Prop := ∃ stop, t.result = .error stop ∧ stop.Disturbs

/-- Attempts that end alike: both succeed with related results or both fail, unless one of them is
disturbed. -/
inductive Alike (R : α → β → Prop) (t : Attempt α) (u : Attempt β) : Prop where
  | decoded {a : α} {b : β} (ht : t.result = .ok a) (hu : u.result = .ok b) (h : R a b)
  | failed {d e : DecodeError} (ht : t.result = .error (.failed d))
      (hu : u.result = .error (.failed e))
  | disturbed (h : t.Disturbed ∨ u.Disturbed)

/-- How an attempt can end. -/
theorem ends (t : Attempt α) :
    (∃ a, t.result = .ok a) ∨ (∃ e, t.result = .error (.failed e)) ∨ t.Disturbed := by
  rcases hresult : t.result with ⟨e | fault | _⟩ | a
  · exact .inr (.inl ⟨e, rfl⟩)
  · exact .inr (.inr ⟨_, hresult, by simp⟩)
  · exact .inr (.inr ⟨_, hresult, by simp⟩)
  · exact .inl ⟨a, rfl⟩

namespace Disturbed

variable {t : Attempt α}

theorem of_fault (fault : Fault) : (Attempt.fault fault : Attempt α).Disturbed :=
  ⟨_, rfl, by simp⟩

theorem not_ok (h : t.Disturbed) {a : α} : t.result ≠ .ok a := by
  obtain ⟨stop, hstop, -⟩ := h
  simp [hstop]

theorem not_failed (h : t.Disturbed) {e : DecodeError} : t.result ≠ .error (.failed e) := by
  obtain ⟨stop, hstop, hother⟩ := h
  simp [hstop, hother e]

theorem bind (h : t.Disturbed) (next : α → Attempt β) : (t.bind next).Disturbed := by
  obtain ⟨stop, hstop, hother⟩ := h
  exact ⟨stop, bind_error.mpr (.inl hstop), hother⟩

theorem bind_next {a : α} (ha : t.result = .ok a) {next : α → Attempt β} (h : (next a).Disturbed) :
    (t.bind next).Disturbed := by
  obtain ⟨stop, hstop, hother⟩ := h
  exact ⟨stop, bind_error.mpr (.inr ⟨a, ha, hstop⟩), hother⟩

theorem mapStop (h : t.Disturbed) {f : Stop → Stop}
    (hf : ∀ stop, stop.Disturbs → (f stop).Disturbs) : (t.mapStop f).Disturbed := by
  obtain ⟨stop, hstop, hother⟩ := h
  exact ⟨f stop, by rw [result_mapStop, hstop]; rfl, hf stop hother⟩

end Disturbed

namespace Alike

variable {t : Attempt α} {u : Attempt β}

theorem of_done {a : α} {b : β} (h : R a b) : (Attempt.done a).Alike R (.done b) :=
  .decoded rfl rfl h

theorem of_refuse (cause other : Cause) :
    (Attempt.refuse cause : Attempt α).Alike R (.refuse other : Attempt β) := .failed rfl rfl

theorem of_fault (fault other : Fault) :
    (Attempt.fault fault : Attempt α).Alike R (.fault other : Attempt β) :=
  .disturbed (.inl (.of_fault fault))

/-- Results of attempts that end alike are related. -/
theorem related (h : t.Alike R u) {a : α} {b : β} (ha : t.result = .ok a) (hb : u.result = .ok b) :
    R a b := by
  cases h with
  | decoded ht hu hab =>
      obtain rfl := Except.ok.inj (ht.symm.trans ha)
      obtain rfl := Except.ok.inj (hu.symm.trans hb)
      exact hab
  | failed ht => cases ht.symm.trans ha
  | disturbed h => exact (h.elim (·.not_ok ha) (·.not_ok hb)).elim

/-- The one does not fail where the other succeeds. -/
theorem not_failed (h : t.Alike R u) {a : α} (ha : t.result = .ok a) {e : DecodeError} :
    u.result ≠ .error (.failed e) := by
  intro he
  cases h with
  | decoded _ hu => cases hu.symm.trans he
  | failed ht => cases ht.symm.trans ha
  | disturbed h => exact h.elim (·.not_ok ha) (·.not_failed he)

theorem flip (h : t.Alike R u) : u.Alike (fun b a => R a b) t := by
  cases h with
  | decoded ht hu hab => exact .decoded hu ht hab
  | failed ht hu => exact .failed hu ht
  | disturbed h => exact .disturbed h.symm

theorem bind (h : t.Alike R u) {next : α → Attempt γ} {other : β → Attempt δ}
    (hnext : ∀ a b, R a b → (next a).Alike S (other b)) :
    (t.bind next).Alike S (u.bind other) := by
  cases h with
  | @decoded a b ht hu hab =>
      cases hnext a b hab with
      | decoded hc hd hcd =>
          exact .decoded (bind_ok.mpr ⟨a, ht, hc⟩) (bind_ok.mpr ⟨b, hu, hd⟩) hcd
      | failed hc hd =>
          exact .failed (bind_error.mpr (.inr ⟨a, ht, hc⟩)) (bind_error.mpr (.inr ⟨b, hu, hd⟩))
      | disturbed h => exact .disturbed (h.imp (.bind_next ht) (.bind_next hu))
  | failed ht hu => exact .failed (bind_error.mpr (.inl ht)) (bind_error.mpr (.inl hu))
  | disturbed h => exact .disturbed (h.imp (·.bind _) (·.bind _))

theorem map (h : t.Alike R u) {f : α → γ} {g : β → δ} (hfg : ∀ a b, R a b → S (f a) (g b)) :
    (t.map f).Alike S (u.map g) := by
  rw [← bind_done, ← bind_done]
  exact h.bind fun a b hab => of_done (hfg a b hab)

theorem mapStop_left (h : t.Alike R u) {f : Stop → Stop}
    (hf : ∀ stop, stop.Disturbs → (f stop).Disturbs) : (t.mapStop f).Alike R u := by
  cases h with
  | decoded ht hu hab => exact .decoded (Outcomes.mapError_ok.mpr ht) hu hab
  | failed ht hu =>
      rcases (t.mapStop f).ends with ⟨a, ha⟩ | ⟨d, hd⟩ | hdisturbed
      · cases ht.symm.trans (Outcomes.mapError_ok.mp ha)
      · exact .failed hd hu
      · exact .disturbed (.inl hdisturbed)
  | disturbed h => exact .disturbed (h.imp_left (·.mapStop hf))

/-- What is done to failures keeps attempts alike, whether they stay failures or not. -/
theorem mapStop (h : t.Alike R u) {f g : Stop → Stop}
    (hf : ∀ stop, stop.Disturbs → (f stop).Disturbs)
    (hg : ∀ stop, stop.Disturbs → (g stop).Disturbs) :
    (t.mapStop f).Alike R (u.mapStop g) :=
  ((h.mapStop_left hf).flip.mapStop_left hg).flip

theorem located (h : t.Alike R u) (location other : Location) :
    (t.located location).Alike R (u.located other) := by
  refine h.mapStop ?_ ?_ <;> rintro (_ | _ | _) <;> simp

theorem headed {t u : Attempt Data} {R : Data → Data → Prop} (h : t.Alike R u) (room more : Nat)
    (heading other : Except Spec.Flaw Text) (value seen : Json) :
    (t.headed room heading value).Alike R (u.headed more other seen) := by
  cases heading <;> cases other <;> refine h.mapStop ?_ ?_ <;> rintro (_ | _ | _) <;> simp

theorem unlessStray_left {t u first : Attempt Data} {R : Data → Data → Prop} (h : t.Alike R u)
    (hfirst : UnlessFlawed first t) : first.Alike R u := by
  rcases hfirst with heq | ⟨hint, hstray⟩
  · cases h with
    | decoded ha hb hab => exact .decoded (heq.trans ha) hb hab
    | failed hd he => exact .failed (heq.trans hd) he
    | disturbed h =>
        refine .disturbed (h.imp_left ?_)
        rintro ⟨stop, hstop, hdisturbs⟩
        exact ⟨stop, heq.trans hstop, hdisturbs⟩
  · exact .disturbed (.inl ⟨_, hstray, by simp⟩)

/-- Attempts may meet stray annotations and be alike still. -/
theorem unlessStray {t u first second : Attempt Data} {R : Data → Data → Prop} (h : t.Alike R u)
    (hfirst : UnlessFlawed first t) (hsecond : UnlessFlawed second u) : first.Alike R second :=
  ((h.unlessStray_left hfirst).flip.unlessStray_left hsecond).flip

end Alike

variable {parts : List (Location × Attempt α)} {others : List (Location × Attempt β)}

/-- No part fails that has its like among parts that succeed. -/
theorem inOrder_not_failed {as : List α} (has : (inOrder parts).result = .ok as)
    (h : ∀ other ∈ others, ∃ part ∈ parts, part.2.Alike R other.2) (e : DecodeError) :
    (inOrder others).result ≠ .error (.failed e) := by
  intro he
  obtain ⟨location, u, inner, hmem, hinner, -⟩ := inOrder_failed he
  obtain ⟨part, hpart, hlike⟩ := h _ hmem
  obtain ⟨a, -, hok⟩ := Outcomes.exists_of_forall₂ (inOrder_ok.mp has) hpart
  exact hlike.not_failed hok hinner

/-- The result of each part has a related one among the others. -/
theorem exists_related {as : List α} {bs : List β} (has : (inOrder parts).result = .ok as)
    (hbs : (inOrder others).result = .ok bs)
    (h : ∀ part ∈ parts, ∃ other ∈ others, part.2.Alike R other.2) :
    ∀ a ∈ as, ∃ b ∈ bs, R a b := by
  intro a ha
  obtain ⟨part, hpart, hok⟩ := Outcomes.exists_of_forall₂ (inOrder_ok.mp has).flip ha
  obtain ⟨other, hother, hlike⟩ := h part hpart
  obtain ⟨b, hb, hok'⟩ := Outcomes.exists_of_forall₂ (inOrder_ok.mp hbs) hother
  exact ⟨b, hb, hlike.related hok hok'⟩

/-- **Parts in any order end alike**, where each has its like among the others: what fails on the
one side has its like on the other, so that the other does not succeed. -/
theorem inOrder_alike (h : Matched (fun part other => part.2.Alike R other.2) parts others) :
    (inOrder parts).Alike (Matched R) (inOrder others) := by
  have hflip : Matched (fun other part => other.2.Alike (fun b a => R a b) part.2) others parts :=
    h.flip fun _ _ hlike => hlike.flip
  rcases (inOrder parts).ends with ⟨as, has⟩ | ⟨d, hd⟩ | hdisturbed
  · rcases (inOrder others).ends with ⟨bs, hbs⟩ | ⟨e, he⟩ | hdisturbed
    · have hlength : as.length = bs.length := by
        rw [← (inOrder_ok.mp has).length_eq, ← (inOrder_ok.mp hbs).length_eq, h.length]
      exact .decoded has hbs
        ⟨hlength, exists_related has hbs h.first, exists_related hbs has hflip.first⟩
    · exact (inOrder_not_failed has h.second e he).elim
    · exact .disturbed (.inr hdisturbed)
  · rcases (inOrder others).ends with ⟨bs, hbs⟩ | ⟨e, he⟩ | hdisturbed
    · exact (inOrder_not_failed hbs hflip.second d hd).elim
    · exact .failed hd he
    · exact .disturbed (.inr hdisturbed)
  · exact .disturbed (.inl hdisturbed)

end Attempt

/-! ## Rules that respect equality -/

/-- What a schema may ask its rule about, and the rule's answer. -/
inductive Schema.Asks : Schema → Data → Except Complaint Data → Prop where
  | object {description : Text} {fields : List Field} {assemble : Rule}
      (entries : List (Data × Data)) :
      Asks (.object description fields assemble) (.dict entries) (assemble (.dict entries))
  | array {description : Text} {element : Spec} {assemble : Rule} (items : List Data) :
      Asks (.array description element assemble) (.list items) (assemble (.list items))
  | scalar {description : Text} {shape : Tag} {convert : Rule} {value : Json} {data : Data}
      (hdata : value.scalar? = some data) (hshape : value.tag = shape) :
      Asks (.scalar description shape convert) data (convert data)

variable {frozen : Text → Bool}

/-- Answers of a rule that are alike: alike data, or complaints about the value. -/
inductive AlikeAnswers (frozen : Text → Bool) :
    Except Complaint Data → Except Complaint Data → Prop where
  | data {a b : Data} (h : Data.Alike frozen a b) :
      AlikeAnswers frozen (.ok a) (.ok b)
  | complaints {c d : Complaint} (hc : c.concern.rejects = true) (hd : d.concern.rejects = true) :
      AlikeAnswers frozen (.error c) (.error d)

/-- The rule of a schema answers alike about equal data. -/
def Schema.Respects (frozen : Text → Bool) (schema : Schema) : Prop :=
  ∀ a b x y, schema.Asks a x → schema.Asks b y → Data.Alike frozen a b →
    AlikeAnswers frozen x y

/-- The rules of all schemas that are built answer alike about equal data. -/
def Registry.Respects (frozen : Text → Bool) (r : Registry) : Prop :=
  ∀ entry ∈ r.entries, ∀ arguments schema, entry.2.build arguments = .ok schema →
    schema.Respects frozen

theorem AlikeAnswers.ofRule {x y : Except Complaint Data} (h : AlikeAnswers frozen x y)
    (description other : Text) (value seen : Json) :
    (Attempt.ofRule description value x).Alike (Data.Alike frozen)
      (Attempt.ofRule other seen y) := by
  cases h with
  | data h => exact .of_done h
  | complaints hc hd =>
      simp only [Attempt.ofRule, if_pos hc, if_pos hd]
      exact .of_refuse _ _

/-! ## Containers -/

namespace Decoder

open Json (Like FieldsLike)

/-- A way to decode that ends alike on values that are reorderings of each other. -/
def IgnoresOrder (frozen : Text → Bool) (step : Spec → Json → Attempt Data) : Prop :=
  ∀ (spec : Spec) (value other : Json), Like value other →
    (step spec value).Alike (Data.Alike frozen) (step spec other)

variable {f : Json → Attempt Data} {value other : Json}

theorem alike_of_refused (hvalue : ∃ cause, f value = .refuse cause)
    (hother : ∃ cause, f other = .refuse cause) :
    (f value).Alike (Data.Alike frozen) (f other) := by
  obtain ⟨cause, hvalue⟩ := hvalue
  obtain ⟨cause', hother⟩ := hother
  rw [hvalue, hother]
  exact .of_refuse _ _

/-- What refuses all values but arrays has to be looked at for arrays only. -/
theorem alike_of_arrays (hlike : Like value other)
    (hkind : ∀ value : Json, value.tag ≠ .array → ∃ cause, f value = .refuse cause)
    (harrays : ∀ items others, List.Forall₂ Like items others →
      (f (.array items)).Alike (Data.Alike frozen) (f (.array others))) :
    (f value).Alike (Data.Alike frozen) (f other) := by
  rcases hlike.cases with ⟨rfl, data, hdata⟩ | ⟨items, others, rfl, rfl, hitems⟩ |
    ⟨fields, others, rfl, rfl, -⟩
  · have hrefused := hkind value (Json.tag_of_scalar hdata).1
    exact alike_of_refused hrefused hrefused
  · exact harrays items others hitems
  · exact alike_of_refused (hkind _ (by simp [Json.tag])) (hkind _ (by simp [Json.tag]))

/-- What refuses all values but objects has to be looked at for objects only. -/
theorem alike_of_objects (hlike : Like value other)
    (hkind : ∀ value : Json, value.tag ≠ .object → ∃ cause, f value = .refuse cause)
    (hobjects : ∀ fields others, FieldsLike fields others →
      (f (.object fields)).Alike (Data.Alike frozen) (f (.object others))) :
    (f value).Alike (Data.Alike frozen) (f other) := by
  rcases hlike.cases with ⟨rfl, data, hdata⟩ | ⟨items, others, rfl, rfl, -⟩ |
    ⟨fields, others, rfl, rfl, hfields⟩
  · have hrefused := hkind value (Json.tag_of_scalar hdata).2
    exact alike_of_refused hrefused hrefused
  · exact alike_of_refused (hkind _ (by simp [Json.tag])) (hkind _ (by simp [Json.tag]))
  · exact hobjects fields others hfields

/-- Alike elements make alike sets, or cannot be in a set on either side. -/
theorem setOf_alike {as bs : List Data} (h : List.Forall₂ (Data.Alike frozen) as bs)
    (spec : Spec) (value other : Json) :
    (setOf spec value as).Alike (Data.Alike frozen) (setOf spec other bs) := by
  have hiff := Data.Alike.unhashableItem?_iff h
  have hrefused {data : List Data} (hdata : ∀ d ∈ data, d.Lawful frozen)
      (hsome : Data.unhashableItem? data ≠ none) (seen : Json) :
      ∃ cause, UnlessFlawed (setOf spec seen data) (.refuse cause) := by
    obtain ⟨reason, hreason⟩ := Option.ne_none_iff_exists'.mp hsome
    obtain ⟨d, hd, hown⟩ := Data.exists_of_unhashableItem? hreason
    cases reason with
    | lacking className field => exact ((hdata d hd).unhashable?_ne_lacking _ _ hown).elim
    | kind | signalling =>
        simp only [setOf, hreason]
        exact ⟨_, .describable (.inl rfl) _⟩
  by_cases has : Data.unhashableItem? as = none
  · have hbs := hiff.mp has
    simp only [setOf, has, hbs]
    exact .of_done (.setOf h has hbs)
  · obtain ⟨hlawful, hother⟩ := Data.Alike.lawful_of_forall₂ h
    obtain ⟨cause, hvalue⟩ := hrefused hlawful has value
    obtain ⟨cause', hseen⟩ := hrefused hother (fun hbs => has (hiff.mpr hbs)) other
    exact (Alike.of_refuse cause cause').unlessStray hvalue hseen

section

variable {step : Spec → Json → Attempt Data} (h : IgnoresOrder frozen step)
include h

theorem elements_alike (element : Spec) {items others : List Json}
    (hitems : List.Forall₂ Like items others) (index : Nat) :
    (elements (step element) index items).Alike (List.Forall₂ (Data.Alike frozen))
      (elements (step element) index others) := by
  induction hitems generalizing index with
  | nil => exact .of_done .nil
  | cons hitem _ ih =>
      exact ((h element _ _ hitem).located _ _).bind fun a b hab =>
        (ih (index + 1)).map fun as bs hrest => .cons hab hrest

theorem positions_alike (specs : List Spec) {items others : List Json}
    (hitems : List.Forall₂ Like items others) (index : Nat) :
    (positions step index specs items).Alike (List.Forall₂ (Data.Alike frozen))
      (positions step index specs others) := by
  induction hitems generalizing specs index with
  | nil => cases specs <;> exact .of_done .nil
  | cons hitem _ ih =>
      cases specs with
      | nil => exact .of_done .nil
      | cons spec specs =>
          exact ((h spec _ _ hitem).located _ _).bind fun a b hab =>
            (ih specs (index + 1)).map fun as bs hrest => .cons hab hrest

/-- **Fields in any order** decode to equal dictionaries. -/
theorem entries_alike (content : Spec) {fields others : List (Text × Json)}
    (hfields : FieldsLike fields others) :
    ((entries (step content) fields).map .dict).Alike (Data.Alike frozen)
      ((entries (step content) others).map .dict) := by
  have hparts : Matched (fun part other => part.2.Alike (Data.AlikeEntries frozen) other.2)
      (fieldParts (step content) fields) (fieldParts (step content) others) := by
    have hpart (key : Text) {value other : Json} (hlike : Like value other) :
        ((step content value).map fun data => (Data.str key, data)).Alike
          (Data.AlikeEntries frozen)
          ((step content other).map fun data => (Data.str key, data)) :=
      (h content _ _ hlike).map fun a b hab => ⟨.str key, hab⟩
    refine ⟨?_, fun part hmem => ?_, fun part hmem => ?_⟩
    · have hlength := hfields.keys.length_eq
      simpa [Assoc.keys, fieldParts] using hlength
    · obtain ⟨⟨key, value⟩, hfield, rfl⟩ := List.mem_map.mp hmem
      obtain ⟨other, hother, hlike⟩ := hfields.exists_other hfield
      exact ⟨_, List.mem_map_of_mem hother, hpart key hlike⟩
    · obtain ⟨⟨key, other⟩, hother, rfl⟩ := List.mem_map.mp hmem
      obtain ⟨value, hfield, hlike⟩ := hfields.exists_field hother
      exact ⟨_, List.mem_map_of_mem hfield, hpart key hlike⟩
  rw [entries_eq, entries_eq]
  exact (inOrder_alike hparts).map fun as bs hab => .dict hab

/-- Declared fields are decoded in declared order, whatever the order of the object is. -/
theorem declared_alike (declarations : List Field) {fields others : List (Text × Json)}
    (hfields : FieldsLike fields others) :
    (declared step fields declarations).Alike (List.Forall₂ (Data.AlikeEntries frozen))
      (declared step others declarations) := by
  induction declarations with
  | nil => exact .of_done .nil
  | cons field rest ih =>
      rcases hfields.lookup field.key with ⟨hnone, hnone'⟩ | ⟨value, other, hvalue, hother, hlike⟩
      · simp only [declared, hnone, hnone']
        exact ih
      · simp only [declared, hvalue, hother]
        exact ((h field.spec _ _ hlike).located _ _).bind fun a b hab =>
          ih.map fun as bs hrest => .cons ⟨.str field.key, hab⟩ hrest

/-! ## Specifications -/

theorem scalar_alike (kind : Primitive) {value other : Json} (hlike : Like value other) :
    (scalar step kind value).Alike (Data.Alike frozen) (scalar step kind other) := by
  have hmismatch {a b : Json} : (mismatch kind.name a).Alike (Data.Alike frozen)
      (mismatch kind.name b) := .of_refuse _ _
  rcases hlike.cases with ⟨rfl, data, hdata⟩ | ⟨items, others, rfl, rfl, hitems⟩ |
    ⟨fields, others, rfl, rfl, hfields⟩
  · have halike : Data.Alike frozen data data :=
      Json.alike_scalar hdata
    cases htag : tagOf? kind with
    | some tag =>
        simp only [scalar, htag, hdata]
        split
        · exact .of_done halike
        · exact hmismatch
    | none =>
        have hdone : scalar step kind value = .done data := by
          cases value <;> first | cases hdata; simp [scalar, htag, Json.scalar?] | cases hdata
        rw [hdone]
        exact .of_done halike
  · cases htag : tagOf? kind with
    | some tag =>
        simp only [scalar, htag, Json.scalar?]
        exact hmismatch
    | none =>
        simp only [scalar, htag]
        exact (elements_alike h .any hitems 0).map fun as bs hab => .list hab
  · cases htag : tagOf? kind with
    | some tag =>
        simp only [scalar, htag, Json.scalar?]
        exact hmismatch
    | none =>
        simp only [scalar, htag]
        exact entries_alike h .any hfields

theorem tupleOf_alike (specs : List Spec) {items others : List Json}
    (hitems : List.Forall₂ Like items others) :
    (tupleOf step specs (.array items)).Alike (Data.Alike frozen)
      (tupleOf step specs (.array others)) := by
  simp only [tupleOf, ← hitems.length_eq]
  split
  · exact (positions_alike h specs hitems 0).map fun as bs hab => .tuple hab
  · exact .of_refuse _ _

/-- A union comes to the same alternative. -/
theorem firstOf_alike (whole : Spec) {value other : Json} (hlike : Like value other)
    (alternatives : List Spec) :
    (firstOf step whole value alternatives).Alike (Data.Alike frozen)
      (firstOf step whole other alternatives) := by
  induction alternatives with
  | nil =>
      exact (Alike.of_refuse _ _).unlessStray (.describable (.inl rfl) _)
        (.describable (.inl rfl) _)
  | cons alternative rest ih =>
      cases h alternative _ _ hlike with
      | decoded ha hb hab =>
          rw [firstOf_of_not_failed (by simp [ha]), firstOf_of_not_failed (by simp [hb])]
          exact .decoded ha hb hab
      | failed hd he =>
          simp only [firstOf, hd, he]
          exact ih.unlessStray (.unresolved (.inl rfl) _ _ _) (.unresolved (.inl rfl) _ _ _)
      | disturbed hdisturbed =>
          refine .disturbed (hdisturbed.imp (fun h => ?_) fun h => ?_)
          · rwa [firstOf_of_not_failed fun e => h.not_failed]
          · rwa [firstOf_of_not_failed fun e => h.not_failed]

/-- **What a specification does** does not depend on the order of keys. -/
theorem matching_alike (spec : Spec) {value other : Json} (hlike : Like value other) :
    (matching step spec value).Alike (Data.Alike frozen) (matching step spec other) := by
  have hobjects (content : Spec) : (matching step (.objectOf content) value).Alike
      (Data.Alike frozen) (matching step (.objectOf content) other) := by
    refine alike_of_objects hlike (fun value hkind => ?_) fun fields others hfields => ?_
    · cases value <;> first | exact ⟨_, rfl⟩ | exact (hkind rfl).elim
    · exact entries_alike h content hfields
  cases spec with
  | primitive kind => exact scalar_alike h kind hlike
  | arrayOf element =>
      refine alike_of_arrays hlike (fun value hkind => ?_) fun items others hitems => ?_
      · cases value <;> first | exact ⟨_, rfl⟩ | exact (hkind rfl).elim
      · exact (elements_alike h element hitems 0).map fun as bs hab => .list hab
  | objectOf content => exact hobjects content
  | mapOf key content =>
      have hmapOf (seen : Json) : matching step (.mapOf key content) seen =
          if key.isString then matching step (.objectOf content) seen
          else .refuse (.unknownSpec key) := rfl
      rw [hmapOf, hmapOf]
      split
      · exact hobjects content
      · exact .of_refuse _ _
  | setOf element =>
      refine alike_of_arrays hlike (fun value hkind => ?_) fun items others hitems => ?_
      · cases value <;> first | exact ⟨_, rfl⟩ | exact (hkind rfl).elim
      · exact (elements_alike h element hitems 0).bind fun as bs hab => setOf_alike hab _ _ _
  | tupleOf specs =>
      refine alike_of_arrays hlike (fun value hkind => ?_) fun items others hitems => ?_
      · cases value <;> first | exact ⟨_, rfl⟩ | exact (hkind rfl).elim
      · exact tupleOf_alike h specs hitems
  | anyOf alternatives => exact firstOf_alike h _ hlike alternatives
  | _ => exact .of_fault _ _

/-! ## Schemas -/

/-- An object schema finds the same keys missing and decodes the same declared fields. -/
theorem object_alike {description : Text} {declarations : List Field} {assemble : Rule}
    (hrule : (Schema.object description declarations assemble).Respects frozen)
    {fields others : List (Text × Json)} (hfields : FieldsLike fields others) :
    (object step description declarations assemble fields).Alike (Data.Alike frozen)
      (object step description declarations assemble others) := by
  have hmissing : missingKeys declarations fields = missingKeys declarations others := by
    simp only [missingKeys, List.contains_eq_mem, hfields.keys.mem_iff]
  have hunknown : (unknownKeys declarations fields).isEmpty =
      (unknownKeys declarations others).isEmpty :=
    (hfields.keys.filter _).isEmpty_eq
  rw [object_eq, object_eq, hmissing, hunknown]
  split
  · exact .of_refuse _ _
  · split
    · exact .of_refuse _ _
    · refine (declared_alike h declarations hfields).bind fun entries others hentries => ?_
      exact (hrule _ _ _ _ (.object entries) (.object others) (.dict (.of_forall₂ hentries))).ofRule
        _ _ _ _

/-- **What a schema does** does not depend on the order of keys, if its rule does not. -/
theorem bySchema_alike {schema : Schema} (hraw : ¬schema.IsRaw)
    (hrule : schema.Respects frozen) {value other : Json} (hlike : Like value other)
    (room : Nat) :
    (bySchema registry step room schema value).Alike (Data.Alike frozen)
      (bySchema registry step room schema other) := by
  cases schema with
  | object description declarations assemble =>
      refine alike_of_objects hlike (fun value hkind => ?_) fun fields others hfields => ?_
      · cases value <;> first | exact ⟨_, rfl⟩ | exact (hkind rfl).elim
      · exact object_alike h hrule hfields
  | array description element assemble =>
      refine alike_of_arrays hlike (fun value hkind => ?_) fun items others hitems => ?_
      · cases value <;> first | exact ⟨_, rfl⟩ | exact (hkind rfl).elim
      · refine (elements_alike h element hitems 0).bind fun as bs hab => ?_
        exact (hrule _ _ _ _ (.array as) (.array bs) (.list hab)).ofRule _ _ _ _
  | scalar description shape convert =>
      rcases hlike.cases with ⟨rfl, data, hdata⟩ | ⟨items, others, rfl, rfl, -⟩ |
        ⟨fields, others, rfl, rfl, -⟩
      · simp only [bySchema, hdata]
        split
        · next hshape =>
            have halike : Data.Alike frozen data data :=
              Json.alike_scalar hdata
            have hanswers := hrule data data _ _ (.scalar hdata hshape) (.scalar hdata hshape) halike
            exact hanswers.ofRule _ _ _ _
        · exact .of_refuse _ _
      · exact .of_refuse _ _
      · exact .of_refuse _ _
  | raw => exact (hraw trivial).elim

end

/-! ## All together -/

/-- What follows from a course does not depend on the order of keys. -/
theorem follow_alike {registry : Registry} {room : Nat}
    (h : IgnoresOrder frozen (decode registry room)) (hmade : registry.IsMade)
    (hrespects : registry.Respects frozen) (spec : Spec) {value other : Json}
    (hlike : Like value other) :
    ((course registry spec value).follow registry (decode registry room) room value).Alike
      (Data.Alike frozen)
      ((course registry spec other).follow registry (decode registry room) room other) := by
  unfold course
  split
  · next identity arguments _ =>
      cases hresolve : registry.resolve identity with
      | none => exact .of_refuse _ _
      | some factory =>
          obtain ⟨key, hmem⟩ := Registry.mem_of_resolve hresolve
          cases hcall : factory.call arguments with
          | error fault =>
              simp only [hcall]
              exact .of_fault _ _
          | ok schema =>
              have hrule := hrespects _ hmem _ _ (Factory.call_ok hcall)
              simp only [hcall, ← bySchema_eq_follow]
              exact bySchema_alike h (hmade.not_raw hresolve hcall) hrule hlike room
  · simp only [← matching_eq_follow]
    exact matching_alike h _ hlike

/-- **Decoding does not depend on the order of keys**: values that are reorderings of each other
decode to equal data or fail both, unless one of the decodings is disturbed. -/
theorem decode_alike {registry : Registry} (hmade : registry.IsMade)
    (hrespects : registry.Respects frozen) (room : Nat) :
    IgnoresOrder frozen (decode registry room) := by
  -- the decodings inside have room for one less
  induction room with
  | zero => exact fun spec value other _ => .disturbed (.inl ⟨_, rfl, by simp⟩)
  | succ room ih =>
      intro spec value other hlike
      rw [decode_eq_follow, decode_eq_follow]
      exact (follow_alike ih hmade hrespects spec hlike).headed _ _ _ _ _ _

end Decoder

end JsonDecoding
