import Mathlib.Data.List.Forall2
import JsonDecoding.Proofs.Flaws

/-!
# Outcomes

When a combined outcome is a success or a stop, read off from the outcomes that it combines: first
for plain results, then for attempts.
-/

namespace JsonDecoding

/-! ## Results -/

namespace Outcomes

variable {ε δ α β : Type}

theorem map_ok {f : α → β} {x : Except ε α} {b : β} :
    x.map f = .ok b ↔ ∃ a, x = .ok a ∧ f a = b := by
  cases x <;> simp [Except.map]

theorem map_error {f : α → β} {x : Except ε α} {e : ε} :
    x.map f = .error e ↔ x = .error e := by
  cases x <;> simp [Except.map]

theorem bind_ok {x : Except ε α} {next : α → Except ε β} {b : β} :
    x.bind next = .ok b ↔ ∃ a, x = .ok a ∧ next a = .ok b := by
  cases x <;> simp [Except.bind]

theorem bind_error {x : Except ε α} {next : α → Except ε β} {e : ε} :
    x.bind next = .error e ↔ x = .error e ∨ ∃ a, x = .ok a ∧ next a = .error e := by
  cases x <;> simp [Except.bind]

theorem mapError_ok {f : ε → δ} {x : Except ε α} {a : α} :
    x.mapError f = .ok a ↔ x = .ok a := by
  cases x <;> simp [Except.mapError]

/-- Results in order succeed together exactly when each does. -/
theorem mapM_ok {f : α → Except ε β} {as : List α} {bs : List β} :
    as.mapM f = .ok bs ↔ List.Forall₂ (fun a b => f a = .ok b) as bs := by
  induction as generalizing bs with
  | nil => simp [pure, Except.pure, eq_comm]
  | cons a rest ih =>
      simp only [List.mapM_cons, bind, bind_ok, ih, List.forall₂_cons_left_iff, pure, Except.pure]
      constructor
      · rintro ⟨b, hb, others, hothers, heq⟩
        cases heq
        exact ⟨b, others, hb, hothers, rfl⟩
      · rintro ⟨b, others, hb, hothers, rfl⟩
        exact ⟨b, hb, others, hothers, rfl⟩

/-- Related lists relate each member of the first to one of the second. -/
theorem exists_of_forall₂ {R : α → β → Prop} {as : List α} {bs : List β} (h : List.Forall₂ R as bs)
    {a : α} (ha : a ∈ as) : ∃ b ∈ bs, R a b := by
  induction h with
  | nil => cases ha
  | cons hfirst _ ih =>
      rcases List.mem_cons.mp ha with rfl | hrest
      · exact ⟨_, List.mem_cons_self .., hfirst⟩
      · obtain ⟨b, hb, hab⟩ := ih hrest
        exact ⟨b, List.mem_cons_of_mem _ hb, hab⟩

theorem exists_of_mapM_ok {f : α → Except ε β} {as : List α} {bs : List β}
    (h : as.mapM f = .ok bs) {a : α} (ha : a ∈ as) : ∃ b ∈ bs, f a = .ok b :=
  exists_of_forall₂ (mapM_ok.mp h) ha

/-- What is among the results is the result of something. -/
theorem exists_of_mem_mapM {f : α → Except ε β} {as : List α} {bs : List β}
    (h : as.mapM f = .ok bs) {b : β} (hb : b ∈ bs) : ∃ a ∈ as, f a = .ok b :=
  exists_of_forall₂ (mapM_ok.mp h).flip hb

/-- Results in order end in an error only where one of them does. -/
theorem exists_of_mapM_error {f : α → Except ε β} {as : List α} {e : ε}
    (h : as.mapM f = .error e) : ∃ a ∈ as, f a = .error e := by
  induction as with
  | nil => cases h
  | cons a rest ih =>
      rw [List.mapM_cons] at h
      rcases bind_error.mp h with hfirst | ⟨b, -, hrest⟩
      · exact ⟨a, List.mem_cons_self .., hfirst⟩
      · rcases bind_error.mp hrest with hothers | ⟨others, -, hpure⟩
        · obtain ⟨other, hmem, hother⟩ := ih hothers
          exact ⟨other, List.mem_cons_of_mem _ hmem, hother⟩
        · cases hpure

theorem exists_mapM_ok {f : α → Except ε β} {as : List α} (h : ∀ a ∈ as, ∃ b, f a = .ok b) :
    ∃ bs, as.mapM f = .ok bs := by
  induction as with
  | nil => exact ⟨[], rfl⟩
  | cons a rest ih =>
      obtain ⟨b, hb⟩ := h a (List.mem_cons_self ..)
      obtain ⟨others, hothers⟩ := ih fun other hmem => h other (List.mem_cons_of_mem _ hmem)
      exact ⟨b :: others, mapM_ok.mpr (.cons hb (mapM_ok.mp hothers))⟩

/-- What each step preserves is the same of all the results. -/
theorem map_of_mapM_ok {γ : Type} {f : α → Except ε β} {g : α → γ} {k : β → γ}
    (hf : ∀ a b, f a = .ok b → k b = g a) {as : List α} {bs : List β} (h : as.mapM f = .ok bs) :
    bs.map k = as.map g := by
  have heach := mapM_ok.mp h
  clear h
  induction heach with
  | nil => rfl
  | cons hfirst _ ih => rw [List.map_cons, List.map_cons, hf _ _ hfirst, ih]

end Outcomes

/-! ## Attempts -/

namespace Attempt

variable {α β γ : Type}

theorem map_ok {f : α → β} {t : Attempt α} {b : β} :
    (t.map f).result = .ok b ↔ ∃ a, t.result = .ok a ∧ f a = b := Outcomes.map_ok

theorem map_error {f : α → β} {t : Attempt α} {stop : Stop} :
    (t.map f).result = .error stop ↔ t.result = .error stop := Outcomes.map_error

theorem bind_ok {t : Attempt α} {next : α → Attempt β} {b : β} :
    (t.bind next).result = .ok b ↔ ∃ a, t.result = .ok a ∧ (next a).result = .ok b := by
  rw [result_bind, Outcomes.bind_ok]

theorem bind_error {t : Attempt α} {next : α → Attempt β} {stop : Stop} :
    (t.bind next).result = .error stop ↔
      t.result = .error stop ∨ ∃ a, t.result = .ok a ∧ (next a).result = .error stop := by
  rw [result_bind, Outcomes.bind_error]

theorem ofExcept_ok {x : Except Fault α} {a : α} :
    (ofExcept x).result = .ok a ↔ x = .ok a := by
  cases x <;> simp [ofExcept, done, fault, stopped]

theorem ofExcept_error {x : Except Fault α} {stop : Stop} :
    (ofExcept x).result = .error stop ↔ ∃ f, x = .error f ∧ stop = .faulted f := by
  cases x <;> simp [ofExcept, done, fault, stopped, eq_comm]

theorem located_ok {t : Attempt α} {location : Location} {a : α} :
    (t.located location).result = .ok a ↔ t.result = .ok a := Outcomes.mapError_ok

theorem located_failed {t : Attempt α} {location : Location} {e : DecodeError} :
    (t.located location).result = .error (.failed e) ↔
      ∃ inner, t.result = .error (.failed inner) ∧ e = inner.locatedAt location := by
  obtain ⟨log, result⟩ := t
  rcases result with ⟨_ | _ | _⟩ | _ <;> simp [located, Except.mapError, eq_comm]

theorem framed_ok {t : Attempt α} {room : Nat} {description : Text} {value : Json} {a : α} :
    (t.framed room description value).result = .ok a ↔ t.result = .ok a := Outcomes.mapError_ok

/-- A failure that was framed is one whose value could be shown. -/
theorem framed_failed {t : Attempt α} {room : Nat} {description : Text} {value : Json}
    {e : DecodeError} :
    (t.framed room description value).result = .error (.failed e) ↔
      ∃ inner, t.result = .error (.failed inner) ∧ value.IsShowable room ∧
        e = inner.within description value := by
  obtain ⟨log, result⟩ := t
  rcases result with ⟨inner | _ | _⟩ | _
  · simp [framed, Except.mapError, shownAs_failed]
  all_goals simp [framed, Except.mapError]

theorem framedBy_ok {t : Attempt α} {room : Nat} {spec : Spec} {value : Json} {a : α} :
    (t.framedBy room spec value).result = .ok a ↔ t.result = .ok a := Outcomes.mapError_ok

/-- A specification that has a description frames by it. -/
theorem framedBy_of_hasDescription {spec : Spec} (hspec : spec.HasDescription) (t : Attempt α)
    (room : Nat) (value : Json) :
    t.framedBy room spec value = t.framed room spec.describe value := by
  have hflaw : spec.flaw? = none := hspec
  simp only [framedBy, framed, hflaw]

theorem framedBy_failed {t : Attempt α} {room : Nat} {spec : Spec} {value : Json}
    {e : DecodeError} :
    (t.framedBy room spec value).result = .error (.failed e) ↔
      spec.HasDescription ∧ ∃ inner, t.result = .error (.failed inner) ∧ value.IsShowable room ∧
        e = inner.within spec.describe value := by
  cases hflaw : spec.flaw? with
  | none =>
      have hspec : spec.HasDescription := hflaw
      rw [framedBy_of_hasDescription hspec, framed_failed]
      simp [hspec]
  | some flaw =>
      have hspec : ¬spec.HasDescription := by simp [Spec.HasDescription, hflaw]
      obtain ⟨log, result⟩ := t
      rcases result with ⟨_ | _ | _⟩ | _ <;>
        simp [framedBy, hflaw, Except.mapError, hspec]

/-- What is done to a result does not depend on the location. -/
theorem map_located (f : α → β) (t : Attempt α) (location : Location) :
    (t.map f).located location = (t.located location).map f := by
  obtain ⟨log, result⟩ := t
  cases result <;> rfl

theorem bind_map (f : α → β) (t : Attempt α) (next : β → Attempt γ) :
    (t.map f).bind next = t.bind fun a => next (f a) := by
  obtain ⟨log, result⟩ := t
  cases result <;> rfl

/-- A rule gives what it answers. -/
theorem ofRule_ok {description : Text} {value : Json} {answer : Except Complaint Data}
    {data : Data} : (ofRule description value answer).result = .ok data ↔ answer = .ok data := by
  cases answer with
  | ok other => simp [ofRule, done]
  | error complaint =>
      by_cases hrejects : complaint.concern.rejects = true <;>
        simp [ofRule, hrejects, refuse, fault, stopped]

/-- A rule refuses a value only with a complaint that rejects it. -/
theorem ofRule_failed {description : Text} {value : Json} {answer : Except Complaint Data}
    {e : DecodeError} (h : (ofRule description value answer).result = .error (.failed e)) :
    ∃ detail, e = .ofCause (.invalid description value detail) := by
  cases answer with
  | ok data => simp [ofRule, done] at h
  | error complaint =>
      by_cases hrejects : complaint.concern.rejects = true
      · simp only [ofRule, hrejects, if_true, refuse, stopped, Except.error.injEq,
          Stop.failed.injEq] at h
        exact ⟨complaint.message, h.symm⟩
      · simp [ofRule, hrejects, fault, stopped] at h

/-- A rule ends in a fault with any other complaint. -/
theorem ofRule_faulted {description : Text} {value : Json} {answer : Except Complaint Data}
    {fault : Fault} :
    (ofRule description value answer).result = .error (.faulted fault) ↔
      ∃ complaint, answer = .error complaint ∧ complaint.concern.rejects = false ∧
        fault = .complaint complaint := by
  cases answer with
  | ok data => simp [ofRule, done]
  | error complaint =>
      by_cases hrejects : complaint.concern.rejects = true
      · simp [ofRule, hrejects, refuse, stopped]
      · have hresult : (ofRule description value (.error complaint)).result =
            .error (.faulted (.complaint complaint)) := by
          rw [ofRule, if_neg hrejects]
          rfl
        rw [hresult]
        constructor
        · intro h
          cases h
          exact ⟨complaint, rfl, eq_false_of_ne_true hrejects, rfl⟩
        · rintro ⟨other, hother, -, rfl⟩
          cases hother
          rfl

end Attempt

end JsonDecoding
