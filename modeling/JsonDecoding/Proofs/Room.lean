import JsonDecoding.Proofs.Containers

/-!
# Room

How much room a decoding is given decides only whether it finishes: an attempt that does not run
out of room is the same with more room, records and all (`decode_of_le`). Statements about one
room are thereby statements about every larger one.
-/

namespace JsonDecoding

namespace Attempt

variable {α β : Type}

/-- Unless it runs out of room, the first attempt is the second one. -/
def Settles (t u : Attempt α) : Prop := t.result = .error .exhausted ∨ t = u

namespace Settles

variable {t u : Attempt α}

theorem refl (t : Attempt α) : t.Settles t := .inr rfl

theorem map (h : t.Settles u) (f : α → β) : (t.map f).Settles (u.map f) := by
  rcases h with h | rfl
  · exact .inl (map_error.mpr h)
  · exact refl _

theorem mapStop (h : t.Settles u) {f : Stop → Stop} (hf : f .exhausted = .exhausted) :
    (t.mapStop f).Settles (u.mapStop f) := by
  rcases h with h | rfl
  · exact .inl (by simp [h, hf, Except.mapError])
  · exact refl _

theorem located (h : t.Settles u) (location : Location) :
    (t.located location).Settles (u.located location) := h.mapStop rfl

theorem bind (h : t.Settles u) {next other : α → Attempt β}
    (hnext : ∀ a, (next a).Settles (other a)) : (t.bind next).Settles (u.bind other) := by
  rcases h with h | rfl
  · exact .inl (bind_error.mpr (.inl h))
  · obtain ⟨log, result⟩ := t
    cases result with
    | error stop => exact refl _
    | ok a =>
        rcases hnext a with hexhausted | heq
        · exact .inl (bind_error.mpr (.inr ⟨a, rfl, hexhausted⟩))
        · exact .inr (by simp [Attempt.bind, heq])

theorem resume (h : t.Settles u) {next other : Except DecodeError α → Attempt β}
    (hnext : ∀ result, (next result).Settles (other result)) :
    (t.resume next).Settles (u.resume other) := by
  rcases h with h | rfl
  · exact .inl (by simp [Attempt.resume, h])
  · obtain ⟨log, result⟩ := t
    rcases result with ⟨e | fault | _⟩ | a
    · rcases hnext (.error e) with hexhausted | heq
      · exact .inl hexhausted
      · exact .inr (by simp [Attempt.resume, heq])
    · exact refl _
    · exact refl _
    · rcases hnext (.ok a) with hexhausted | heq
      · exact .inl hexhausted
      · exact .inr (by simp [Attempt.resume, heq])

theorem after (h : t.Settles u) (records : List Log.Record) :
    (t.after records).Settles (u.after records) := by
  rcases h with h | rfl
  · exact .inl h
  · exact refl _

/-- More room for showing the value lets no frame be lost. -/
theorem framed (h : t.Settles u) {room more : Nat} (hroom : room ≤ more) (description : Text)
    (value : Json) :
    (t.framed room description value).Settles (u.framed more description value) := by
  rcases h with h | rfl
  · exact .inl (by simp [Attempt.framed, h, Except.mapError])
  · obtain ⟨log, result⟩ := t
    rcases result with ⟨e | fault | _⟩ | a
    · rcases unshown?_of_le hroom value with hexhausted | hsame
      · -- a value that could not be shown has used up the room already
        exact .inl (by simp [Attempt.framed, shownAs, Except.mapError, hexhausted])
      · refine .inr ?_
        simp [Attempt.framed, Attempt.mapStop, shownAs, Except.mapError, hsame]
    all_goals exact refl _

theorem framedBy (h : t.Settles u) {room more : Nat} (hroom : room ≤ more) (spec : Spec)
    (value : Json) : (t.framedBy room spec value).Settles (u.framedBy more spec value) := by
  cases hflaw : spec.flaw? with
  | some flaw =>
      simp only [Attempt.framedBy, hflaw]
      exact h.mapStop rfl
  | none =>
      simp only [Attempt.framedBy, hflaw]
      exact h.framed hroom spec.describe value

/-- Parts settle together when each does. -/
theorem inOrder {ι : Type} {parts : List ι} {f g : ι → Location × Attempt α}
    (h : ∀ part ∈ parts, (f part).1 = (g part).1 ∧ (f part).2.Settles (g part).2) :
    (inOrder (parts.map f)).Settles (Attempt.inOrder (parts.map g)) := by
  induction parts with
  | nil => exact refl _
  | cons part rest ih =>
      obtain ⟨hlocation, hattempt⟩ := h part (by simp)
      have hrest := ih fun p hp => h p (by simp [hp])
      simp only [List.map_cons, Attempt.inOrder, hlocation]
      exact (hattempt.located _).bind fun a => hrest.map _

end Settles

end Attempt

/-! ## Decoding with more room -/

namespace Decoder

open Attempt

variable {step more : Spec → Json → Attempt Data}

theorem elements_settles (h : ∀ spec value, (step spec value).Settles (more spec value))
    (element : Spec) (index : Nat) (items : List Json) :
    (elements (step element) index items).Settles (elements (more element) index items) := by
  rw [elements_eq, elements_eq]
  exact .inOrder fun item _ => ⟨rfl, h element item.1⟩

theorem entries_settles (h : ∀ spec value, (step spec value).Settles (more spec value))
    (content : Spec) (fields : List (Text × Json)) :
    (entries (step content) fields).Settles (entries (more content) fields) := by
  rw [entries_eq, entries_eq]
  exact .inOrder fun field _ => ⟨rfl, (h content field.2).map _⟩

theorem positions_settles (h : ∀ spec value, (step spec value).Settles (more spec value))
    (index : Nat) (specs : List Spec) (items : List Json) :
    (positions step index specs items).Settles (positions more index specs items) := by
  rw [positions_eq, positions_eq]
  exact .inOrder fun part _ => ⟨rfl, h part.1.1 part.1.2⟩

theorem declared_settles (h : ∀ spec value, (step spec value).Settles (more spec value))
    (object : List (Text × Json)) (fields : List Field) :
    (declared step object fields).Settles (declared more object fields) := by
  rw [declared_eq, declared_eq]
  exact .inOrder fun part _ => ⟨rfl, (h part.1.spec part.2).map _⟩

theorem describable_settles {t u : Attempt Data} (h : t.Settles u) (spec : Spec) :
    (describable spec t).Settles (describable spec u) := by
  unfold describable
  split
  · exact h
  · exact .refl _

theorem unresolved_settles {t u : Attempt Data} (h : t.Settles u) (whole alternative : Spec)
    (e : DecodeError) :
    (unresolved whole alternative e t).Settles (unresolved whole alternative e u) := by
  cases hcause : e.cause with
  | unknownSpec spec =>
      simp only [unresolved, hcause]
      exact describable_settles (describable_settles (describable_settles (h.after _) _) _) _
  | _ =>
      simp only [unresolved, hcause]
      exact h

theorem firstOf_settles (h : ∀ spec value, (step spec value).Settles (more spec value))
    (whole : Spec) (value : Json) (alternatives : List Spec) :
    (firstOf step whole value alternatives).Settles (firstOf more whole value alternatives) := by
  induction alternatives with
  | nil => exact .refl _
  | cons alternative rest ih =>
      rcases h alternative value with hexhausted | heq
      · exact .inl (by simp [firstOf, hexhausted])
      · simp only [firstOf, heq]
        split
        · exact (unresolved_settles ih whole alternative _).after _
        · exact .refl _

theorem scalar_settles (h : ∀ spec value, (step spec value).Settles (more spec value))
    (kind : Primitive) (value : Json) :
    (scalar step kind value).Settles (scalar more kind value) := by
  unfold scalar
  split
  · exact .refl _
  · split
    · exact (elements_settles h _ _ _).map _
    · exact (entries_settles h _ _).map _
    · exact .refl _

theorem tupleOf_settles (h : ∀ spec value, (step spec value).Settles (more spec value))
    (specs : List Spec) (value : Json) :
    (tupleOf step specs value).Settles (tupleOf more specs value) := by
  unfold tupleOf
  split
  · split
    · exact (positions_settles h _ _ _).map _
    · exact .refl _
  · exact .refl _

theorem matching_settles (h : ∀ spec value, (step spec value).Settles (more spec value))
    (spec : Spec) (value : Json) :
    (matching step spec value).Settles (matching more spec value) := by
  unfold matching
  split
  · exact scalar_settles h _ _
  · split
    · exact (elements_settles h _ _ _).map _
    · exact .refl _
  · split
    · exact (entries_settles h _ _).map _
    · exact .refl _
  · split
    · split
      · exact (entries_settles h _ _).map _
      · exact .refl _
    · exact .refl _
  · split
    · exact (elements_settles h _ _ _).bind fun _ => .refl _
    · exact .refl _
  · exact tupleOf_settles h _ _
  · exact firstOf_settles h _ _ _
  · exact .refl _

theorem run_settles (h : ∀ spec value, (step spec value).Settles (more spec value))
    {room larger : Nat} (hroom : room ≤ larger) (procedure : Procedure) :
    (run registry step room procedure).Settles (run registry more larger procedure) := by
  induction procedure with
  | answer result => cases result <;> exact .refl _
  | complain => exact .refl _
  | render value next ih =>
      unfold run
      rcases unshown?_of_le hroom value with hexhausted | hsame
      · exact .inl (by simp [hexhausted, Attempt.stopped])
      · rw [hsame]
        split
        · exact ih _
        · exact .refl _
  | load value hint next ih => exact (Settles.refl _).bind fun spec => (h spec value).resume ih
  | consult identity next ih => exact ih _
  | survey next ih => exact ih _

theorem bySchema_settles (h : ∀ spec value, (step spec value).Settles (more spec value))
    {room larger : Nat} (hroom : room ≤ larger) (schema : Schema) (value : Json) :
    (bySchema registry step room schema value).Settles
      (bySchema registry more larger schema value) := by
  unfold bySchema
  split
  · rw [object_eq, object_eq]
    split
    · exact .refl _
    · split
      · exact .refl _
      · exact (declared_settles h _ _).bind fun _ => .refl _
  · exact (elements_settles h _ _ _).bind fun _ => .refl _
  · exact .refl _
  · split
    · unfold handled
      split
      · exact (Settles.refl _).bind fun spec => (h spec _).map _
      · exact run_settles h hroom _
    · exact .refl _
  · exact .refl _

theorem custom_settles (registry : Registry)
    (h : ∀ spec value, (step spec value).Settles (more spec value)) {room larger : Nat}
    (hroom : room ≤ larger) (identity : Spec) (arguments : List Spec) (value : Json) :
    (custom registry step room identity arguments value).Settles
      (custom registry more larger identity arguments value) := by
  unfold custom
  split
  · exact (Settles.refl _).framedBy hroom _ _
  · exact (Settles.refl _).bind fun schema =>
      (bySchema_settles h hroom schema value).framed hroom _ _

theorem decode_settles (registry : Registry) {room larger : Nat} (hroom : room ≤ larger)
    (spec : Spec) (value : Json) :
    (decode registry room spec value).Settles (decode registry larger spec value) := by
  induction room generalizing larger spec value with
  | zero => exact .inl rfl
  | succ room ih =>
      obtain ⟨larger, rfl⟩ : ∃ n, larger = n + 1 := ⟨larger - 1, by omega⟩
      have hstep (spec value) :
          (decode registry room spec value).Settles (decode registry larger spec value) :=
        ih (by omega) spec value
      unfold decode
      simp only
      split
      · exact custom_settles registry hstep (by omega) _ _ _
      · exact (matching_settles hstep _ value).framedBy (by omega) _ _

/-- **More room changes nothing** for a decoding that finishes with less. -/
theorem decode_of_le {registry : Registry} {room larger : Nat} (hroom : room ≤ larger)
    {spec : Spec} {value : Json}
    (hfinished : (decode registry room spec value).result ≠ .error .exhausted) :
    decode registry larger spec value = decode registry room spec value :=
  ((decode_settles registry hroom spec value).resolve_left hfinished).symm

end Decoder

end JsonDecoding
