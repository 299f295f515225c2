import JsonDecoding.Proofs.Arrivals

/-!
# Bare containers

A bare container is short for the container of any values. Decoding writes out only the one that it
is about to decode by, descriptions none at all; still both are the same as if all bare containers
had been written out beforehand, at every depth (`Spec.expanded`). A failure can tell the difference
by one thing, the key of a map that it finds fault with, and its report has the same words for it.
So two attempts are compared by what they are when that key is written out (`Attempt.expanded`): to
write out commutes with all that attempts are made of, and decoding is the same up to it
(`decode_expanded`).
-/

namespace JsonDecoding

open Attempt Decoder

/-! ## Writing out -/

namespace Spec

mutual

/-- The specification with containers of any values for bare ones, at every depth. What custom
specifications are given stays as it is. -/
def expanded : Spec → Spec
  | .bareArray => .arrayOf .any
  | .bareObject => .objectOf .any
  | .arrayOf element => .arrayOf (expanded element)
  | .objectOf value => .objectOf (expanded value)
  | .mapOf key value => .mapOf (expanded key) (expanded value)
  | .setOf element => .setOf (expanded element)
  | .tupleOf elements => .tupleOf (expandedAll elements)
  | .anyOf alternatives => .anyOf (expandedAll alternatives)
  | spec => spec

/-- Specifications in order, all written out. -/
def expandedAll : List Spec → List Spec
  | [] => []
  | spec :: rest => expanded spec :: expandedAll rest

end

@[simp] theorem isAny_expanded (spec : Spec) : spec.expanded.isAny = spec.isAny := by
  cases spec <;> rfl

@[simp] theorem isString_expanded (spec : Spec) : spec.expanded.isString = spec.isString := by
  cases spec <;> rfl

@[simp] theorem length_expandedAll (specs : List Spec) :
    (expandedAll specs).length = specs.length := by
  induction specs with
  | nil => rfl
  | cons spec rest ih => simp only [expandedAll, List.length_cons, ih]

mutual

/-- **The description** is the same when all is written out. -/
@[simp] theorem describe_expanded (spec : Spec) : spec.expanded.describe = spec.describe := by
  cases spec with
  | arrayOf element | objectOf element | setOf element =>
      simp only [expanded, describe, isAny_expanded, describe_expanded element]
  | mapOf key value =>
      simp only [expanded, describe, describe_expanded key, describe_expanded value]
  | tupleOf elements => simp only [expanded, describe, describeAll_expandedAll elements]
  | anyOf alternatives =>
      cases alternatives with
      | nil => rfl
      | cons first rest =>
          have hall := describeAll_expandedAll (first :: rest)
          simp only [expandedAll] at hall
          simp only [expanded, expandedAll, describe, hall]
  | _ => rfl

@[simp] theorem describeAll_expandedAll (specs : List Spec) :
    describeAll (expandedAll specs) = describeAll specs := by
  cases specs with
  | nil => rfl
  | cons spec rest =>
      simp only [expandedAll, describeAll, describe_expanded spec, describeAll_expandedAll rest]

end

mutual

/-- So is the first flaw that it meets, if there is one. -/
@[simp] theorem flaw?_expanded (spec : Spec) : spec.expanded.flaw? = spec.flaw? := by
  cases spec with
  | arrayOf element | objectOf element | setOf element => exact flaw?_expanded element
  | mapOf key value => simp only [expanded, flaw?, flaw?_expanded key, flaw?_expanded value]
  | tupleOf specs | anyOf specs => exact flawAmong?_expandedAll specs
  | _ => rfl

@[simp] theorem flawAmong?_expandedAll (specs : List Spec) :
    flawAmong? (expandedAll specs) = flawAmong? specs := by
  cases specs with
  | nil => rfl
  | cons spec rest =>
      simp only [expandedAll, flawAmong?, flaw?_expanded spec, flawAmong?_expandedAll rest]

end

mutual

/-- What has been written out has no bare containers any more. -/
@[simp] theorem expanded_expanded (spec : Spec) : spec.expanded.expanded = spec.expanded := by
  cases spec with
  | arrayOf element | objectOf element | setOf element =>
      simp only [expanded, expanded_expanded element]
  | mapOf key value => simp only [expanded, expanded_expanded key, expanded_expanded value]
  | tupleOf specs | anyOf specs => simp only [expanded, expandedAll_expandedAll specs]
  | _ => rfl

@[simp] theorem expandedAll_expandedAll (specs : List Spec) :
    expandedAll (expandedAll specs) = expandedAll specs := by
  cases specs with
  | nil => rfl
  | cons spec rest =>
      simp only [expandedAll, expanded_expanded spec, expandedAll_expandedAll rest]

end

theorem desugar_expanded (spec : Spec) : spec.expanded.desugar = spec.expanded := by
  cases spec <;> rfl

theorem isCustom_expanded (spec : Spec) : spec.expanded.IsCustom ↔ spec.IsCustom := by
  cases spec <;> rfl

end Spec

/-! ## Failures -/

namespace Cause

/-- The cause with the key of a map written out, where that is at fault. -/
def expanded : Cause → Cause
  | .unknownSpec spec => .unknownSpec spec.expanded
  | cause => cause

@[simp] theorem name_expanded (cause : Cause) : cause.expanded.name = cause.name := by
  cases cause <;> rfl

@[simp] theorem reason_expanded (cause : Cause) : cause.expanded.reason = cause.reason := by
  cases cause with
  | unknownSpec spec => simp only [expanded, reason, Spec.describe_expanded]
  | _ => rfl

@[simp] theorem flaw?_expanded (cause : Cause) : cause.expanded.flaw? = cause.flaw? := by
  cases cause with
  | unknownSpec spec => exact spec.flaw?_expanded
  | _ => rfl

/-- The last line tells custom specifications from others, which writing out does not change. -/
@[simp] theorem conclusion_expanded (cause : Cause) :
    cause.expanded.conclusion = cause.conclusion := by
  cases cause with
  | unknownSpec spec =>
      have hdescribe := spec.describe_expanded
      cases spec with
      | custom => rfl
      | _ => exact congrArg (fun words => Text.lit "But `" ++ words ++
          Text.lit "` cannot be read as a key; only string map keys are supported") hdescribe
  | _ => rfl

end Cause

/-- The error with its cause written out. -/
def DecodeError.expanded (e : DecodeError) : DecodeError := ⟨e.cause.expanded, e.frames⟩

/-- The stop with the cause of a failure written out. -/
def Stop.expanded : Stop → Stop
  | .failed e => .failed e.expanded
  | stop => stop

namespace DecodeError

theorem expanded_locatedAt (e : DecodeError) (location : Location) :
    (e.locatedAt location).expanded = e.expanded.locatedAt location := by
  obtain ⟨cause, frames⟩ := e
  cases frames <;> rfl

end DecodeError

/-! ## Attempts -/

namespace Attempt

variable {α β : Type}

/-- The attempt with the cause of a failure written out. -/
def expanded (t : Attempt α) : Attempt α := t.mapStop Stop.expanded

theorem expanded_map (t : Attempt α) (f : α → β) : (t.map f).expanded = t.expanded.map f := by
  obtain ⟨log, result⟩ := t
  cases result <;> rfl

theorem expanded_bind (t : Attempt α) (next : α → Attempt β) :
    (t.bind next).expanded = t.expanded.bind fun a => (next a).expanded := by
  obtain ⟨log, result⟩ := t
  cases result <;> rfl

theorem expanded_after (records : List Log.Record) (t : Attempt α) :
    (t.after records).expanded = t.expanded.after records := rfl

theorem expanded_located (t : Attempt α) (location : Location) :
    (t.located location).expanded = t.expanded.located location := by
  obtain ⟨log, result⟩ := t
  rcases result with ⟨e | _ | _⟩ | _
  · simp only [located, expanded, mapStop, Except.mapError, Stop.expanded,
      DecodeError.expanded_locatedAt]
  all_goals rfl

theorem expanded_shownAs (room : Nat) (description : Text) (value : Json) (e : DecodeError) :
    (shownAs room description value e).expanded = shownAs room description value e.expanded := by
  rw [shownAs, shownAs]
  cases hshown : unshown? room value with
  | none => rfl
  | some stop => rcases unshown?_eq_some hshown with rfl | ⟨rfl, -⟩ <;> rfl

theorem expanded_framedBy (t : Attempt α) (room : Nat) (spec : Spec) (value : Json) :
    (t.framedBy room spec value).expanded = t.expanded.framedBy room spec value := by
  obtain ⟨log, result⟩ := t
  rcases result with ⟨e | _ | _⟩ | _
  · cases hflaw : spec.flaw? with
    | some flaw =>
        simp only [framedBy, expanded, mapStop, Except.mapError, Stop.expanded, hflaw]
    | none =>
        have hshown := expanded_shownAs room spec.describe value e
        simp only [framedBy, expanded, mapStop, Except.mapError, hflaw, hshown]
        rfl
  all_goals rfl

/-- A frame names the specification by its description. -/
theorem framedBy_expanded (t : Attempt α) (room : Nat) (spec : Spec) (value : Json) :
    t.framedBy room spec.expanded value = t.framedBy room spec value := by
  simp only [framedBy, Spec.flaw?_expanded, Spec.describe_expanded]

end Attempt

/-! ## Decoding -/

namespace Decoder

variable {step : Spec → Json → Attempt Data}

theorem elements_expanded (h : ∀ spec value, (step spec.expanded value).expanded =
      (step spec value).expanded) (element : Spec) (index : Nat) (items : List Json) :
    (elements (step element.expanded) index items).expanded =
      (elements (step element) index items).expanded := by
  induction items generalizing index with
  | nil => rfl
  | cons item rest ih =>
      simp only [elements, expanded_bind, expanded_located, expanded_map, h, ih]

theorem entries_expanded (h : ∀ spec value, (step spec.expanded value).expanded =
      (step spec value).expanded) (content : Spec) (fields : List (Text × Json)) :
    (entries (step content.expanded) fields).expanded =
      (entries (step content) fields).expanded := by
  induction fields with
  | nil => rfl
  | cons field rest ih =>
      simp only [entries, expanded_bind, expanded_located, expanded_map, h, ih]

theorem positions_expanded (h : ∀ spec value, (step spec.expanded value).expanded =
      (step spec value).expanded) (index : Nat) (specs : List Spec) (items : List Json) :
    (positions step index (Spec.expandedAll specs) items).expanded =
      (positions step index specs items).expanded := by
  induction specs generalizing index items with
  | nil => rfl
  | cons spec specs ih =>
      cases items with
      | nil => rfl
      | cons item rest =>
          simp only [Spec.expandedAll, positions, expanded_bind, expanded_located, expanded_map, h,
            ih]

theorem describable_expanded (spec : Spec) (t : Attempt Data) :
    describable spec.expanded t = describable spec t := by
  simp only [describable, Spec.flaw?_expanded]

theorem expanded_describable (spec : Spec) (t : Attempt Data) :
    (describable spec t).expanded = describable spec t.expanded := by
  unfold describable
  split <;> rfl

/-- The record of an alternative names the alternative, the union, and what cannot be resolved. -/
theorem unresolved_expanded (whole alternative : Spec) (e : DecodeError) (t : Attempt Data) :
    unresolved whole.expanded alternative.expanded e.expanded t =
      unresolved whole alternative e t := by
  obtain ⟨cause, frames⟩ := e
  cases cause with
  | unknownSpec spec =>
      simp only [unresolved, DecodeError.expanded, Cause.expanded, DecodeError.reason, Cause.reason,
        describable_expanded, Spec.describe_expanded]
  | _ => rfl

theorem expanded_unresolved (whole alternative : Spec) (e : DecodeError) (t : Attempt Data) :
    (unresolved whole alternative e t).expanded = unresolved whole alternative e t.expanded := by
  cases hcause : e.cause with
  | unknownSpec spec =>
      simp only [unresolved, hcause, expanded_describable, expanded_after]
  | _ => simp only [unresolved, hcause, id]

/-- A union whose first alternative fails goes on with the others. -/
theorem firstOf_of_failed {whole alternative : Spec} {rest : List Spec} {value : Json}
    {e : DecodeError} (h : (step alternative value).result = .error (.failed e)) :
    firstOf step whole value (alternative :: rest) =
      .after (step alternative value).log
        (unresolved whole alternative e (firstOf step whole value rest)) := by
  simp only [firstOf, h]

end Decoder

/-- Attempts that are the same when written out fail together, with errors that are the same when
written out. -/
theorem Attempt.exists_failed_of_expanded_eq {α : Type} {t u : Attempt α}
    (h : t.expanded = u.expanded) {e : DecodeError} (ht : t.result = .error (.failed e)) :
    ∃ other, u.result = .error (.failed other) ∧ e.expanded = other.expanded := by
  have hresult : u.expanded.result = .error (.failed e.expanded) := by
    rw [← h, expanded, result_mapStop, ht]
    rfl
  rw [expanded, result_mapStop] at hresult
  rcases hu : u.result with ⟨other | _ | _⟩ | _ <;>
    simp only [hu, Except.mapError, Stop.expanded, Except.error.injEq, Stop.failed.injEq,
      reduceCtorEq] at hresult
  exact ⟨other, rfl, hresult.symm⟩

namespace Decoder

variable {step : Spec → Json → Attempt Data}

theorem firstOf_expanded (h : ∀ spec value, (step spec.expanded value).expanded =
      (step spec value).expanded) (whole : Spec) (value : Json) (specs : List Spec) :
    (firstOf step whole.expanded value (Spec.expandedAll specs)).expanded =
      (firstOf step whole value specs).expanded := by
  induction specs with
  | nil => simp only [Spec.expandedAll, firstOf, describable_expanded, Spec.describe_expanded]
  | cons alternative rest ih =>
      have halternative := h alternative value
      have hlog := congrArg Attempt.log halternative
      by_cases hfails : ∃ e, (step alternative value).result = .error (.failed e)
      · obtain ⟨e, he⟩ := hfails
        obtain ⟨other, hother, hsame⟩ := exists_failed_of_expanded_eq halternative.symm he
        rw [Spec.expandedAll, firstOf_of_failed hother, firstOf_of_failed he, expanded_after,
          expanded_after, expanded_unresolved, expanded_unresolved, ih, ← unresolved_expanded,
          Spec.expanded_expanded, Spec.expanded_expanded, ← hsame, unresolved_expanded]
        exact congrArg (Attempt.after · _) hlog
      · rw [not_exists] at hfails
        have hothers : ∀ e, (step alternative.expanded value).result ≠ .error (.failed e) := by
          intro e he
          obtain ⟨other, hother, -⟩ := exists_failed_of_expanded_eq halternative he
          exact hfails other hother
        rw [Spec.expandedAll, firstOf_of_not_failed hothers, firstOf_of_not_failed hfails,
          halternative]

/-- What a specification does with a value when it is written out is the same when written out, as
far as this is so of the decodings inside. -/
theorem matching_expanded (h : ∀ spec value, (step spec.expanded value).expanded =
      (step spec value).expanded) {spec : Spec} (hspec : spec.desugar = spec) (value : Json) :
    (matching step spec.expanded value).expanded = (matching step spec value).expanded := by
  cases spec with
  | bareArray | bareObject => cases hspec
  | arrayOf element =>
      cases value with
      | array items => simp only [Spec.expanded, matching, expanded_map, elements_expanded h]
      | _ => rfl
  | objectOf content =>
      cases value with
      | object fields => simp only [Spec.expanded, matching, expanded_map, entries_expanded h]
      | _ => rfl
  | mapOf key content =>
      simp only [Spec.expanded, matching, Spec.isString_expanded]
      split
      · cases value with
        | object fields => simp only [expanded_map, entries_expanded h]
        | _ => rfl
      · -- the one failure that tells the difference: the key at fault is written out
        simp only [refuse, stopped, expanded, mapStop, Except.mapError, Stop.expanded,
          DecodeError.expanded, DecodeError.ofCause, Cause.expanded, Spec.expanded_expanded]
  | setOf element =>
      cases value with
      | array items =>
          have hset : setOf (.setOf element.expanded) (.array items) =
              setOf (.setOf element) (.array items) := by
            funext data
            have hdescribe := (Spec.setOf element).describe_expanded
            have hflaw := (Spec.setOf element).flaw?_expanded
            simp only [Spec.expanded] at hdescribe hflaw
            simp only [setOf, describable, hdescribe, hflaw]
          simp only [Spec.expanded, matching, expanded_bind, elements_expanded h, hset]
      | _ => rfl
  | tupleOf specs =>
      simp only [Spec.expanded, matching, tupleOf, Spec.length_expandedAll]
      cases value with
      | array items =>
          by_cases hlength : items.length = specs.length
          · simp only [if_pos hlength, expanded_map, positions_expanded h]
          · simp only [if_neg hlength]
      | _ => rfl
  | anyOf specs => exact firstOf_expanded h (.anyOf specs) value specs
  | _ => rfl

/-- **Decoding by a specification that is written out** is the same when written out. -/
theorem decode_expanded (registry : Registry) (room : Nat) (spec : Spec) (value : Json) :
    (decode registry room spec.expanded value).expanded =
      (decode registry room spec value).expanded := by
  induction room generalizing spec value with
  | zero => rfl
  | succ room ih =>
      by_cases hplain : spec.desugar = spec
      · by_cases hcustom : spec.IsCustom
        · cases spec with
          | custom => rfl
          | _ => cases hcustom
        · have hexpanded := (not_congr spec.isCustom_expanded).mpr hcustom
          rw [decode_of_not_custom hcustom, decode_of_not_custom hexpanded,
            Spec.desugar_expanded, hplain, framedBy_expanded, expanded_framedBy, expanded_framedBy,
            matching_expanded ih hplain]
      · -- a bare container is written out before anything else is done
        cases spec with
        | bareArray | bareObject => rfl
        | _ => exact (hplain rfl).elim

end Decoder

/-! ## Answers -/

/-- Results that cannot be told apart: the same data, failures of one kind with the same report, the
same path and the same frames, the same fault, or no room left for either. -/
inductive SameAnswer : Except Stop Data → Except Stop Data → Prop where
  | decoded (data : Data) : SameAnswer (.ok data) (.ok data)
  | failed {e other : DecodeError} (hname : other.cause.name = e.cause.name)
      (hmessage : other.message = e.message) (hreport : other.report = e.report)
      (hpath : other.path = e.path) (hframes : other.frames = e.frames) :
      SameAnswer (.error (.failed e)) (.error (.failed other))
  | faulted (fault : Fault) : SameAnswer (.error (.faulted fault)) (.error (.faulted fault))
  | exhausted : SameAnswer (.error .exhausted) (.error .exhausted)

/-- The report of an error is that of the error written out. -/
theorem DecodeError.message_expanded (e : DecodeError) : e.expanded.message = e.message := by
  obtain ⟨cause, frames⟩ := e
  simp only [message, reason, trace, expanded, Cause.reason_expanded, Cause.conclusion_expanded]

theorem DecodeError.report_expanded (e : DecodeError) : e.expanded.report = e.report := by
  rw [report, report, message_expanded]
  simp only [expanded, Cause.flaw?_expanded]

/-- Errors that are the same when written out cannot be told apart. -/
theorem SameAnswer.of_errors {e other : DecodeError} (h : e.expanded = other.expanded) :
    SameAnswer (.error (.failed e)) (.error (.failed other)) := by
  have hframes : other.frames = e.frames := (congrArg DecodeError.frames h).symm
  refine .failed ?_ ?_ ?_ ?_ hframes
  · calc other.cause.name = other.expanded.cause.name := (Cause.name_expanded _).symm
      _ = e.expanded.cause.name := by rw [h]
      _ = e.cause.name := Cause.name_expanded _
  · rw [← DecodeError.message_expanded, ← h, DecodeError.message_expanded]
  · rw [← DecodeError.report_expanded, ← h, DecodeError.report_expanded]
  · simp only [DecodeError.path, hframes]

/-- Nor can attempts that are the same when written out. -/
theorem SameAnswer.of_attempts {t u : Attempt Data} (h : t.expanded = u.expanded) :
    SameAnswer t.result u.result := by
  have hresult := congrArg Attempt.result h
  simp only [Attempt.expanded, result_mapStop] at hresult
  rcases ht : t.result with ⟨e | fault | _⟩ | data
  · obtain ⟨other, hother, hsame⟩ := exists_failed_of_expanded_eq h ht
    rw [hother]
    exact .of_errors hsame
  all_goals
    rw [ht] at hresult
    rcases hu : u.result with ⟨_ | _ | _⟩ | _ <;> rw [hu] at hresult <;> cases hresult
  · exact .faulted _
  · exact .exhausted
  · exact .decoded _

/-- **Bare containers are sugar.** With every bare container written out, at any depth but within
what custom specifications are given, a specification has the same description; and every value
decodes by it as before, whatever is registered: with the same records and the same data, a failure
that reports the same, or the same fault. -/
theorem Decoder.bare_containers_are_sugar (registry : Registry) (room : Nat) (spec : Spec)
    (value : Json) :
    spec.expanded.describe = spec.describe ∧
    (decode registry room spec.expanded value).log = (decode registry room spec value).log ∧
    SameAnswer (decode registry room spec value).result
      (decode registry room spec.expanded value).result := by
  have hsame := decode_expanded registry room spec value
  have hlog := congrArg Attempt.log hsame
  exact ⟨spec.describe_expanded, hlog, .of_attempts hsame.symm⟩

end JsonDecoding
