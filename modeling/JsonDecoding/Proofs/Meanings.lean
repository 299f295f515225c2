import JsonDecoding.Proofs.Coercions
import JsonDecoding.Schema.Record

/-!
# Meanings of annotations in writing

Reading the texts in an annotation brings in no ill-formed specification: unions keep what they join
(`proper_bracketed`, `proper_barred`), operations make data (`proper_operated`), and so what an
expression means is proper where names are (`proper_meaning`). Record classes read their annotations
with such names (`RecordClass.admissible_resolvedFields`).
-/

namespace JsonDecoding

namespace Spec

variable {deep : Bool} {hint left right result : Spec} {hints : List Spec}

/-! ## Unions -/

theorem Proper.members (h : hint.Proper deep) : ∀ member ∈ hint.members, member.Proper deep := by
  unfold Spec.members
  split
  · cases h with
    | specification h => cases h
    | union h => exact h
  · exact List.forall_mem_singleton.mpr .builtin
  · exact List.forall_mem_singleton.mpr h

theorem proper_ofMembers (form : UnionForm) (h : ∀ hint ∈ hints, hint.Proper deep) :
    (ofMembers form hints).Proper deep := by
  unfold ofMembers
  split
  · exact h _ (List.mem_singleton_self _)
  · exact .union h

/-- Nothing is added when equal annotations are dropped. -/
theorem distinct_subset : distinct hints ⊆ hints := by
  have hfold (hints kept : List Spec) : hints.foldl (fun kept hint =>
      if kept.any (fun k => hint == k) then kept else kept ++ [hint]) kept ⊆ kept ++ hints := by
    induction hints generalizing kept with
    | nil => simp
    | cons hint rest ih =>
        rw [List.foldl_cons]
        refine List.Subset.trans (ih _) ?_
        split <;> simp
  exact hfold hints []

theorem subset_of_distinct? (h : distinct? hints = .ok kept) : kept ⊆ hints := by
  have hfold (hints before : List Spec) {kept : List Spec}
      (h : hints.foldlM (fun kept hint => (kept.anyM fun k => hint.equals k).map fun known =>
        if known then kept else kept ++ [hint]) before = .ok kept) : kept ⊆ before ++ hints := by
    induction hints generalizing before with
    | nil =>
        cases h
        simp
    | cons hint rest ih =>
        rw [List.foldlM_cons] at h
        obtain ⟨next, hnext, hrest⟩ := Outcomes.bind_ok.mp h
        obtain ⟨known, -, rfl⟩ := Outcomes.map_ok.mp hnext
        refine List.Subset.trans (ih _ hrest) ?_
        split <;> simp
  exact hfold hints [] h

theorem proper_ofText {text : Text} (h : ofText text = .ok result) : result.Proper deep := by
  obtain ⟨expression, -, rfl⟩ := Outcomes.map_ok.mp h
  exact .written

theorem Proper.asType (h : hint.Proper deep) {place : TypePlace}
    (hresult : hint.asType place = .ok result) : result.Proper deep := by
  unfold Spec.asType at hresult
  split at hresult
  · cases hresult
    exact .builtin
  · exact proper_ofText hresult
  · cases hresult
  · cases hresult
  · cases hresult
    exact h

/-- **A union in brackets** keeps what it joins. -/
theorem proper_bracketed {place : TypePlace} (h : ∀ hint ∈ hints, hint.Proper deep)
    (hresult : bracketed place hints = .ok result) : result.Proper deep := by
  unfold bracketed at hresult
  split at hresult
  · cases hresult
  · obtain ⟨types, htypes, hjoined⟩ := Outcomes.bind_ok.mp hresult
    dsimp only at hjoined
    split at hjoined
    · cases hjoined
    · cases hjoined
      refine proper_ofMembers _ fun member hmember => ?_
      obtain ⟨type, htype, hmem⟩ := List.mem_flatMap.mp (distinct_subset hmember)
      obtain ⟨hint, hhint, has⟩ := Outcomes.exists_of_mem_mapM htypes htype
      exact ((h hint hhint).asType has).members member hmem

/-- **A bar** keeps what it joins. -/
theorem proper_either (hleft : left.Proper deep) (hright : right.Proper deep)
    (hresult : left.either right = .ok result) : result.Proper deep := by
  unfold either at hresult
  split at hresult
  · exact proper_bracketed (by simp [hleft, hright]) hresult
  · split at hresult
    · obtain ⟨kept, hkept, rfl⟩ := Outcomes.map_ok.mp hresult
      refine proper_ofMembers _ fun member hmember => ?_
      rcases List.mem_append.mp (subset_of_distinct? hkept hmember) with hmem | hmem
      · exact hleft.members member hmem
      · exact hright.members member hmem
    · split at hresult
      · next joined hjoined =>
          cases hresult
          unfold joinedTokens? at hjoined
          split at hjoined
          · obtain ⟨value, -, rfl⟩ := Option.map_eq_some_iff.mp hjoined
            exact .token
          · cases hjoined
      · cases hresult

theorem proper_barred (h : ∀ hint ∈ hints, hint.Proper deep) (hresult : barred hints = .ok result) :
    result.Proper deep := by
  cases hints with
  | nil => cases hresult
  | cons first rest =>
      simp only [List.mem_cons, forall_eq_or_imp] at h
      replace hresult : rest.foldlM either first = .ok result := hresult
      induction rest generalizing first with
      | nil =>
          cases hresult
          exact h.1
      | cons next rest ih =>
          rw [List.foldlM_cons] at hresult
          obtain ⟨joined, hjoined, hrest⟩ := Outcomes.bind_ok.mp hresult
          simp only [List.mem_cons, forall_eq_or_imp] at h
          exact ih joined ⟨proper_either h.1 h.2.1 hjoined, h.2.2⟩ hrest

/-! ## Operations -/

theorem proper_signed {operator : SignOperator} (hresult : hint.signed operator = .ok result) :
    result.Proper deep := by
  unfold signed at hresult
  split at hresult <;> cases hresult <;> exact .token

/-- **An operator** makes data, or joins annotations. -/
theorem proper_operated {operator : Operator} (hleft : left.Proper deep)
    (hright : right.Proper deep) (hresult : left.operated operator right = .ok result) :
    result.Proper deep := by
  unfold operated at hresult
  split at hresult
  · exact proper_either hleft hright hresult
  · split at hresult
    · cases hresult
      exact .token
    · cases hresult

theorem proper_called (hresult : hint.called hints = .ok result) : result.Proper deep := by
  unfold called at hresult
  dsimp only at hresult
  split at hresult
  · next called hcalled =>
      cases hresult
      split at hcalled
      · obtain ⟨type, -, rfl⟩ := Option.map_eq_some_iff.mp hcalled
        exact .builtin
      · obtain ⟨value, -, rfl⟩ := Option.map_eq_some_iff.mp hcalled
        exact .token
      · cases hcalled
  · cases hresult

end Spec

/-! ## Expressions -/

/-- All names of a scope stand for annotations that are proper deep down. -/
def Scope.Proper (scope : Scope) : Prop :=
  ∀ name hint, scope.find? name = some hint → hint.Proper true

namespace Expression

open Spec

variable {scope : Scope} {hint result : Spec} {hints : List Spec}

theorem proper_sequenceOf (form : SequenceForm) (h : ∀ hint ∈ hints, hint.Proper true) :
    (sequenceOf form hints).Proper true := by
  unfold sequenceOf
  split
  · exact .token
  · exact .token
  · exact .several fun _ => h

/-- The parameters that brackets hold are proper, those of a tuple one by one. -/
theorem proper_parameters (h : hint.Proper true) :
    ∀ parameter ∈ parameters hint, parameter.Proper true := by
  unfold parameters
  split
  · cases h with
    | specification h => cases h
    | several h => exact h rfl
  · exact List.forall_mem_map.mpr fun _ _ => .token
  · exact List.forall_mem_singleton.mpr h

theorem proper_apply (h : ∀ parameter ∈ hints, parameter.Proper true)
    (hresult : apply hint hints = .ok result) : result.Proper true := by
  unfold apply at hresult
  split at hresult
  · cases hresult
  · cases hresult
  · split at hresult
    · cases hresult
      exact .generic fun _ => h
    · cases hresult
  all_goals cases hresult

theorem proper_named {name : Text} (hscope : scope.Proper)
    (hresult : named scope name = .ok result) : result.Proper true := by
  unfold named at hresult
  split at hresult
  · next hint hfound =>
      cases hresult
      exact hscope name _ hfound
  · cases hresult

mutual

/-- **An expression means a proper annotation**, where its names do. -/
theorem proper_meaning (hscope : scope.Proper) : ∀ {expression : Expression} {hint : Spec},
    expression.meaning scope = .ok hint → hint.Proper true
  | .name _, _, h => proper_named hscope h
  | .truth _, _, h | .nothing, _, h | .whole _, _, h | .fraction _, _, h | .quoted _, _, h => by
      cases h
      exact .token
  | .ellipsis, _, h => by
      cases h
      exact .builtin
  | .sequence form _, _, h => by
      obtain ⟨items, hitems, rfl⟩ := Outcomes.map_ok.mp h
      exact proper_sequenceOf form (proper_meanings hscope hitems)
  | .applied _ _, _, h => by
      -- the head drops out: `apply` takes a type for a head and keeps the parameters only
      obtain ⟨head, -, happlied⟩ := Outcomes.bind_ok.mp h
      obtain ⟨inner, hinner, hresult⟩ := Outcomes.bind_ok.mp happlied
      exact proper_apply (proper_parameters (proper_meaning hscope hinner)) hresult
  | .called _ _, _, h => by
      obtain ⟨head, -, hcalled⟩ := Outcomes.bind_ok.mp h
      obtain ⟨arguments, -, hresult⟩ := Outcomes.bind_ok.mp hcalled
      exact proper_called hresult
  | .attribute _ _, _, h => by
      obtain ⟨owner, -, hmissing⟩ := Outcomes.bind_ok.mp h
      cases hmissing
  | .signed _ _, _, h => by
      obtain ⟨operand, -, hresult⟩ := Outcomes.bind_ok.mp h
      exact proper_signed hresult
  | .operated _ _ _, _, h => by
      obtain ⟨left, hleft, hoperated⟩ := Outcomes.bind_ok.mp h
      obtain ⟨right, hright, hresult⟩ := Outcomes.bind_ok.mp hoperated
      exact proper_operated (proper_meaning hscope hleft) (proper_meaning hscope hright) hresult
  | .compared _ _ _, _, h => by
      obtain ⟨left, -, hcompared⟩ := Outcomes.bind_ok.mp h
      obtain ⟨right, -, hresult⟩ := Outcomes.bind_ok.mp hcompared
      obtain ⟨holds, -, rfl⟩ := Outcomes.map_ok.mp hresult
      exact .token
  | .not _, _, h => by
      obtain ⟨operand, -, rfl⟩ := Outcomes.map_ok.mp h
      exact .token
  -- a connective gives one of its operands, not a truth value
  | .and _ _, _, h => by
      obtain ⟨left, hleft, hresult⟩ := Outcomes.bind_ok.mp h
      split at hresult
      · exact proper_meaning hscope hresult
      · cases hresult
        exact proper_meaning hscope hleft
  | .or _ _, _, h => by
      obtain ⟨left, hleft, hresult⟩ := Outcomes.bind_ok.mp h
      split at hresult
      · cases hresult
        exact proper_meaning hscope hleft
      · exact proper_meaning hscope hresult
  | .choice _ _ _, _, h => by
      obtain ⟨condition, -, hresult⟩ := Outcomes.bind_ok.mp h
      split at hresult <;> exact proper_meaning hscope hresult

theorem proper_meanings (hscope : scope.Proper) :
    ∀ {expressions : List Expression} {hints : List Spec},
      meanings scope expressions = .ok hints → ∀ hint ∈ hints, hint.Proper true
  | [], _, h => by
      cases h
      simp
  | _ :: _, _, h => by
      obtain ⟨first, hfirst, hrest⟩ := Outcomes.bind_ok.mp h
      obtain ⟨others, hothers, rfl⟩ := Outcomes.map_ok.mp hrest
      exact List.forall_mem_cons.mpr ⟨proper_meaning hscope hfirst, proper_meanings hscope hothers⟩

end

end Expression

/-! ## Readings -/

namespace Spec

variable {deep : Bool} {reader : Text → Except Misuse Spec}

mutual

/-- Replacing texts by proper annotations leaves an annotation proper. -/
theorem proper_reading (hreader : ∀ text hint, reader text = .ok hint → hint.Proper deep) :
    ∀ {hint result : Spec}, hint.Proper deep → reading reader hint = .ok result →
      result.Proper deep
  | .token value, result, h, hresult => by
      cases value with
      | str text => exact hreader text result hresult
      | _ =>
          cases hresult
          exact h
  | .written text, result, _, hresult => hreader text result hresult
  | .generic head parameters, _, h, hresult => by
      obtain ⟨-, -, hparameters⟩ := Outcomes.bind_ok.mp hresult
      obtain ⟨others, hothers, rfl⟩ := Outcomes.map_ok.mp hparameters
      cases h with
      | specification h => cases h
      | generic h => exact .generic fun hhead => proper_readingEach hreader (h hhead) hothers
  | .union form members, _, h, hresult => by
      cases h with
      | specification h => cases h
      | union h =>
          cases form with
          | brackets =>
              obtain ⟨others, hothers, hjoined⟩ := Outcomes.bind_ok.mp hresult
              exact proper_bracketed (proper_readingEach hreader h hothers) hjoined
          | bars =>
              obtain ⟨others, hothers, hjoined⟩ := Outcomes.bind_ok.mp hresult
              exact proper_barred (proper_readingEach hreader h hothers) hjoined
  | .builtin _, _, h, hresult | .named .., _, h, hresult | .symbol .., _, h, hresult
  | .several .., _, h, hresult | .primitive _, _, h, hresult | .bareArray, _, h, hresult
  | .bareObject, _, h, hresult | .arrayOf _, _, h, hresult | .objectOf _, _, h, hresult
  | .mapOf .., _, h, hresult | .setOf _, _, h, hresult | .tupleOf _, _, h, hresult
  | .anyOf _, _, h, hresult | .custom .., _, h, hresult => by
      cases hresult
      exact h

theorem proper_readingEach (hreader : ∀ text hint, reader text = .ok hint → hint.Proper deep) :
    ∀ {hints results : List Spec}, (∀ hint ∈ hints, hint.Proper deep) →
      readingEach reader hints = .ok results → ∀ result ∈ results, result.Proper deep
  | [], _, _, hresults => by
      cases hresults
      simp
  | _ :: _, _, h, hresults => by
      obtain ⟨first, hfirst, hrest⟩ := Outcomes.bind_ok.mp hresults
      obtain ⟨others, hothers, rfl⟩ := Outcomes.map_ok.mp hrest
      rw [List.forall_mem_cons] at h ⊢
      exact ⟨proper_reading hreader h.1 hfirst, proper_readingEach hreader h.2 hothers⟩

end

variable {scope : Scope}

/-- **A text is read as a proper annotation**, however many texts stand inside one another. -/
theorem proper_read (hscope : scope.Proper) {levels : Nat} {outer : List Text} {text : Text}
    {hint : Spec} (h : read scope levels outer text = .ok hint) : hint.Proper true := by
  -- on the levels left, each of which may replace texts in what the one above it means
  induction levels generalizing outer text hint with
  | zero =>
      cases h
      exact .written
  | succ levels ih =>
      obtain ⟨expression, -, hread⟩ := Outcomes.bind_ok.mp h
      split at hread
      · cases hread
        exact .written
      · obtain ⟨type, htype, hreading⟩ := Outcomes.bind_ok.mp hread
        obtain ⟨meant, hmeant, has⟩ := Outcomes.bind_ok.mp htype
        have hproper := (Expression.proper_meaning hscope hmeant).asType has
        exact proper_reading (fun text hint => ih) hproper hreading

theorem Admissible.resolved (hscope : scope.Proper) {hint result : Spec} (h : hint.Admissible)
    (hresult : hint.resolved scope = .ok result) : result.Admissible :=
  proper_reading (fun _ _ hread => (proper_read hscope hread).admissible) h hresult

end Spec

/-! ## Classes -/

theorem Scope.proper_ofTypes (entries : List (Text × Builtin)) : (ofTypes entries).Proper := by
  intro name hint h
  obtain ⟨type, -, rfl⟩ := Option.map_eq_some_iff.mp h
  exact .builtin

theorem Scope.proper_ofData (entries : List (Text × Data)) : (ofData entries).Proper := by
  intro name hint h
  obtain ⟨value, -, rfl⟩ := Option.map_eq_some_iff.mp h
  exact .token

theorem Scope.Proper.before {first second : Scope} (hfirst : first.Proper)
    (hsecond : second.Proper) : (first.before second).Proper := by
  intro name hint h
  rcases Option.or_eq_some_iff.mp h with h | ⟨-, h⟩
  · exact hfirst name hint h
  · exact hsecond name hint h

namespace RecordClass

variable {c : RecordClass}

/-- The names that a record class knows stand for types and data. -/
theorem proper_scope (c : RecordClass) : c.scope.Proper :=
  (Scope.proper_ofTypes _).before ((Scope.proper_ofData _).before (Scope.proper_ofTypes _))

/-- **A record class reads admissible annotations** of its initial fields as admissible ones. -/
theorem admissible_resolvedFields
    (h : ∀ field ∈ c.fields, field.isInitial = true → field.hint.Admissible)
    {fields : List RecordField} (hfields : c.resolvedFields = .ok fields) :
    ∀ field ∈ fields, field.isInitial = true → field.hint.Admissible := by
  intro field hmem hinitial
  obtain ⟨declared, hdeclared, hresolved⟩ := Outcomes.exists_of_mem_mapM hfields hmem
  obtain ⟨hint, hhint, rfl⟩ := Outcomes.map_ok.mp hresolved
  exact .resolved c.proper_scope (h declared hdeclared hinitial) (Outcomes.mapError_ok.mp hhint)

end RecordClass

end JsonDecoding
