import JsonDecoding.Decoder
import JsonDecoding.Proofs.Closed
import JsonDecoding.Proofs.Recipe

/-!
# Procedures

Where the procedure of a handler leads to, by what it is told about values and the registry
(`Procedure.Leads`): a procedure comes to the same result as every one that it leads to. So it fails
with an error only where it answers that error (`run_failed`), and ends in a fault only where it
complains, asks for something impossible, or has something decoded that ends in this fault
(`run_faulted`).
-/

namespace JsonDecoding

open Attempt Decoder

/-- An unknown specification that is to blame has a property. -/
def Cause.Within (p : Spec → Prop) : Cause → Prop
  | .unknownSpec spec => p spec
  | _ => True

namespace Procedure

/-! ## Where a procedure leads to -/

/-- A procedure leads to another by what it is told on the way. -/
inductive Leads (registry : Registry) (step : Spec → Json → Attempt Data) (room : Nat) :
    Procedure → Procedure → Prop where
  | refl (procedure : Procedure) : Leads registry step room procedure procedure
  | render {value : Json} {next : Text → Procedure} {last : Procedure}
      (hshown : unshown? room value = none) (h : Leads registry step room (next value.render) last) :
      Leads registry step room (.render value next) last
  | decoded {value : Json} {hint spec : Spec} {next : Except DecodeError Data → Procedure}
      {data : Data} {last : Procedure} (hhint : Schema.specOf hint = .ok spec)
      (hresult : (step spec value).result = .ok data)
      (h : Leads registry step room (next (.ok data)) last) :
      Leads registry step room (.load value hint next) last
  | failed {value : Json} {hint spec : Spec} {next : Except DecodeError Data → Procedure}
      {e : DecodeError} {last : Procedure} (hhint : Schema.specOf hint = .ok spec)
      (hresult : (step spec value).result = .error (.failed e))
      (h : Leads registry step room (next (.error e)) last) :
      Leads registry step room (.load value hint next) last
  | consult {identity : Spec} {next : Bool → Procedure} {last : Procedure}
      (h : Leads registry step room (next (registry.resolve identity).isSome) last) :
      Leads registry step room (.consult identity next) last
  | survey {next : List Spec → Procedure} {last : Procedure}
      (h : Leads registry step room (next registry.identities) last) :
      Leads registry step room (.survey next) last

/-- A procedure ends in a fault at once: it complains, has a value rendered that cannot be shown, or
has one decoded by what is no specification. -/
inductive Breaks (room : Nat) : Procedure → Fault → Prop where
  | complain {complaint : Complaint} : Breaks room (.complain complaint) (.complaint complaint)
  | render {value : Json} {next : Text → Procedure} {fault : Fault}
      (hshown : unshown? room value = some (.faulted fault)) :
      Breaks room (.render value next) fault
  | hint {value : Json} {hint : Spec} {next : Except DecodeError Data → Procedure} {fault : Fault}
      (hhint : Schema.specOf hint = .error fault) : Breaks room (.load value hint next) fault

variable {registry : Registry} {step : Spec → Json → Attempt Data} {room : Nat}
  {procedure last : Procedure}

/-- What is loaded decides how a procedure goes on. -/
theorem run_load {value : Json} {hint spec : Spec} {next : Except DecodeError Data → Procedure}
    (hhint : Schema.specOf hint = .ok spec) :
    run registry step room (.load value hint next) =
      (step spec value).resume fun result => run registry step room (next result) := by
  rw [run, hhint, bind_of_ok rfl]
  rfl

/-- **A procedure comes to what those come to that it leads to**, apart from the records. -/
theorem Leads.result_run (h : Leads registry step room procedure last) :
    (run registry step room procedure).result = (run registry step room last).result := by
  induction h with
  | refl => rfl
  | render hshown _ ih => simpa only [run, hshown] using ih
  | decoded hhint hresult _ ih =>
      rw [run_load hhint, resume, hresult]
      exact ih
  | failed hhint hresult _ ih =>
      rw [run_load hhint, resume, hresult]
      exact ih
  | consult _ ih => exact ih
  | survey _ ih => exact ih

/-- How a procedure ends: it leads to an answer, to a fault of its own, to a value that cannot be
rendered, or to a decoding that ends neither in data nor in a failure. -/
theorem exists_leads (registry : Registry) (step : Spec → Json → Attempt Data) (room : Nat)
    (procedure : Procedure) :
    ∃ last, Leads registry step room procedure last ∧
      ((∃ result, last = .answer result) ∨ (∃ fault, last.Breaks room fault) ∨
        (∃ value next, last = .render value next ∧ unshown? room value = some .exhausted) ∨
        ∃ value hint next spec stop, last = .load value hint next ∧ Schema.specOf hint = .ok spec ∧
          (step spec value).result = .error stop ∧ ∀ e, stop ≠ .failed e) := by
  induction procedure with
  | answer result => exact ⟨_, .refl _, .inl ⟨result, rfl⟩⟩
  | complain complaint => exact ⟨_, .refl _, .inr (.inl ⟨_, .complain⟩)⟩
  | render value next ih =>
      cases hshown : unshown? room value with
      | none =>
          obtain ⟨last, hleads, hlast⟩ := ih value.render
          exact ⟨last, .render hshown hleads, hlast⟩
      | some stop =>
          rcases unshown?_eq_some hshown with rfl | ⟨rfl, -⟩
          · exact ⟨_, .refl _, .inr (.inr (.inl ⟨value, next, rfl, hshown⟩))⟩
          · exact ⟨_, .refl _, .inr (.inl ⟨_, .render hshown⟩)⟩
  | load value hint next ih =>
      cases hhint : Schema.specOf hint with
      | error fault => exact ⟨_, .refl _, .inr (.inl ⟨fault, .hint hhint⟩)⟩
      | ok spec =>
          cases hresult : (step spec value).result with
          | ok data =>
              obtain ⟨last, hleads, hlast⟩ := ih (.ok data)
              exact ⟨last, .decoded hhint hresult hleads, hlast⟩
          | error stop =>
              by_cases hfailed : ∃ e, stop = .failed e
              · obtain ⟨e, rfl⟩ := hfailed
                obtain ⟨last, hleads, hlast⟩ := ih (.error e)
                exact ⟨last, .failed hhint hresult hleads, hlast⟩
              · refine ⟨_, .refl _, .inr (.inr (.inr ?_))⟩
                exact ⟨value, hint, next, spec, stop, rfl, hhint, hresult, not_exists.mp hfailed⟩
  | consult identity next ih =>
      obtain ⟨last, hleads, hlast⟩ := ih (registry.resolve identity).isSome
      exact ⟨last, .consult hleads, hlast⟩
  | survey next ih =>
      obtain ⟨last, hleads, hlast⟩ := ih registry.identities
      exact ⟨last, .survey hleads, hlast⟩

theorem Breaks.result_run {fault : Fault} (h : procedure.Breaks room fault) :
    (run registry step room procedure).result = .error (.faulted fault) := by
  cases h with
  | complain => rfl
  | render hshown => simp only [run, hshown, stopped]
  | hint hhint => rw [run, hhint, result_bind]; rfl

/-- What a procedure comes to by a decoding that ends neither in data nor in a failure. -/
theorem result_run_of_stopped {value : Json} {hint spec : Spec}
    {next : Except DecodeError Data → Procedure} {stop : Stop}
    (hhint : Schema.specOf hint = .ok spec) (hresult : (step spec value).result = .error stop)
    (hstop : ∀ e, stop ≠ .failed e) :
    (run registry step room (.load value hint next)).result = .error stop := by
  rw [run_load hhint, resume, hresult]
  cases stop with
  | failed e => exact (hstop e rfl).elim
  | _ => rfl

/-- **A procedure fails** only with an error that it answers. -/
theorem run_failed {e : DecodeError}
    (h : (run registry step room procedure).result = .error (.failed e)) :
    Leads registry step room procedure (.answer (.error e)) := by
  obtain ⟨last, hleads, hlast⟩ := exists_leads registry step room procedure
  rw [hleads.result_run] at h
  rcases hlast with ⟨result, rfl⟩ | ⟨fault, hbreaks⟩ | ⟨value, next, rfl, hshown⟩ |
    ⟨value, hint, next, spec, stop, rfl, hhint, hresult, hstop⟩
  · cases result <;> cases h
    exact hleads
  · rw [hbreaks.result_run] at h
    cases h
  · simp only [run, hshown, stopped] at h
    cases h
  · rw [result_run_of_stopped hhint hresult hstop] at h
    cases h
    exact (hstop e rfl).elim

/-- **A procedure ends in a fault** only where it leads to one: its own, or that of a decoding. -/
theorem run_faulted {fault : Fault}
    (h : (run registry step room procedure).result = .error (.faulted fault)) :
    ∃ last, Leads registry step room procedure last ∧
      (last.Breaks room fault ∨
        ∃ value hint next spec, last = .load value hint next ∧ Schema.specOf hint = .ok spec ∧
          (step spec value).result = .error (.faulted fault)) := by
  obtain ⟨last, hleads, hlast⟩ := exists_leads registry step room procedure
  rw [hleads.result_run] at h
  refine ⟨last, hleads, ?_⟩
  rcases hlast with ⟨result, rfl⟩ | ⟨other, hbreaks⟩ | ⟨value, next, rfl, hshown⟩ |
    ⟨value, hint, next, spec, stop, rfl, hhint, hresult, hstop⟩
  · cases result <;> cases h
  · rw [hbreaks.result_run] at h
    cases h
    exact .inl hbreaks
  · simp only [run, hshown, stopped] at h
    cases h
  · rw [result_run_of_stopped hhint hresult hstop] at h
    cases h
    exact .inr ⟨value, hint, next, spec, rfl, hhint, hresult⟩

/-! ## What a procedure has decoded -/

/-- All that a procedure has decoded, it has decoded by specifications with a property, and the values
have a property too; the errors that it answers blame no specification without a third one, as long
as those of the decodings do not. -/
def Within (p : Spec → Prop) (q : Json → Prop) (blamed : Spec → Prop) : Procedure → Prop
  | .answer (.ok _) => True
  | .answer (.error e) => e.cause.Within blamed
  | .complain _ => True
  | .render _ next => ∀ text, (next text).Within p q blamed
  | .load value hint next =>
      q value ∧ (∀ spec, Schema.specOf hint = .ok spec → p spec) ∧
        ∀ result, (∀ e, result = .error e → e.cause.Within blamed) →
          (next result).Within p q blamed
  | .consult _ next => ∀ found, (next found).Within p q blamed
  | .survey next => ∀ identities, (next identities).Within p q blamed

/-- Where the failures of decodings blame no specification without the property, a procedure leads to
such ones only. -/
theorem Leads.within {p blamed : Spec → Prop} {q : Json → Prop}
    (h : Leads registry step room procedure last)
    (hstep : ∀ spec value e, p spec → q value → (step spec value).result = .error (.failed e) →
      e.cause.Within blamed) (hprocedure : procedure.Within p q blamed) :
    last.Within p q blamed := by
  induction h with
  | refl => exact hprocedure
  | render _ _ ih => exact ih (hprocedure _)
  | decoded _ _ _ ih => exact ih (hprocedure.2.2 _ (by simp))
  | failed hhint hresult _ ih =>
      refine ih (hprocedure.2.2 _ fun e he => ?_)
      cases he
      exact hstep _ _ _ (hprocedure.2.1 _ hhint) hprocedure.1 hresult
  | consult _ ih => exact ih (hprocedure _)
  | survey _ ih => exact ih (hprocedure _)

end Procedure

/-! ## What is registered -/

variable {p : Spec → Prop} {q : Json → Prop}

/-- A handler has values with a property decoded by specifications with a property only, and blames no
others, as long as it is given such a value. -/
def Handler.Within (p : Spec → Prop) (q : Json → Prop) : Handler → Prop
  | .delegate hint _ => ∀ spec, Schema.specOf hint = .ok spec → p spec
  | .script act => ∀ value, q value → (act value).Within p q p

/-- A schema decodes by specifications with a property only. -/
def Schema.Within (p : Spec → Prop) (q : Json → Prop) : Schema → Prop
  | .raw _ _ handler => handler.Within p q
  | schema => ∀ spec ∈ schema.specs, p spec

/-- The defaults of a factory have the property, and so has what it builds of such arguments. -/
structure Factory.Within (p : Spec → Prop) (q : Json → Prop) (f : Factory) : Prop where
  defaults : ∀ spec ∈ f.defaults, p spec
  body : ∀ arguments schema, (∀ argument ∈ arguments, p argument) →
    f.build arguments = .ok schema → schema.Within p q

/-- All that is registered decodes by specifications with a property only. -/
def Registry.Within (p : Spec → Prop) (q : Json → Prop) (r : Registry) : Prop :=
  ∀ entry ∈ r.entries, entry.2.Within p q

/-- A schema decodes by well-formed specifications only. -/
abbrev Schema.WellFormed (schema : Schema) : Prop := schema.Within Spec.WellFormed fun _ => True

/-- A factory over well-formed specifications. -/
abbrev Factory.WellFormed (f : Factory) : Prop := f.Within Spec.WellFormed fun _ => True

/-- All that is registered decodes by well-formed specifications only. -/
abbrev Registry.WellFormed (r : Registry) : Prop := r.Within Spec.WellFormed fun _ => True

theorem Factory.Within.call {f : Factory} (h : f.Within p q) {arguments : List Spec}
    (harguments : ∀ argument ∈ arguments, p argument) {schema : Schema}
    (hcall : f.call arguments = .ok schema) : schema.Within p q := by
  refine h.body _ _ (fun argument hmem => ?_) (call_ok hcall)
  exact (mem_filled hmem).elim (harguments argument) (h.defaults argument)

end JsonDecoding
