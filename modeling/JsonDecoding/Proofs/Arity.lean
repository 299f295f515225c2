import Mathlib.Data.List.DropRight
import JsonDecoding.Proofs.Closed
import JsonDecoding.Proofs.History

/-!
# Arity of factories

A registered factory has no more defaults than parameters, on whichever way it was registered
(`Registration.Declares`). So the arguments that it is given and the last of its defaults make up
its parameters, each default at its own place (`Factory.fills_filled`), and its body is asked only
then (`History.factories_receive_declared_arity`).
-/

namespace JsonDecoding

/-! ## What is declared -/

/-- A registration declares what a factory takes: as many parameters as it says, one if it says
nothing, none for a schema; and its defaults, coerced. -/
structure Registration.Declares (registration : Registration) (f : Factory) : Prop where
  parameters : (f.parameters : Int) =
    match registration.registrand with
    | .factory _ => registration.parameters.getD 1
    | _ => 0
  defaults : Spec.coerceAll registration.defaults = .ok f.defaults

/-- **What an accepted registration asks for** is what it declares, with defaults for no more than
its parameters. -/
theorem Registry.declares_of_factoryOf {registration : Registration} {f : Factory}
    (h : factoryOf registration = .ok f) :
    registration.Declares f ∧ f.defaults.length ≤ f.parameters := by
  obtain ⟨defaults, hdefaults, hshape⟩ := factoryOf_ok h
  rcases hshape with ⟨schema, hschema, rfl, rfl⟩ | ⟨build, hbuild, hfew, rfl⟩
  · refine ⟨⟨?_, hdefaults⟩, Nat.le_refl _⟩
    rw [hschema]
    rfl
  · have hcount : ((registration.parameters.getD 1).toNat : Int) = registration.parameters.getD 1 :=
      Int.toNat_of_nonneg (by omega)
    refine ⟨⟨?_, hdefaults⟩, ?_⟩
    · rw [hbuild]
      exact hcount
    · show defaults.length ≤ (registration.parameters.getD 1).toNat
      omega

namespace Factory

variable {f : Factory} {arguments full other : List Spec}

/-! ## Asking the body -/

/-- The factory with another body. -/
def withBody (f : Factory) (build : List Spec → Except Fault Schema) : Factory :=
  ⟨build, f.parameters, f.defaults, f.name⟩

/-- Called with some arguments, a factory does what its body does with `full`, whatever that is. -/
def Hands (f : Factory) (arguments full : List Spec) : Prop :=
  ∀ build, (f.withBody build).call arguments = build full

/-- A factory refuses arguments as a misconfiguration, whatever its body would do with them. -/
def Refuses (f : Factory) (arguments : List Spec) : Prop :=
  ∃ cause, ∀ build, (f.withBody build).call arguments = .error (.misconfiguration cause)

/-- The body is asked about one list of specifications: a body that gives back what it is asked
about can tell two of them apart. -/
theorem Hands.unique (h : f.Hands arguments full) (hother : f.Hands arguments other) :
    other = full := by
  have hsame := (hother fun specs => .ok (.array [] (.tupleOf specs) .ok)).symm.trans
    (h fun specs => .ok (.array [] (.tupleOf specs) .ok))
  simpa using hsame

/-- Arguments on which the body is asked are not refused. -/
theorem Hands.not_refuses (h : f.Hands arguments full) : ¬f.Refuses arguments := by
  rintro ⟨cause, hrefuse⟩
  have hsame := (hrefuse fun _ => .ok (.array [] .any .ok)).symm.trans
    (h fun _ => .ok (.array [] .any .ok))
  cases hsame

theorem hands_filled (hleast : f.least ≤ arguments.length)
    (hmost : arguments.length ≤ f.parameters) : f.Hands arguments (f.filled arguments) := by
  intro build
  exact if_pos ⟨hleast, hmost⟩

/-- **Arguments are refused** when they are too few or too many, and only then. -/
theorem refuses_iff : f.Refuses arguments ↔
    arguments.length < f.least ∨ f.parameters < arguments.length := by
  constructor
  · intro hrefuse
    by_contra hfits
    have hhands : f.Hands arguments (f.filled arguments) := hands_filled (by omega) (by omega)
    exact hhands.not_refuses hrefuse
  · intro hcount
    refine ⟨.argumentCount f.name f.least f.parameters arguments.length, fun build => ?_⟩
    apply if_neg
    show ¬(f.least ≤ arguments.length ∧ arguments.length ≤ f.parameters)
    omega

/-! ## Filling in defaults -/

/-- Arguments are filled up to the parameters of a factory: the arguments come first, as they are,
then the last of the defaults, each at the parameter that it is meant for. -/
structure Fills (f : Factory) (arguments full : List Spec) : Prop where
  eq_append : full = arguments ++ f.defaults.rtake (f.parameters - arguments.length)
  length_eq : full.length = f.parameters
  explicit : ∀ i < arguments.length, full[i]? = arguments[i]?
  default : ∀ j < f.defaults.length, arguments.length ≤ f.least + j →
    full[f.least + j]? = f.defaults[j]?

/-- **Filled arguments** are the parameters. -/
theorem fills_filled (hdefaults : f.defaults.length ≤ f.parameters)
    (hleast : f.least ≤ arguments.length) (hmost : arguments.length ≤ f.parameters) :
    f.Fills arguments (f.filled arguments) where
  eq_append := rfl
  length_eq := length_filled hleast hmost
  explicit i hi := List.getElem?_append_left hi
  default j hj hplace := by
    -- as many defaults are dropped as there are arguments for parameters that have one
    have hindex : f.defaults.length - (f.parameters - arguments.length) +
        (f.least + j - arguments.length) = j := by
      simp only [least] at hleast hplace ⊢
      omega
    rw [filled, List.getElem?_append_right hplace, List.getElem?_drop, hindex]

end Factory

namespace History

/-- **Factories receive what they declare.** Whatever has been registered in whatever order, every
factory in a registry comes from a registration that declares it, and has no more defaults than
parameters. It refuses arguments without asking its body exactly when they are too few or too many;
of any others its body is asked about one list of specifications, which are as many as its
parameters: the arguments, and then the last of its defaults, each at its own place. -/
theorem factories_receive_declared_arity {calls : List Call} {r : Registry}
    (hr : r ∈ (run calls).registries) {identity : Spec} {f : Factory}
    (hf : (identity, f) ∈ r.entries) :
    (∃ call ∈ calls, call.registration.Declares f) ∧
    f.defaults.length ≤ f.parameters ∧
    ∀ arguments : List Spec,
      (f.Refuses arguments ↔ arguments.length < f.parameters - f.defaults.length ∨
        f.parameters < arguments.length) ∧
      (f.parameters - f.defaults.length ≤ arguments.length → arguments.length ≤ f.parameters →
        ∃ full, f.Hands arguments full ∧ (∀ other, f.Hands arguments other → other = full) ∧
          f.Fills arguments full) := by
  obtain ⟨call, hcall, hfactory⟩ := exists_call_of_entry hr hf
  obtain ⟨hdeclares, hdefaults⟩ := Registry.declares_of_factoryOf hfactory
  refine ⟨⟨call, hcall, hdeclares⟩, hdefaults, fun arguments => ⟨Factory.refuses_iff, ?_⟩⟩
  intro hleast hmost
  have hhands : f.Hands arguments (f.filled arguments) := Factory.hands_filled hleast hmost
  exact ⟨_, hhands, fun other => hhands.unique, Factory.fills_filled hdefaults hleast hmost⟩

/-- A factory of two parameters, the second of which has a default. -/
theorem factories_receive_declared_arity_for_pairs :
    let pair : Spec := .symbol (Text.lit "Pair") []
    let number : Spec := .primitive .number
    let build : List Spec → Except Fault Schema := fun specs =>
      .ok (.array (Text.lit "Pair") (.tupleOf specs) .ok)
    let f : Factory := ⟨build, 2, [.any], Text.lit "Pair"⟩
    let calls : List Call := [⟨0, pair, .factory build, some 2, [.any]⟩]
    ⟨[(pair, f)]⟩ ∈ (run calls).registries ∧ f.Refuses [] ∧ f.Hands [number] [number, .any] ∧
      ¬f.Refuses [number, number] := by
  intro pair number build f calls
  have hr : ⟨[(pair, f)]⟩ ∈ (run calls).registries := List.mem_cons_of_mem _ (by exact .head _)
  obtain ⟨-, -, harity⟩ := factories_receive_declared_arity hr (.head _)
  obtain ⟨hrefuses, -⟩ := harity []
  obtain ⟨-, hfilled⟩ := harity [number]
  obtain ⟨hboth, -⟩ := harity [number, number]
  obtain ⟨full, hhands, -, hfills⟩ := hfilled (by decide) (by decide)
  refine ⟨hr, hrefuses.mpr (.inl (by decide)), ?_, ?_⟩
  · obtain rfl := hfills.eq_append
    exact hhands
  · rw [hboth]
    decide

end History

end JsonDecoding
