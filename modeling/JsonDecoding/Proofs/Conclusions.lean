import JsonDecoding.Proofs.Containment

/-!
# Conclusions about unknown specifications

A failure for an unknown specification comes from exactly one of the places that decoding comes to
(`exists_comesFrom`, `ComesFrom.unique`): from a specification that nothing is registered for, from
a map with other keys than strings, or from a handler that says so (`Disowns`). The last line of its
report goes by the specification alone. So it says of a custom key that no schema is registered for
it, whether one is or not (`conclusions_of_unknown_specs`).
-/

namespace JsonDecoding

open Attempt Decoder

/-! ## The two lines -/

namespace Spec

/-- The line that blames the registry. -/
def unregisteredLine (spec : Spec) : Text :=
  Text.lit "But no schema is registered for `" ++ spec.describe ++ Text.lit "`"

/-- The line that blames the keys of a map. -/
def keyLine (spec : Spec) : Text :=
  Text.lit "But `" ++ spec.describe ++
    Text.lit "` cannot be read as a key; only string map keys are supported"

variable {spec : Spec}

/-- The lines part after the first word. -/
theorem unregisteredLine_ne_keyLine : spec.unregisteredLine ≠ spec.keyLine := by
  intro hsame
  have hfifth := congrArg (fun text : Text => text[4]?) hsame
  cases hfifth

theorem conclusion_of_isCustom (h : spec.IsCustom) :
    (Cause.unknownSpec spec).conclusion = spec.unregisteredLine := by
  cases spec with
  | custom => rfl
  | _ => cases h

theorem conclusion_of_not_isCustom (h : ¬spec.IsCustom) :
    (Cause.unknownSpec spec).conclusion = spec.keyLine := by
  cases spec with
  | custom => exact (h trivial).elim
  | _ => rfl

/-- **What the last line says** of an unknown specification tells whether it is a custom one. -/
theorem conclusion_iff (spec : Spec) :
    ((Cause.unknownSpec spec).conclusion = spec.unregisteredLine ↔ spec.IsCustom) ∧
    ((Cause.unknownSpec spec).conclusion = spec.keyLine ↔ ¬spec.IsCustom) := by
  by_cases hcustom : spec.IsCustom
  · rw [conclusion_of_isCustom hcustom]
    simp [hcustom, unregisteredLine_ne_keyLine]
  · rw [conclusion_of_not_isCustom hcustom]
    simp [hcustom, unregisteredLine_ne_keyLine.symm]

end Spec

/-! ## Where a specification is unknown -/

/-- The ground on which a specification is unknown. -/
inductive Ground where
  | unregistered
  | key
  | handler

/-- Decoding a value by a specification fails by itself with an unknown specification: with this
one, which nothing is registered for; with the one of its keys, which are to be no strings; or with
the one that the handler of its schema names in the end, with some room left. -/
inductive Disowns (registry : Registry) (room : Nat) :
    Ground → Spec → Json → DecodeError → Prop where
  | unregistered {identity : Spec} {arguments : List Spec} {value : Json}
      (hresolve : registry.resolve identity = none) :
      Disowns registry room .unregistered (.custom identity arguments) value
        (.ofCause (.unknownSpec (.custom identity arguments)))
  | key {key content : Spec} {value : Json} (hkey : key.isString = false) :
      Disowns registry room .key (.mapOf key content) value (.ofCause (.unknownSpec key))
  | handler {spec unknown : Spec} {description : Text} {shape : Option Tag}
      {act : Json → Procedure} {value : Json} {e : DecodeError}
      (hschema : spec.DecodedBy registry (.raw description shape (.script act)))
      (hshape : shape.all (· = value.tag) = true)
      (hanswer : (run registry (decode registry room) room (act value)).result =
        .error (.failed e))
      (hcause : e.cause = .unknownSpec unknown) :
      Disowns registry room .handler spec value e

/-- A failure for an unknown specification comes from a place: decoding comes there, without trying
alternatives, and fails there by itself. -/
def ComesFrom (registry : Registry) (room : Nat) (spec : Spec) (value : Json) (ground : Ground)
    (path : List Location) (last : Spec) (found : Json) (inner : DecodeError) : Prop :=
  ∃ less, Arrives registry false room spec value path (less + 1) last found ∧
    Disowns registry less ground last found inner

/-! ## Courses that know what they decode by -/

/-- A cause that is no unknown specification. -/
def Cause.IsKnown : Cause → Prop
  | .unknownSpec _ => False
  | _ => True

/-- An attempt that fails, if it does, for something else than an unknown specification. -/
def Attempt.Knows (t : Attempt Data) : Prop :=
  ∀ e, t.result = .error (.failed e) → e.cause.IsKnown

namespace Attempt.Knows

theorem of_done (data : Data) : (Attempt.done data).Knows := by
  intro e h
  cases h

theorem of_refuse {cause : Cause} (h : cause.IsKnown) :
    (Attempt.refuse cause : Attempt Data).Knows := by
  intro e he
  cases he
  exact h

theorem of_mismatch (expected : Text) (value : Json) : (mismatch expected value).Knows :=
  of_refuse trivial

theorem of_fault (fault : Fault) : (Attempt.fault fault : Attempt Data).Knows := by
  intro e h
  cases h

theorem of_ofRule (description : Text) (value : Json) (answer : Except Complaint Data) :
    (Attempt.ofRule description value answer).Knows := by
  cases answer with
  | ok data => exact of_done data
  | error complaint =>
      by_cases hrejects : complaint.concern.rejects = true
      · rw [Attempt.ofRule, if_pos hrejects]
        exact of_refuse trivial
      · rw [Attempt.ofRule, if_neg hrejects]
        exact of_fault _

theorem of_setOf (spec : Spec) (value : Json) (items : List Data) :
    (Decoder.setOf spec value items).Knows := by
  unfold Decoder.setOf
  split
  · exact of_done _
  · exact of_fault _
  · unfold describable
    split
    · exact of_refuse trivial
    · exact of_fault _

end Attempt.Knows

namespace Course

variable {registry : Registry} {spec : Spec} {value : Json} {disowned : DecodeError → Prop}

/-- A course that ends at once fails for an unknown specification only where that is disowned; one
that has decoded its parts fails for something else. -/
def DisownsOnly (disowned : DecodeError → Prop) : Course → Prop
  | .settled outcome => ∀ room e unknown, (outcome room).result = .error (.failed e) →
      e.cause = .unknownSpec unknown → disowned e
  | .parts _ finish => ∀ data, (finish data).Knows
  | _ => True

/-- A course that passes on no failure of a decoding as it is. -/
def IsLast : Course → Prop
  | .settled _ => True
  | .scripted _ => True
  | _ => False

theorem disownsOnly_of_knows {outcome : Nat → Attempt Data} (h : ∀ room, (outcome room).Knows) :
    (Course.settled outcome).DisownsOnly disowned := by
  intro room e unknown he hcause
  have hknown := h room e he
  rw [hcause] at hknown
  exact hknown.elim

/-- Of the specifications that refer to no schema, those of maps alone disown one. -/
theorem IsOfSpec.disownsOnly {c : Course} (h : IsOfSpec spec value c)
    (hkey : ∀ key content, spec = .mapOf key content → key.isString = false →
      disowned (.ofCause (.unknownSpec key))) : c.DisownsOnly disowned := by
  cases h with
  | items | fields | positions => exact fun data => .of_done _
  | distinct => exact fun data => .of_setOf _ _ _
  | alternatives => trivial
  | @settled outcome hend =>
      intro room e unknown he hcause
      have h := hend room
      generalize outcome room = t at h he
      cases h with
      | key hmap hstring =>
          cases he
          exact hkey _ _ hmap hstring
      | scalar | stray => cases he
      | _ =>
          cases he
          cases hcause

theorem EndOfSchema.knows {schema : Schema} {t : Attempt Data} (h : EndOfSchema schema value t) :
    t.Knows := by
  cases h with
  | scalar => exact .of_ofRule _ _ _
  | kind => exact .of_mismatch _ _
  | missing | unknown => exact .of_refuse trivial
  | stray => exact .of_fault _

/-- A schema disowns no specification, unless its handler does. -/
theorem IsOfSchema.disownsOnly {schema : Schema} {c : Course} (h : IsOfSchema schema value c) :
    c.DisownsOnly disowned := by
  cases h with
  | object | array => exact fun data => .of_ofRule _ _ _
  | delegated | scripted => trivial
  | settled hend => exact disownsOnly_of_knows fun room => (hend room).knows

end Course

namespace Decoder

variable {registry : Registry} {room : Nat} {spec : Spec} {value : Json} {ground : Ground}
  {inner : DecodeError}

theorem course_disownsOnly (registry : Registry) (room : Nat) (spec : Spec) (value : Json) :
    (course registry spec value).DisownsOnly
      fun inner => ∃ ground, Disowns registry room ground spec value inner := by
  have h := isCourse registry spec value
  generalize course registry spec value = c at h ⊢
  cases h with
  | unregistered hcustom hresolve =>
      subst hcustom
      intro room e unknown he hcause
      cases he
      exact ⟨.unregistered, .unregistered hresolve⟩
  | failed => exact Course.disownsOnly_of_knows fun room => .of_fault _
  | schema _ _ _ h => exact h.disownsOnly
  | plain _ h =>
      refine h.disownsOnly fun key content hmap hkey => ⟨.key, ?_⟩
      obtain rfl : spec = .mapOf key content := by cases spec <;> simp_all [Spec.desugar]
      exact .key hkey

/-- A place that disowns a specification is the last one, and fails. -/
theorem course_of_disowns (h : Disowns registry room ground spec value inner) :
    (course registry spec value).IsLast ∧
      ((course registry spec value).follow registry (decode registry room) room value).result =
        .error (.failed inner) := by
  cases h with
  | unregistered hresolve =>
      simp only [course, Spec.desugar, hresolve]
      exact ⟨trivial, rfl⟩
  | key hkey =>
      cases value <;>
        simp [course, Spec.desugar, Course.ofSpec, matching, hkey, Course.IsLast, Course.follow,
          refuse, stopped]
  | handler hschema hshape hanswer _ =>
      obtain ⟨identity, arguments, factory, rfl, hresolve, hcall⟩ := hschema
      simp only [course, Spec.desugar, hresolve, hcall, Course.ofSchema, if_pos hshape]
      exact ⟨trivial, hanswer⟩

end Decoder

/-! ## Where a failure comes from -/

section Origin

variable {registry : Registry} {room less : Nat} {spec last : Spec} {value found : Json}
  {path : List Location} {ground : Ground} {inner e : DecodeError} {unknown : Spec}

/-- A place disowns in one way. -/
theorem Disowns.unique {other : Ground} {otherInner : DecodeError}
    (h : Disowns registry room ground spec value inner)
    (hother : Disowns registry room other spec value otherInner) :
    other = ground ∧ otherInner = inner := by
  constructor
  · cases h with
    | unregistered hresolve =>
        cases hother with
        | unregistered => rfl
        | handler hschema =>
            obtain ⟨_, _, _, heq, hfactory, -⟩ := hschema
            cases heq
            cases hresolve.symm.trans hfactory
    | key =>
        cases hother with
        | key => rfl
        | handler hschema =>
            obtain ⟨_, _, _, heq, -⟩ := hschema
            cases heq
    | handler hschema =>
        obtain ⟨_, _, _, rfl, hfactory, -⟩ := hschema
        cases hother with
        | unregistered hresolve => cases hresolve.symm.trans hfactory
        | handler => rfl
  · simpa using (course_of_disowns hother).2.symm.trans (course_of_disowns h).2

/-- **Where an unknown specification comes from**: decoding came to a place that disowns it. -/
theorem exists_comesFrom (hfailed : (decode registry room spec value).result = .error (.failed e))
    (hcause : e.cause = .unknownSpec unknown) :
    ∃ ground path last found inner,
      ComesFrom registry room spec value ground path last found inner ∧
      inner.cause = .unknownSpec unknown ∧ e.path = path ++ inner.path := by
  induction room generalizing spec value e with
  | zero => cases hfailed
  | succ room ih =>
      have honly := course_disownsOnly registry room spec value
      rw [decode_eq_follow] at hfailed
      obtain ⟨inner, description, -, hinner, -, rfl⟩ := exists_of_headed_failed hfailed
      rw [DecodeError.cause_within] at hcause
      generalize hcourse : course registry spec value = c at hinner honly
      cases c with
      | settled outcome =>
          obtain ⟨ground, hdisowns⟩ := honly room inner unknown hinner hcause
          exact ⟨ground, [], spec, value, inner, ⟨room, .here, hdisowns⟩, hcause, rfl⟩
      | parts members finish =>
          rcases bind_error.mp hinner with hparts | ⟨data, -, hfinish⟩
          · obtain ⟨before, part, after, rfl, hbefore, hstop⟩ := exists_stopped_part hparts
            obtain ⟨deeper, hpart, rfl⟩ := located_failed.mp hstop
            rw [DecodeError.cause_locatedAt] at hcause
            obtain ⟨ground, path, last, found, origin, ⟨less, harrives, hdisowns⟩, horigin,
              hpath⟩ := ih hpart hcause
            refine ⟨ground, _, last, found, origin,
              ⟨less, .part hcourse hbefore harrives, hdisowns⟩, horigin, ?_⟩
            obtain ⟨framed, name, -, -, rfl⟩ := within_of_failed hpart
            rw [DecodeError.path_within, DecodeError.path_within_locatedAt, List.cons_append,
              ← hpath]
            rfl
          · have hknown := honly data inner hfinish
            rw [hcause] at hknown
            exact hknown.elim
      | alternatives whole specs =>
          rw [firstOf_failed hinner] at hcause
          cases hcause
      | delegated next build =>
          obtain ⟨ground, path, last, found, origin, ⟨less, harrives, hdisowns⟩, horigin,
            hpath⟩ := ih (map_error.mp hinner) hcause
          exact ⟨ground, path, last, found, origin,
            ⟨less, .delegated hcourse harrives, hdisowns⟩, horigin, hpath⟩
      | scripted procedure =>
          obtain ⟨description, shape, act, hschema, hshape, rfl⟩ := exists_script_of_course hcourse
          exact ⟨.handler, [], spec, value, inner,
            ⟨room, .here, .handler hschema hshape hinner hcause⟩, hcause, rfl⟩

/-- What stops at a place that decoding comes to without trying alternatives, stops it. -/
theorem Arrives.not_ok (h : Arrives registry false room spec value path less last found)
    (hlast : ∀ data, (decode registry less last found).result ≠ .ok data) (data : Data) :
    (decode registry room spec value).result ≠ .ok data := by
  induction h generalizing data with
  | here => exact hlast data
  | @part room _ spec _ value _ _ before after part _ hcourse _ _ ih =>
      rw [decode_eq_follow, ne_eq, headed_ok, hcourse]
      intro hdata
      obtain ⟨all, hall, -⟩ := bind_ok.mp hdata
      obtain ⟨datum, -, hdatum⟩ := Outcomes.exists_of_forall₂ (inOrder_ok.mp hall)
        (List.mem_map_of_mem (List.mem_append_right before (List.mem_cons_self (a := part))))
      exact ih hlast datum hdatum
  | alternative h => cases h
  | delegated hcourse _ ih =>
      rw [decode_eq_follow, ne_eq, headed_ok, hcourse]
      intro hdata
      obtain ⟨inner, hinner, -⟩ := map_ok.mp hdata
      exact ih hlast inner hinner
  | loaded h => cases h

theorem Disowns.not_ok (h : Disowns registry less ground last found inner) (data : Data) :
    (decode registry (less + 1) last found).result ≠ .ok data := by
  rw [decode_eq_follow, ne_eq, headed_ok, (course_of_disowns h).2]
  intro hdata
  cases hdata

/-- Two ways to split a list at its first element that is not good are one. -/
theorem split_unique {α : Type} {good : α → Prop} {before after others rest : List α} {a b : α}
    (hsplit : before ++ a :: after = others ++ b :: rest) (hbefore : ∀ x ∈ before, good x)
    (ha : ¬good a) (hothers : ∀ x ∈ others, good x) (hb : ¬good b) : a = b := by
  induction before generalizing others with
  | nil =>
      cases others with
      | nil => exact (List.cons.inj hsplit).1
      | cons first others =>
          obtain ⟨rfl, -⟩ := List.cons.inj hsplit
          exact (ha (hothers a (.head _))).elim
  | cons first before ih =>
      cases others with
      | nil =>
          obtain ⟨rfl, -⟩ := List.cons.inj hsplit
          exact (hb (hbefore first (.head _))).elim
      | cons other others =>
          refine ih (List.cons.inj hsplit).2 (fun x hx => hbefore x (.tail _ hx)) ?_
          exact fun x hx => hothers x (.tail _ hx)

/-- Decoding comes to one place that disowns. -/
theorem Arrives.unique {other : Ground} {otherInner : DecodeError} {otherPath : List Location}
    {otherLess : Nat} {otherLast : Spec} {otherFound : Json}
    (h : Arrives registry false room spec value path (less + 1) last found)
    (hdisowns : Disowns registry less ground last found inner)
    (hother : Arrives registry false room spec value otherPath (otherLess + 1) otherLast otherFound)
    (hotherDisowns : Disowns registry otherLess other otherLast otherFound otherInner) :
    otherPath = path ∧ otherLess = less ∧ otherLast = last ∧ otherFound = found := by
  have hlast {less : Nat} {ground : Ground} {spec : Spec} {value : Json} {inner : DecodeError}
      {c : Course} (h : Disowns registry less ground spec value inner)
      (hcourse : course registry spec value = c) : c.IsLast := hcourse ▸ (course_of_disowns h).1
  generalize hmore : less + 1 = more at h
  induction h generalizing otherPath with
  | here =>
      cases hother with
      | here => exact ⟨rfl, by omega, rfl, rfl⟩
      | part hcourse => exact (hlast hdisowns hcourse).elim
      | alternative h => cases h
      | delegated hcourse => exact (hlast hdisowns hcourse).elim
      | loaded h => cases h
  | part hcourse hbefore harrives ih =>
      subst hmore
      -- both ways split the parts at the first that does not decode
      cases hother with
      | here => exact (hlast hotherDisowns hcourse).elim
      | part hotherCourse hotherBefore hotherArrives =>
          have hsame := hcourse.symm.trans hotherCourse
          rw [Course.parts.injEq] at hsame
          obtain rfl := split_unique hsame.1 hbefore
            (fun ⟨data, hdata⟩ => harrives.not_ok (fun _ => hdisowns.not_ok _) data hdata)
            hotherBefore
            (fun ⟨data, hdata⟩ => hotherArrives.not_ok (fun _ => hotherDisowns.not_ok _) data hdata)
          obtain ⟨rfl, rfl, rfl, rfl⟩ := ih hdisowns hotherArrives rfl
          exact ⟨rfl, rfl, rfl, rfl⟩
      | alternative h => cases h
      | delegated hotherCourse => cases hcourse.symm.trans hotherCourse
      | loaded h => cases h
  | alternative h => cases h
  | delegated hcourse _ ih =>
      cases hother with
      | here => exact (hlast hotherDisowns hcourse).elim
      | part hotherCourse => cases hcourse.symm.trans hotherCourse
      | alternative h => cases h
      | delegated hotherCourse hotherArrives =>
          cases hcourse.symm.trans hotherCourse
          exact ih hdisowns hotherArrives hmore
      | loaded h => cases h
  | loaded h => cases h

/-- **A failure comes from one place.** -/
theorem ComesFrom.unique {other : Ground} {otherInner : DecodeError} {otherPath : List Location}
    {otherLast : Spec} {otherFound : Json}
    (h : ComesFrom registry room spec value ground path last found inner)
    (hother : ComesFrom registry room spec value other otherPath otherLast otherFound otherInner) :
    other = ground ∧ otherPath = path ∧ otherLast = last ∧ otherFound = found ∧
      otherInner = inner := by
  obtain ⟨less, harrives, hdisowns⟩ := h
  obtain ⟨otherLess, hotherArrives, hotherDisowns⟩ := hother
  obtain ⟨rfl, rfl, rfl, rfl⟩ := harrives.unique hdisowns hotherArrives hotherDisowns
  obtain ⟨rfl, rfl⟩ := hdisowns.unique hotherDisowns
  exact ⟨rfl, rfl, rfl, rfl, rfl⟩

/-- What a place disowns for lack of a schema is a custom specification, and the one that was to be
decoded by. -/
theorem Disowns.isCustom (h : Disowns registry less .unregistered last found inner)
    (hinner : inner.cause = .unknownSpec unknown) : unknown.IsCustom := by
  cases h
  cases hinner
  trivial

end Origin

/-- **What the last line says of an unknown specification.** The failure comes from one place. Its
last line says that no schema is registered for the specification if none is there, and also where
keys of maps, or a handler, are to be blamed, if these come with a custom specification; it says
that the specification cannot be read as a key only of others. -/
theorem Decoder.conclusions_of_unknown_specs {registry : Registry} {room : Nat}
    {spec unknown : Spec} {value : Json} {e : DecodeError}
    (hfailed : (decode registry room spec value).result = .error (.failed e))
    (hcause : e.cause = .unknownSpec unknown) :
    ∃ ground path last found inner,
      ComesFrom registry room spec value ground path last found inner ∧
      (∀ other otherPath otherLast otherFound otherInner,
        ComesFrom registry room spec value other otherPath otherLast otherFound otherInner →
        other = ground ∧ otherPath = path ∧ otherLast = last ∧ otherFound = found ∧
          otherInner = inner) ∧
      inner.cause = .unknownSpec unknown ∧ e.path = path ++ inner.path ∧
      (e.cause.conclusion = unknown.unregisteredLine ↔
        ground = .unregistered ∨ ground ≠ .unregistered ∧ unknown.IsCustom) ∧
      (e.cause.conclusion = unknown.keyLine ↔
        ground ≠ .unregistered ∧ ¬unknown.IsCustom) := by
  obtain ⟨ground, path, last, found, inner, hfrom, hinner, hpath⟩ := exists_comesFrom hfailed hcause
  obtain ⟨less, harrives, hdisowns⟩ := id hfrom
  have hcustom : ground = .unregistered → unknown.IsCustom := by
    rintro rfl
    exact hdisowns.isCustom hinner
  obtain ⟨hunregistered, hkey⟩ := Spec.conclusion_iff unknown
  refine ⟨ground, path, last, found, inner, hfrom,
    fun _ _ _ _ _ hother => hfrom.unique hother, hinner, hpath, ?_, ?_⟩
  · rw [hcause, hunregistered]
    constructor
    · intro hunknown
      by_cases hground : ground = .unregistered
      · exact .inl hground
      · exact .inr ⟨hground, hunknown⟩
    · intro h
      exact h.elim hcustom And.right
  · rw [hcause, hkey]
    constructor
    · intro hunknown
      exact ⟨fun hground => hunknown (hcustom hground), hunknown⟩
    · intro h
      exact h.2

/-- A map by numbers inside an array, without any schemas: the keys are blamed. -/
theorem Decoder.conclusions_of_unknown_specs_for_number_keys :
    let number : Spec := .primitive .number
    let spec : Spec := .arrayOf (.mapOf number .any)
    let value : Json := .array [.object []]
    ∃ e, (decode .empty 5 spec value).result = .error (.failed e) ∧ e.path = [.index 0] ∧
      ComesFrom .empty 5 spec value .key [.index 0] (.mapOf number .any) (.object [])
        (.ofCause (.unknownSpec number)) ∧
      e.cause.conclusion = number.keyLine := by
  intro number spec value
  have hfrom : ComesFrom .empty 5 spec value .key [.index 0] (.mapOf number .any) (.object [])
      (.ofCause (.unknownSpec number)) := by
    have hcourse : course .empty spec value =
        .parts ([] ++ [⟨.index 0, .mapOf number .any, .object []⟩])
          fun data => .done (.list data) := rfl
    exact ⟨3, .part hcourse (by simp) .here, .key rfl⟩
  obtain ⟨ground, path, last, found, inner, -, hunique, -, hpath, -, hkey⟩ :=
    @conclusions_of_unknown_specs .empty 5 spec number value _ rfl rfl
  obtain ⟨rfl, rfl, rfl, rfl, rfl⟩ := hunique _ _ _ _ _ hfrom
  refine ⟨_, rfl, hpath, hfrom, hkey.mpr ⟨?_, ?_⟩⟩
  · intro h
    cases h
  · intro h
    cases h

/-- A custom key is blamed on the registry that has a schema for it. -/
theorem Decoder.registered_key_called_unregistered :
    let identity : Spec := .symbol (Text.lit "X") []
    let key : Spec := .custom identity []
    let schema : Schema := .scalar (Text.lit "X") .string .ok
    let registry : Registry := ⟨[(identity, ⟨fun _ => .ok schema, 0, [], Text.lit "X"⟩)]⟩
    (registry.resolve identity).isSome = true ∧
    ComesFrom registry 3 (.mapOf key .any) (.object []) .key [] (.mapOf key .any) (.object [])
      (.ofCause (.unknownSpec key)) ∧
    ∃ e, (decode registry 3 (.mapOf key .any) (.object [])).result = .error (.failed e) ∧
      e.cause = .unknownSpec key ∧ e.cause.conclusion = key.unregisteredLine ∧
      e.cause.conclusion ≠ key.keyLine :=
  ⟨rfl, ⟨2, .here, .key rfl⟩, _, rfl, rfl, rfl, Spec.unregisteredLine_ne_keyLine⟩

end JsonDecoding
