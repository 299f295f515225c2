import JsonDecoding.Proofs.Failures
import JsonDecoding.Proofs.Room

/-!
# Diagnostics

What a failed decoding says is true of the value. Its frames lead from the value to the part at
fault, each of them shows the part that it stands for, and what it reports was found at that part.
Without its outermost frame, a failure is the failure of decoding the part that the next frame
stands for (`failure_is_faithful`).
-/

namespace JsonDecoding

/-- A cause that was found at a value: it carries that very value, or names keys which the object
lacks or has. -/
def Cause.IsAbout (value : Json) : Cause → Prop
  | .typeMismatch _ _ refused => refused = value
  | .missingKeys keys => value.tag = .object ∧ ∀ key ∈ keys, key ∉ value.keys
  | .unknownKeys keys => value.tag = .object ∧ ∀ key ∈ keys, key ∈ value.keys
  | .unknownSpec _ => True
  | .invalid _ refused _ => refused = value

namespace DecodeError

/-- The error without its outermost frame, the next one having no parent any more. -/
def inner (e : DecodeError) : DecodeError :=
  match e.frames with
  | _ :: next :: deeper => ⟨e.cause, ⟨next.description, next.seen, none⟩ :: deeper⟩
  | _ => ⟨e.cause, []⟩

/-- The frames of an error tell where in the value it comes from, and its cause was found there. -/
structure Faithful (value : Json) (e : DecodeError) : Prop where
  placed : ∃ outermost deeper, e.frames = outermost :: deeper ∧ outermost.location = none ∧
    ∀ frame ∈ deeper, frame.location.isSome = true
  seen : ∀ (k : Nat) (frame : Frame), e.frames[k]? = some frame →
    ∃ part, value.follow? (e.path.take k) = some part ∧ frame.seen = part.render.clip ∧
      frame.seen.length ≤ Text.clipLimit
  cause : ∃ part, value.follow? e.path = some part ∧ e.cause.IsAbout part

end DecodeError

namespace Decoder

variable {registry : Registry} {spec : Spec} {value : Json} {room : Nat} {e : DecodeError}

/-- What a specification refuses a value for was found at the value. -/
theorem Refusal.isAbout {step : Spec → Json → Attempt Data} {cause : Cause}
    (h : Refusal registry step spec value cause) : cause.IsAbout value := by
  cases h with
  | mismatch => rfl
  | unhashable => rfl
  | key => trivial
  | unregistered => trivial
  | missing =>
      refine ⟨rfl, ?_⟩
      intro key hkey
      obtain ⟨field, -, -, habsent, rfl⟩ := mem_missingKeys.mp hkey
      exact habsent
  | unknown => exact ⟨rfl, fun key hkey => (mem_unknownKeys.mp hkey).1⟩
  | rejected => rfl

/-- The parts of a failure without its outermost frame are those of the failure of a part. -/
theorem inner_of_located {deeper : DecodeError} {description seen : Text} {rest : List Frame}
    (h : deeper.frames = ⟨description, seen, none⟩ :: rest) (location : Location) (name : Text)
    (value : Json) : ((deeper.locatedAt location).within name value).inner = deeper := by
  obtain ⟨cause, frames⟩ := deeper
  cases h
  rfl

/-- Every frame but the outermost has a location. -/
theorem placed_of_failed (hmade : registry.IsMade)
    (h : (decode registry room spec value).result = .error (.failed e)) :
    ∃ outermost deeper, e.frames = outermost :: deeper ∧ outermost.location = none ∧
      ∀ frame ∈ deeper, frame.location.isSome = true := by
  induction room generalizing spec value e with
  | zero => cases h
  | succ room ih =>
      obtain ⟨less, description, inner, hless, rfl, hfails⟩ := decode_failed (fun _ => hmade) h
      obtain rfl : room = less := by omega
      refine ⟨_, _, rfl, rfl, ?_⟩
      rcases hfails with ⟨cause, rfl, -⟩ | ⟨location, next, part, deeper, -, -, hdeeper, rfl⟩
      · simp [DecodeError.ofCause]
      · obtain ⟨outermost, rest, hframes, -, hrest⟩ := ih hdeeper
        simp only [DecodeError.locatedAt, hframes, List.mem_cons, forall_eq_or_imp]
        exact ⟨rfl, hrest⟩

/-- Every frame shows the part of the value that its place in the path leads to. -/
theorem seen_of_failed (hmade : registry.IsMade) (hkeys : value.KeysDistinct)
    (h : (decode registry room spec value).result = .error (.failed e)) {k : Nat} {frame : Frame}
    (hframe : e.frames[k]? = some frame) :
    ∃ part, value.follow? (e.path.take k) = some part ∧ frame.seen = part.seen := by
  induction room generalizing spec value e k frame with
  | zero => cases h
  | succ room ih =>
      obtain ⟨less, description, inner, hless, rfl, hfails⟩ := decode_failed (fun _ => hmade) h
      obtain rfl : room = less := by omega
      cases k with
      | zero =>
          cases hframe
          exact ⟨value, rfl, rfl⟩
      | succ k =>
          rcases hfails with
            ⟨cause, rfl, -⟩ | ⟨location, next, part, deeper, -, hpart, hdeeper, rfl⟩
          · cases hframe
          · obtain ⟨name, rest, hframes⟩ := frames_of_failed (fun _ => hmade) hdeeper
            -- the location changes nothing of what the frame shows
            obtain ⟨unplaced, hunplaced, hseen⟩ :
                ∃ unplaced, deeper.frames[k]? = some unplaced ∧ unplaced.seen = frame.seen := by
              simp only [DecodeError.within, DecodeError.locatedAt, hframes,
                List.getElem?_cons_succ] at hframe ⊢
              cases k with
              | zero =>
                  cases hframe
                  exact ⟨_, rfl, rfl⟩
              | succ k => exact ⟨frame, hframe, rfl⟩
            obtain ⟨found, hfound, hshown⟩ := ih (hpart.keysDistinct hkeys) hdeeper hunplaced
            refine ⟨found, ?_, hseen ▸ hshown⟩
            rw [DecodeError.path_within, DecodeError.path_locatedAt hframes, List.take_succ_cons,
              Json.follow?, hpart.child?_eq hkeys]
            exact hfound

/-- **Diagnostics are faithful**: the frames of a failure lead through the value to what it reports,
and without the outermost one they are the failure of decoding the part that comes next. -/
theorem failure_is_faithful (hmade : registry.IsMade) (hkeys : value.KeysDistinct)
    (h : (decode registry room spec value).result = .error (.failed e)) :
    e.Faithful value ∧
    (1 < e.frames.length → ∃ location inner part, e.path.head? = some location ∧
      spec.Inner registry location inner ∧ value.child? location = some part ∧
      (decode registry room inner part).result = .error (.failed e.inner)) := by
  constructor
  · refine ⟨placed_of_failed hmade h, ?_, ?_⟩
    · intro k frame hframe
      obtain ⟨part, hpart, hseen⟩ := seen_of_failed hmade hkeys h hframe
      exact ⟨part, hpart, hseen, hseen ▸ Text.length_clip_le part.render⟩
    · obtain ⟨_, _, part, hreaches, hrefusal⟩ := failure_origin (fun _ => hmade) h
      exact ⟨part, hreaches.follow?_eq hkeys, hrefusal.isAbout⟩
  · intro hlength
    obtain ⟨less, description, reason, rfl, rfl, hfails⟩ := decode_failed (fun _ => hmade) h
    rcases hfails with
      ⟨cause, rfl, -⟩ | ⟨location, inner, part, deeper, hinner, hpart, hdeeper, rfl⟩
    · simp [DecodeError.within, DecodeError.ofCause] at hlength
    · obtain ⟨name, rest, hframes⟩ := frames_of_failed (fun _ => hmade) hdeeper
      refine ⟨location, inner, part, ?_, hinner, hpart.child?_eq hkeys, ?_⟩
      · rw [DecodeError.path_within, DecodeError.path_locatedAt hframes, List.head?_cons]
      · have hfinished : (decode registry less inner part).result ≠ .error .exhausted := by
          simp [hdeeper]
        rw [decode_of_le (Nat.le_succ less) hfinished, inner_of_located hframes]
        exact hdeeper

/-- A field of an object schema whose array has an item of another kind. -/
theorem failure_is_faithful_in_field :
    let point : Spec := .symbol (Text.lit "Point") []
    let element : Spec := .primitive .boolean
    let build : List Spec → Except Fault Schema := fun _ =>
      Schema.ofFields (Text.lit "Point") [(Text.lit "p", .arrayOf element)] [] .ok
    let registry : Registry := ⟨[(point, ⟨build, 0, [], Text.lit "Point"⟩)]⟩
    let items : Json := .array [.boolean true, .null]
    let value : Json := .object [(Text.lit "p", items)]
    let e : DecodeError :=
      ⟨.typeMismatch (Text.lit "boolean") (Text.lit "null") .null,
        [⟨Text.lit "Point", value.seen, none⟩,
          ⟨Text.lit "array of boolean", items.seen, some (.key (Text.lit "p"))⟩,
          ⟨Text.lit "boolean", Json.null.seen, some (.index 1)⟩]⟩
    (decode registry 5 (.custom point []) value).result = .error (.failed e) ∧
    e.Faithful value ∧
    ∃ location inner part, e.path.head? = some location ∧
      (Spec.custom point []).Inner registry location inner ∧
      value.child? location = some part ∧
      (decode registry 5 inner part).result = .error (.failed e.inner) := by
  intro point element build registry items value e
  have hmade : registry.IsMade := by
    intro entry hentry arguments schema hschema
    obtain rfl := List.mem_singleton.mp hentry
    exact ⟨.object (Text.lit "Point") [(Text.lit "p", .arrayOf element)] [] .ok, hschema⟩
  have hkeys : value.KeysDistinct :=
    ⟨by simp [Assoc.keys], ⟨⟨trivial, trivial, trivial⟩, trivial⟩⟩
  have hfailed : (decode registry 5 (.custom point []) value).result = .error (.failed e) := rfl
  obtain ⟨hfaithful, hinner⟩ := failure_is_faithful hmade hkeys hfailed
  exact ⟨hfailed, hfaithful, hinner (by decide)⟩

end Decoder

end JsonDecoding
