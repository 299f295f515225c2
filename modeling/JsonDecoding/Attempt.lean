import JsonDecoding.DecodeError
import JsonDecoding.Fault

/-!
# Attempts

What decoding gives: the records that it left on the way, and a result. It stops early when the
value does not match, when the library is misused, or when too many decodings are under way at
once.
-/

namespace JsonDecoding

/-- Why an attempt gave no result. -/
inductive Stop where
  | failed (error : DecodeError)
  | faulted (fault : Fault)
  | exhausted

/-- The outcome of decoding, with its records in order. -/
structure Attempt (α : Type) where
  log : List Log.Record
  result : Except Stop α

namespace Attempt

variable {α β : Type}

/-- An attempt that succeeds at once. -/
def done (a : α) : Attempt α := ⟨[], .ok a⟩

/-- An attempt that stops at once. -/
def stopped (stop : Stop) : Attempt α := ⟨[], .error stop⟩

/-- An attempt whose value is refused before any specification is named for it. -/
def refuse (cause : Cause) : Attempt α := stopped (.failed (.ofCause cause))

/-- An attempt that ends in a fault. -/
def fault (fault : Fault) : Attempt α := stopped (.faulted fault)

/-- An attempt that gives what a check lets through. -/
def ofExcept : Except Fault α → Attempt α
  | .ok a => done a
  | .error f => fault f

/-- The attempt with a function applied to its result. -/
def map (f : α → β) (t : Attempt α) : Attempt β := ⟨t.log, t.result.map f⟩

/-- One attempt after another, which depends on the first one's result. -/
def bind (t : Attempt α) (next : α → Attempt β) : Attempt β :=
  match t.result with
  | .ok a =>
      let u := next a
      ⟨t.log ++ u.log, u.result⟩
  | .error stop => ⟨t.log, .error stop⟩

/-- What follows an attempt that succeeds or fails; all else ends it. -/
def resume (t : Attempt α) (next : Except DecodeError α → Attempt β) : Attempt β :=
  match t.result with
  | .ok a =>
      let u := next (.ok a)
      ⟨t.log ++ u.log, u.result⟩
  | .error (.failed e) =>
      let u := next (.error e)
      ⟨t.log ++ u.log, u.result⟩
  | .error stop => ⟨t.log, .error stop⟩

/-- An attempt after other records. -/
def after (records : List Log.Record) (t : Attempt α) : Attempt α := ⟨records ++ t.log, t.result⟩

/-- The attempt with something done to the way in which it stops. -/
def mapStop (f : Stop → Stop) (t : Attempt α) : Attempt α := ⟨t.log, t.result.mapError f⟩

/-- The attempt on a value that sits at a location of its parent. -/
def located (location : Location) (t : Attempt α) : Attempt α :=
  t.mapStop fun
    | .failed e => .failed (e.locatedAt location)
    | stop => stop

/-- How an attempt stops that has to show a value and cannot: that takes as much room as the value
is deep, and integers that are not too long. -/
def unshown? (room : Nat) (value : Json) : Option Stop :=
  if room < value.depth then some .exhausted
  else if value.isOverlong then some (.faulted .overlong)
  else none

/-- How an attempt stops that failed on a value which was being read as `description`. -/
def shownAs (room : Nat) (description : Text) (value : Json) (e : DecodeError) : Stop :=
  (unshown? room value).getD (.failed (e.within description value))

/-- The attempt on a value that was being read as `description`. -/
def framed (room : Nat) (description : Text) (value : Json) (t : Attempt α) : Attempt α :=
  t.mapStop fun
    | .failed e => shownAs room description value e
    | stop => stop

/-- The attempt on a value that was being read by a specification; a failure has to name it. -/
def framedBy (room : Nat) (spec : Spec) (value : Json) (t : Attempt α) : Attempt α :=
  t.mapStop fun
    | .failed e =>
        match spec.flaw? with
        | none => shownAs room spec.describe value e
        | some flaw => .faulted (.ofFlaw flaw)
    | stop => stop

/-- What a rule's answer about a value makes of an attempt: a complaint that rejects the value
refuses it, any other is a fault. -/
def ofRule (description : Text) (value : Json) : Except Complaint Data → Attempt Data
  | .ok data => done data
  | .error complaint =>
      if complaint.concern.rejects then refuse (.invalid description value complaint.message)
      else fault (.complaint complaint)

/-! ## How combined attempts end -/

@[simp] theorem result_map (f : α → β) (t : Attempt α) : (t.map f).result = t.result.map f := rfl

@[simp] theorem result_bind (t : Attempt α) (next : α → Attempt β) :
    (t.bind next).result = t.result.bind fun a => (next a).result := by
  obtain ⟨log, result⟩ := t
  cases result <;> rfl

@[simp] theorem result_after (records : List Log.Record) (t : Attempt α) :
    (t.after records).result = t.result := rfl

@[simp] theorem result_mapStop (f : Stop → Stop) (t : Attempt α) :
    (t.mapStop f).result = t.result.mapError f := rfl

/-- What comes after a success adds its records and decides the result. -/
theorem bind_of_ok {t : Attempt α} {a : α} (h : t.result = .ok a) (next : α → Attempt β) :
    t.bind next = ⟨t.log ++ (next a).log, (next a).result⟩ := by
  simp [bind, h]

/-- Nothing comes after a stop. -/
theorem bind_of_error {t : Attempt α} {stop : Stop} (h : t.result = .error stop)
    (next : α → Attempt β) : t.bind next = ⟨t.log, .error stop⟩ := by
  simp [bind, h]

end Attempt

end JsonDecoding
