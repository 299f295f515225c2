import JsonDecoding.Text

/-!
# UTF-8

Decoding octets, and encoding texts. Octets that cannot be decoded are reported by those that could
begin a sequence and the octet at which it stops being one.
-/

namespace JsonDecoding.Utf8

/-- Why octets are no UTF-8. -/
inductive Cause where
  | invalidStart
  | invalidContinuation
  | unexpectedEnd

/-- Where octets stop being UTF-8: the rejected octets are `length` from `start`, the first of them
being `octet`. -/
structure Fault where
  cause : Cause
  start : Nat
  length : Nat
  octet : Nat

/-- What the first octet of a sequence announces: how many octets follow, its payload, and the least
and greatest octet that may come second. -/
def lead? (c : Nat) : Option (Nat × Nat × Nat × Nat) :=
  if c < 0x80 then some (0, c, 0, 0)
  else if c < 0xC2 then none
  else if c < 0xE0 then some (1, c - 0xC0, 0x80, 0xBF)
  else if c = 0xE0 then some (2, 0, 0xA0, 0xBF)
  else if c = 0xED then some (2, 0xD, 0x80, 0x9F)
  else if c < 0xF0 then some (2, c - 0xE0, 0x80, 0xBF)
  else if c = 0xF0 then some (3, 0, 0x90, 0xBF)
  else if c < 0xF4 then some (3, c - 0xF0, 0x80, 0xBF)
  else if c = 0xF4 then some (3, 4, 0x80, 0x8F)
  else none

/-- A sequence under way: `pending` octets are still due, the next one between `low` and `high`; its
first octet is `octet` at `start`, and `payload` is what it has said so far. -/
structure State where
  start : Nat
  octet : Nat
  pending : Nat
  payload : Nat
  low : Nat
  high : Nat

/-- Decodes the octets from `position` on, inside the sequence `state` if there is one. -/
def decodeFrom : Nat → Option State → List Nat → Except Fault Text
  | _, none, [] => .ok []
  | position, some s, [] => .error ⟨.unexpectedEnd, s.start, position - s.start, s.octet⟩
  | position, none, c :: rest =>
      match lead? c with
      | none => .error ⟨.invalidStart, position, 1, c⟩
      | some (0, payload, _) => (payload :: ·) <$> decodeFrom (position + 1) none rest
      | some (pending + 1, payload, low, high) =>
          decodeFrom (position + 1) (some ⟨position, c, pending + 1, payload, low, high⟩) rest
  | position, some s, c :: rest =>
      if s.low ≤ c && c ≤ s.high then
        let payload := s.payload * 0x40 + (c - 0x80)
        if s.pending ≤ 1 then (payload :: ·) <$> decodeFrom (position + 1) none rest
        else
          decodeFrom (position + 1)
            (some ⟨s.start, s.octet, s.pending - 1, payload, 0x80, 0xBF⟩) rest
      else .error ⟨.invalidContinuation, s.start, position - s.start, s.octet⟩

/-- The text that octets encode. -/
def decode (octets : List Nat) : Except Fault Text := decodeFrom 0 none octets

/-! ## Encoding -/

/-- The octets of a code point that is no surrogate. -/
def octetsOf (c : CodePoint) : List Nat :=
  if c < 0x80 then [c]
  else if c < 0x800 then [0xC0 + c / 0x40, 0x80 + c % 0x40]
  else if c < 0x10000 then [0xE0 + c / 0x1000, 0x80 + c / 0x40 % 0x40, 0x80 + c % 0x40]
  else
    [0xF0 + c / 0x40000, 0x80 + c / 0x1000 % 0x40, 0x80 + c / 0x40 % 0x40, 0x80 + c % 0x40]

/-- The octets that encode a text; `none` when a surrogate stands in it. -/
def encode? (t : Text) : Option (List Nat) :=
  if t.any Text.isSurrogate then none else some (t.flatMap octetsOf)

/-- How many octets encode a text; `none` when a surrogate stands in it. -/
def size? (t : Text) : Option Nat := (encode? t).map List.length

/-- The text with replacement characters for its surrogates, one for each octet that a surrogate
would take. -/
def replaced (t : Text) : Text :=
  t.flatMap fun c => if Text.isSurrogate c then List.replicate 3 0xFFFD else [c]

/-! ## Words -/

/-- The words for a cause. -/
def Cause.message : Cause → Text
  | .invalidStart => Text.lit "invalid start byte"
  | .invalidContinuation => Text.lit "invalid continuation byte"
  | .unexpectedEnd => Text.lit "unexpected end of data"

/-- The words for a fault: a single octet is shown, several are counted. -/
def Fault.message (f : Fault) : Text :=
  Text.lit "'utf-8' codec can't decode " ++
    (if f.length ≤ 1 then
      Text.lit "byte 0x" ++ Text.hex 2 f.octet ++ Text.lit " in position " ++ Text.ofNat f.start
    else
      Text.lit "bytes in position " ++ Text.ofNat f.start ++ Text.lit "-" ++
        Text.ofNat (f.start + f.length - 1)) ++
    Text.lit ": " ++ f.cause.message

end JsonDecoding.Utf8
