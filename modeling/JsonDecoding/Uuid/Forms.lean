import JsonDecoding.Text.Utf8
import JsonDecoding.Uuid

/-!
# Forms of UUIDs

The forms in which UUIDs are exchanged: 32 hexadecimal digits; five groups of them with dashes
between, alone, in braces, or behind `urn:uuid:`; sixteen octets. What is wrong with any other text
is said by its first strange character, the number of its groups, or the length of one.
-/

namespace JsonDecoding.Uuid

/-- What is wrong with a text of no form. Texts of several lengths have a form, so the wrong length
of a whole is said without a right one; a group has one length only. -/
inductive Deformity where
  | character (c : CodePoint) (position : Nat)
  | length (found : Nat)
  | groups (found : Nat)
  | group (index expected found : Nat)
  | octets (found : Nat)

/-- The words for a deformity. -/
def Deformity.message : Deformity → Text
  | .character c position =>
      Text.lit "invalid character: found `" ++ c :: Text.lit "` at " ++ Text.ofNat position
  | .length found => Text.lit "invalid length: found " ++ Text.ofNat found
  | .groups found =>
      Text.lit "invalid group count: expected 5, found " ++ Text.ofNat found
  | .group index expected found =>
      Text.lit "invalid group length in group " ++ Text.ofNat index ++ Text.lit ": expected " ++
        Text.ofNat expected ++ Text.lit ", found " ++ Text.ofNat found
  | .octets found => Text.lit "invalid length: expected 16 bytes, found " ++ Text.ofNat found

/-- The lengths of the groups. -/
def groupLengths : List Nat := [8, 4, 4, 4, 12]

/-- The parts of a text between dashes. -/
def groups : Text → List Text
  | [] => [[]]
  | c :: rest =>
      match groups rest with
      | first :: others => if c = 45 then [] :: first :: others else (c :: first) :: others
      | [] => [[c]]

/-- The text within braces, or behind `urn:uuid:`, and how many code points stand in front of it;
`none` where there are neither. -/
def wrapped? (t : Text) : Option (Text × Nat) :=
  let mark := Text.lit "urn:uuid:"
  if t.head? = some 123 && t.getLast? = some 125 && 2 ≤ t.length then
    some ((t.drop 1).dropLast, 1)
  else if mark.isPrefixOf t then some (t.drop mark.length, mark.length)
  else none

/-- The octets that a text takes in UTF-8. -/
def size (t : Text) : Nat := (Utf8.size? t).getD t.length

/-- The first character that is neither a hexadecimal digit nor a dash, by its octet from one on. -/
def strange? (start : Nat) : Text → Option Deformity
  | [] => none
  | c :: rest =>
      if c = 45 || (Text.hexValue? c).isSome then strange? (start + 1) rest
      else some (.character c (start + 1))

/-- The first group of the wrong length from some index on; of the last group, its end in the whole
text counts. -/
def wrongGroup (whole : Text) : Nat → List Nat → List Text → Deformity
  | index, expected :: lengths, group :: rest =>
      if lengths.isEmpty then .group index expected (size whole - 24)
      else if group.length ≠ expected then .group index expected group.length
      else wrongGroup whole (index + 1) lengths rest
  | index, _, _ => .group index 0 0

/-- What is wrong with a text that has no form. -/
def deformity (t : Text) : Deformity :=
  let (body, start) := (wrapped? t).getD (t, 0)
  let parts := groups body
  match strange? start body with
  | some found => found
  | none =>
      if parts.length = 1 && (wrapped? t).isNone then .length (size t)
      else if parts.length ≠ 5 then .groups parts.length
      else wrongGroup t 0 groupLengths parts

/-- The UUID that a text of one of the forms writes. -/
def ofForm (t : Text) : Except Deformity Uuid :=
  let (body, _) := (wrapped? t).getD (t, 0)
  let parts := groups body
  let fits := parts.map List.length == groupLengths ||
    (parts.map List.length == [32] && (wrapped? t).isNone)
  let value (digits : Text) : Option Nat :=
    if digits.all fun c => (Text.hexValue? c).isSome then hexadecimal? false 0 digits else none
  match if fits then value parts.flatten else none with
  | some n => .ok ⟨n⟩
  | none => .error (deformity t)

/-- The UUID that octets write as a text of one of the forms, or are themselves. -/
def ofOctets (octets : List Nat) : Except Deformity Uuid :=
  match (Utf8.decode octets).toOption.bind fun t => (ofForm t).toOption with
  | some u => .ok u
  | none =>
      if octets.length = 16 then .ok ⟨octets.foldl (fun n octet => n * 256 + octet) 0⟩
      else .error (.octets octets.length)

end JsonDecoding.Uuid
