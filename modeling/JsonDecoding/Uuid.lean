import JsonDecoding.Text.Classes
import JsonDecoding.Text.Quoted

/-!
# UUIDs

A UUID is a number of 128 bits, written with 32 hexadecimal digits in five groups. It is read from
any text that has 32 code points once its marks and dashes are removed, and that writes a number in
base sixteen.
-/

namespace JsonDecoding

/-- A universally unique identifier. -/
structure Uuid where
  value : Nat
deriving DecidableEq

namespace Uuid

/-- The five groups of lower-case digits, with dashes between them. -/
def toText (u : Uuid) : Text :=
  let shown := Text.hex 32 u.value
  let group (start length : Nat) : Text := (shown.drop start).take length
  Text.joined [45] [group 0 8, group 8 4, group 12 4, group 16 4, group 20 12]

/-- Why a text is no UUID. -/
inductive Rejection where
  | wrongLength
  | notHexadecimal (shown : Text)

/-- The words for a rejection; the numeral is shown up to two hundred code points. -/
def Rejection.message : Rejection → Text
  | .wrongLength => Text.lit "badly formed hexadecimal UUID string"
  | .notHexadecimal shown =>
      Text.lit "invalid literal for int() with base 16: " ++ (Text.quoted shown).take 200

/-- Without the marks `urn:` and `uuid:`, the braces around it, and all dashes. -/
def bare (t : Text) : Text :=
  let t := Text.remove (Text.lit "uuid:") (Text.remove (Text.lit "urn:") t)
  (Text.trim (fun c => c = 123 || c = 125) t).filter (· ≠ 45)

/-- A numeral in ASCII: digits of any script are replaced, and blanks beyond ASCII become spaces. A
numeral of ASCII alone stays as it is. -/
def numeral (t : Text) : Text :=
  if t.all (· < 128) then t
  else t.map fun c =>
    if c < 127 then c
    else if Text.isBlank c then 32
    else ((Text.decimalValue? c).map (48 + ·)).getD 63

/-- The value of hexadecimal digits with single underscores between them; `afterDigit` says whether
an underscore may come next. -/
def hexadecimal? : Bool → Nat → Text → Option Nat
  | afterDigit, n, [] => if afterDigit then some n else none
  | afterDigit, n, c :: rest =>
      if c = 95 then if afterDigit then hexadecimal? false n rest else none
      else (Text.hexValue? c).bind fun d => hexadecimal? true (16 * n + d) rest

/-- The digits behind the mark of the base, which one underscore may follow. -/
def withoutBase : Text → Text
  | 48 :: x :: rest =>
      if x = 120 || x = 88 then (match rest with | 95 :: rest => rest | _ => rest)
      else 48 :: x :: rest
  | t => t

/-- The number that a numeral in base sixteen writes, blanks around it and a sign allowed. -/
def number? (t : Text) : Option Nat :=
  let t := Text.trim Text.isAsciiBlank (numeral t)
  hexadecimal? false 0 (withoutBase (match t with | 43 :: rest => rest | _ => t))

/-- The UUID that a text writes. -/
def read (t : Text) : Except Rejection Uuid :=
  let shown := bare t
  if shown.length ≠ 32 then .error .wrongLength
  else match number? shown with
    | some n => .ok ⟨n⟩
    | none => .error (.notHexadecimal shown)

end Uuid

end JsonDecoding
