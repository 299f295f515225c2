/-!
# Text

A text is a list of code points. Surrogates may stand alone in it, so it is not a `String`: decoded
input and the reports about it are built from texts, and literals enter through `lit`.
-/

namespace JsonDecoding

/-- A code point; surrogates count as code points. -/
abbrev CodePoint := Nat

/-- A sequence of code points. -/
abbrev Text := List CodePoint

namespace Text

/-- The text that a literal spells. -/
def lit (s : String) : Text := s.toList.map Char.toNat

/-- The texts in order, with `separator` between neighbours. -/
def joined (separator : Text) : List Text → Text
  | [] => []
  | [t] => t
  | t :: u :: rest => t ++ separator ++ joined separator (u :: rest)

/-- The most code points that a clipped text keeps. -/
def clipLimit : Nat := 200

/-- A text of at most `clipLimit` code points: a longer one loses its end to three dots. -/
def clip (t : Text) : Text :=
  if t.length ≤ clipLimit then t else t.take (clipLimit - 3) ++ lit "..."

theorem length_clip_le (t : Text) : (clip t).length ≤ clipLimit := by
  unfold clip
  split
  · assumption
  · have h : (lit "...").length = 3 := rfl
    rw [List.length_append, List.length_take, h]
    unfold clipLimit
    omega

/-- A name between apostrophes, of which reports show no more than `limit` code points. -/
def shownName (limit : Nat) (name : Text) : Text := 39 :: name.take limit ++ [39]

/-! ## Digits -/

/-- An ASCII decimal digit. -/
def isDigit (c : CodePoint) : Bool := 48 ≤ c && c ≤ 57

/-- Whether a code point lies in one of some runs, each given as its first and last. -/
def inRuns (runs : List (CodePoint × CodePoint)) (c : CodePoint) : Bool :=
  runs.any fun run => run.1 ≤ c && c ≤ run.2

/-- The number that a run of ASCII digits writes. -/
def digitsValue (t : Text) : Nat := t.foldl (fun n c => 10 * n + (c - 48)) 0

/-- The decimal digits of a number, without leading zeros. -/
def ofNat (n : Nat) : Text := (Nat.toDigits 10 n).map Char.toNat

/-- The decimal digits of an integer, after a minus sign when it is negative. -/
def ofInt : Int → Text
  | .ofNat n => ofNat n
  | .negSucc n => 45 :: ofNat (n + 1)

/-- The most decimal digits that a whole number may have where it is read or written. -/
def digitLimit : Nat := 4300

/-- Whether an integer has more digits than may be written. -/
def isOverlong (i : Int) : Bool := digitLimit < (ofNat i.natAbs).length

/-- The lower-case hexadecimal digit of a number below sixteen. -/
def hexDigit (n : Nat) : CodePoint := if n < 10 then 48 + n else 87 + n

/-- The last `width` hexadecimal digits of a number. -/
def hex : Nat → Nat → Text
  | 0, _ => []
  | width + 1, n => hex width (n / 16) ++ [hexDigit (n % 16)]

/-- The value of a hexadecimal digit of either case. -/
def hexValue? (c : CodePoint) : Option Nat :=
  if isDigit c then some (c - 48)
  else if 97 ≤ c && c ≤ 102 then some (c - 87)
  else if 65 ≤ c && c ≤ 70 then some (c - 55)
  else none

/-- The last `width` decimal digits of a number. -/
def padded : Nat → Nat → Text
  | 0, _ => []
  | width + 1, n => padded width (n / 10) ++ [48 + n % 10]

/-! ## Surrogates -/

/-- A code point that opens a surrogate pair. -/
def isHighSurrogate (c : CodePoint) : Bool := 0xD800 ≤ c && c ≤ 0xDBFF

/-- A code point that closes a surrogate pair. -/
def isLowSurrogate (c : CodePoint) : Bool := 0xDC00 ≤ c && c ≤ 0xDFFF

/-- A code point that is no character on its own. -/
def isSurrogate (c : CodePoint) : Bool := isHighSurrogate c || isLowSurrogate c

/-- The code point that a surrogate pair stands for. -/
def joinSurrogates (high low : CodePoint) : CodePoint :=
  0x10000 + (high - 0xD800) * 0x400 + (low - 0xDC00)

/-! ## Trimming and cutting -/

/-- Drops the code points in `drop` from both ends. -/
def trim (drop : CodePoint → Bool) (t : Text) : Text :=
  ((t.dropWhile drop).reverse.dropWhile drop).reverse

/-- Removes every occurrence of `word`, scanning from the left without overlaps; `skip` code points
of an occurrence are still to be passed over. -/
def removeFrom (word : Text) : Nat → Text → Text
  | _, [] => []
  | skip + 1, _ :: rest => removeFrom word skip rest
  | 0, c :: rest =>
      if word.isPrefixOf (c :: rest) then removeFrom word (word.length - 1) rest
      else c :: removeFrom word 0 rest

/-- Removes every occurrence of a word, scanning from the left without overlaps. -/
def remove (word t : Text) : Text := removeFrom word 0 t

end Text

end JsonDecoding
