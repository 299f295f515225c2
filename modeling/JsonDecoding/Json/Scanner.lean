import JsonDecoding.Json

/-!
# Scanning JSON text

Reading a JSON text into a value. Every function takes the text from where it stands and gives
what it read with the text that remains, so a fault is placed by how much remained. Blanks are
spaces, tabs and line ends; of equal keys in one object the last value counts, at the place of the
first.
-/

namespace JsonDecoding.Scanner

/-- What is wrong with a text that is no JSON. -/
inductive Problem where
  | byteOrderMark
  | extraData
  | value
  | comma
  | colon
  | key
  | unterminatedString
  | controlCharacter
  | escape
  | unicodeEscape
deriving DecidableEq

/-- Why scanning stopped: the text is malformed where `remaining` code points were left; a number is
named that JSON does not know; a whole number has too many digits; or too many brackets are open. -/
inductive Fault where
  | malformed (problem : Problem) (remaining : Nat)
  | constant (name : Text)
  | digitLimit (digits : Nat)
  | nesting

/-- What a scanning step gives: what it read and the text that remains. -/
abbrev Step (α : Type) := Except Fault (α × Text)

/-- A blank between the parts of a text. -/
def isSpace (c : CodePoint) : Bool := c = 32 || c = 9 || c = 10 || c = 13

/-- The text behind the blanks. -/
def skip (t : Text) : Text := t.dropWhile isSpace

/-! ## Strings -/

/-- A code point of a string: written as it is, or by an escape. Only halves of a surrogate pair
that are both escaped belong together. -/
inductive Piece where
  | plain (c : CodePoint)
  | escaped (c : CodePoint)

/-- The code point that a letter after the backslash stands for. -/
def simpleEscape? (c : CodePoint) : Option CodePoint :=
  [(34, 34), (92, 92), (47, 47), (98, 8), (102, 12), (110, 10), (114, 13), (116, 9)].lookup c

/-- The code point that four hexadecimal digits name. -/
def hex4? (a b c d : CodePoint) : Option CodePoint := do
  let a ← Text.hexValue? a
  let b ← Text.hexValue? b
  let c ← Text.hexValue? c
  let d ← Text.hexValue? d
  return ((a * 16 + b) * 16 + c) * 16 + d

/-- Puts a piece in front of the pieces that a step gives. -/
def Piece.before (piece : Piece) (step : Step (List Piece)) : Step (List Piece) :=
  step.map fun read => (piece :: read.1, read.2)

/-- The pieces up to the closing quote; `opening` code points remained at the opening one. An
escape by number is taken only if the text goes on behind it. -/
def pieces (opening : Nat) : Text → Step (List Piece)
  | [] => .error (.malformed .unterminatedString opening)
  | c :: rest =>
      if c = 34 then .ok ([], rest)
      else if c = 92 then
        match rest with
        | [] => .error (.malformed .unterminatedString opening)
        | e :: rest =>
            if e = 117 then
              match rest with
              | h1 :: h2 :: h3 :: h4 :: after =>
                  match hex4? h1 h2 h3 h4, after.isEmpty with
                  | some point, false => (Piece.escaped point).before (pieces opening after)
                  | _, _ => .error (.malformed .unicodeEscape (after.length + 5))
              | short => .error (.malformed .unicodeEscape (short.length + 1))
            else
              match simpleEscape? e with
              | some point => (Piece.plain point).before (pieces opening rest)
              | none => .error (.malformed .escape (rest.length + 2))
      else if c < 32 then .error (.malformed .controlCharacter (rest.length + 1))
      else (Piece.plain c).before (pieces opening rest)

/-- The text of pieces: an escaped high surrogate and the escaped low one behind it are one code
point. -/
def joinPieces : List Piece → Text
  | [] => []
  | .plain c :: rest => c :: joinPieces rest
  | .escaped high :: .escaped low :: rest =>
      if Text.isHighSurrogate high && Text.isLowSurrogate low then
        Text.joinSurrogates high low :: joinPieces rest
      else high :: joinPieces (.escaped low :: rest)
  | .escaped c :: rest => c :: joinPieces rest

/-- The string whose opening quote has been passed. -/
def quotedText (t : Text) : Step Text :=
  (pieces (t.length + 1) t).map fun read => (joinPieces read.1, read.2)

/-! ## Numbers -/

/-- The parts of a written number. -/
structure Numeral where
  negative : Bool
  whole : Text
  fraction : Option Text
  exponent : Option (Bool × Text)

/-- Splits a minus sign from the front. -/
def splitMinus : Text → Bool × Text
  | 45 :: rest => (true, rest)
  | t => (false, t)

/-- The digits before the point: a zero alone, or digits that do not begin with one. -/
def wholeDigits : Text → Text × Text
  | 48 :: rest => ([48], rest)
  | t => (t.takeWhile Text.isDigit, t.dropWhile Text.isDigit)

/-- The digits after a point, where there are any. -/
def fractionDigits (t : Text) : Option Text × Text :=
  match t with
  | 46 :: rest =>
      if (rest.takeWhile Text.isDigit).isEmpty then (none, t)
      else (some (rest.takeWhile Text.isDigit), rest.dropWhile Text.isDigit)
  | _ => (none, t)

/-- The sign and the digits of an exponent, where there are any. -/
def exponentDigits (t : Text) : Option (Bool × Text) × Text :=
  match t with
  | [] => (none, t)
  | c :: rest =>
      if c = 69 || c = 101 then
        let (negative, shown) := Decimal.splitSign rest
        if (shown.takeWhile Text.isDigit).isEmpty then (none, t)
        else (some (negative, shown.takeWhile Text.isDigit), shown.dropWhile Text.isDigit)
      else (none, t)

/-- The longest numeral at the front of a text. -/
def numeral? (t : Text) : Option (Numeral × Text) :=
  let (negative, t) := splitMinus t
  let (whole, t) := wholeDigits t
  if whole.isEmpty then none
  else
    let (fraction, t) := fractionDigits t
    let (exponent, t) := exponentDigits t
    some (⟨negative, whole, fraction, exponent⟩, t)

namespace Numeral

/-- An exponent as a number. -/
def exponentValue (n : Numeral) : Int :=
  match n.exponent with
  | none => 0
  | some (true, shown) => -(Text.digitsValue shown : Int)
  | some (false, shown) => Text.digitsValue shown

/-- The decimal that a numeral writes. -/
def toDecimal (n : Numeral) : Decimal :=
  let fraction := n.fraction.getD []
  ⟨n.negative, Text.digitsValue (n.whole ++ fraction), n.exponentValue - (fraction.length : Int)⟩

/-- The integer that the whole part writes. -/
def toInt (n : Numeral) : Int :=
  if n.negative then -(Text.digitsValue n.whole : Int) else Text.digitsValue n.whole

/-- The number that a numeral writes: an integer unless it has a fraction or an exponent. -/
def toNumber (n : Numeral) : Except Fault Number :=
  if n.fraction.isNone && n.exponent.isNone then
    if Text.digitLimit < n.whole.length then .error (.digitLimit n.whole.length)
    else .ok (.int n.toInt)
  else .ok (.float (.ofDecimal n.toDecimal))

end Numeral

/-! ## Values -/

/-- The words that are values, and those that name a number which JSON does not know. -/
def words : List (Text × Except Text Json) :=
  [(Text.lit "null", .ok .null), (Text.lit "true", .ok (.boolean true)),
    (Text.lit "false", .ok (.boolean false)), (Text.lit "NaN", .error (Text.lit "NaN")),
    (Text.lit "Infinity", .error (Text.lit "Infinity")),
    (Text.lit "-Infinity", .error (Text.lit "-Infinity"))]

/-- A value that is neither a string nor a container. -/
def plain (t : Text) : Step Json :=
  match words.find? fun word => word.1.isPrefixOf t with
  | some (word, .ok value) => .ok (value, t.drop word.length)
  | some (_, .error name) => .error (.constant name)
  | none =>
      match numeral? t with
      | some (n, rest) => n.toNumber.map fun number => (.number number, rest)
      | none => .error (.malformed .value t.length)

/-- The items of an array up to its closing bracket, each read by `inner`. -/
def elements (inner : Text → Step Json) : Nat → Text → Step (List Json)
  | 0, t => .error (.malformed .value t.length)
  | fuel + 1, t =>
      (inner t).bind fun (item, rest) =>
        match skip rest with
        | 93 :: rest => .ok ([item], rest)
        | 44 :: rest => (elements inner fuel (skip rest)).map fun read => (item :: read.1, read.2)
        | rest => .error (.malformed .comma rest.length)

/-- A key with its colon. -/
def key (t : Text) : Step Text :=
  match t with
  | 34 :: rest =>
      (quotedText rest).bind fun (name, rest) =>
        match skip rest with
        | 58 :: rest => .ok (name, skip rest)
        | rest => .error (.malformed .colon rest.length)
  | t => .error (.malformed .key t.length)

/-- The fields of an object up to its closing brace, each value read by `inner`. -/
def members (inner : Text → Step Json) : Nat → Text → Step (List (Text × Json))
  | 0, t => .error (.malformed .key t.length)
  | fuel + 1, t =>
      (key t).bind fun (name, rest) =>
        (inner rest).bind fun (value, rest) =>
          match skip rest with
          | 125 :: rest => .ok ([(name, value)], rest)
          | 44 :: rest =>
              (members inner fuel (skip rest)).map fun read => ((name, value) :: read.1, read.2)
          | rest => .error (.malformed .comma rest.length)

/-- The array whose opening bracket has been passed. -/
def array (inner : Text → Step Json) (fuel : Nat) (t : Text) : Step Json :=
  match skip t with
  | 93 :: rest => .ok (.array [], rest)
  | t => (elements inner fuel t).map fun read => (.array read.1, read.2)

/-- The object whose opening brace has been passed. -/
def object (inner : Text → Step Json) (fuel : Nat) (t : Text) : Step Json :=
  match skip t with
  | 125 :: rest => .ok (.object [], rest)
  | t => (members inner fuel t).map fun read => (.object (Assoc.ofPairs read.1), read.2)

/-- A value whose containers read what they hold by `inner`; without it no bracket may be opened. -/
def node (fuel : Nat) (inner? : Option (Text → Step Json)) (t : Text) : Step Json :=
  match t with
  | 34 :: rest => (quotedText rest).map fun read => (.string read.1, read.2)
  | 91 :: rest =>
      match inner? with
      | some inner => array inner fuel rest
      | none => .error .nesting
  | 123 :: rest =>
      match inner? with
      | some inner => object inner fuel rest
      | none => .error .nesting
  | t => plain t

/-- A value in which at most `room` brackets are open at once; `fuel` bounds the length of its
containers. -/
def value (fuel : Nat) : Nat → Text → Step Json
  | 0, t => node fuel none t
  | room + 1, t => node fuel (some fun t => value fuel room t) t

/-- The most brackets that may be open at once. -/
def nestingLimit : Nat := 1000

/-- The value that a whole text writes. No container holds more parts than the text has code
points, so the length of the text is fuel enough. -/
def document (t : Text) : Except Fault Json :=
  if t.head? = some 0xFEFF then .error (.malformed .byteOrderMark t.length)
  else
    (value (t.length + 1) nestingLimit (skip t)).bind fun (value, rest) =>
      match skip rest with
      | [] => .ok value
      | rest => .error (.malformed .extraData rest.length)

end JsonDecoding.Scanner
