import JsonDecoding.Data.Shown
import JsonDecoding.Json.Scanner
import JsonDecoding.Text.Utf8

/-!
# Input that is not read

Why input is no JSON value at all, or one that nests too deeply. `report` gives the words and,
where the text is malformed, the place.
-/

namespace JsonDecoding

/-- The words for what is wrong with a text. -/
def Scanner.Problem.message : Scanner.Problem → Text
  | .byteOrderMark => Text.lit "Unexpected UTF-8 BOM (decode using utf-8-sig)"
  | .extraData => Text.lit "Extra data"
  | .value => Text.lit "Expecting value"
  | .comma => Text.lit "Expecting ',' delimiter"
  | .colon => Text.lit "Expecting ':' delimiter"
  | .key => Text.lit "Expecting property name enclosed in double quotes"
  | .unterminatedString => Text.lit "Unterminated string starting at"
  | .controlCharacter => Text.lit "Invalid control character at"
  | .escape => Text.lit "Invalid \\escape"
  | .unicodeEscape => Text.lit "Invalid \\uXXXX escape"

/-- A place in a text: how many code points precede it, and its line and column, counted from one.
-/
structure Position where
  offset : Nat
  line : Nat
  column : Nat
deriving DecidableEq

/-- The place after `offset` code points of a text. -/
def Position.within (t : Text) (offset : Nat) : Position :=
  let before := t.take offset
  ⟨offset, before.count 10 + 1, (before.reverse.takeWhile (· ≠ 10)).length + 1⟩

/-- What is told about a failed reading; parts that are not known are left out. -/
structure SyntaxReport where
  message : Text
  offset : Option Int
  line : Option Int
  column : Option Int
deriving DecidableEq

/-- A known number, or the word for an unknown one. -/
def SyntaxReport.part (n : Option Int) : Text :=
  match n with
  | some n => Text.ofInt n
  | none => Data.null.shown

/-- The whole report: the message, and the place where the line is known. -/
def SyntaxReport.text (r : SyntaxReport) : Text :=
  match r.line with
  | none => r.message
  | some line =>
      r.message ++ Text.lit ": line " ++ Text.ofInt line ++ Text.lit " column " ++
        SyntaxReport.part r.column ++ Text.lit " (char " ++ SyntaxReport.part r.offset ++
        Text.lit ")"

/-- Why input was not read, or nests too deeply to be decoded. -/
inductive SyntaxError where
  | malformed (problem : Scanner.Problem) (position : Position)
  | constant (name : Text)
  | digitLimit (digits : Nat)
  | invalidUtf8 (fault : Utf8.Fault)
  | nesting (limit : Int)
  | unreadableNesting (limit : Int)
  | undecodableNesting (limit : Int)

namespace SyntaxError

/-- The words for an error, without a place. -/
def message : SyntaxError → Text
  | .malformed problem _ => problem.message
  | .constant name => Text.lit "Non-standard constant " ++ name ++ Text.lit " is not valid JSON"
  | .digitLimit digits =>
      Text.lit "Exceeds the limit (" ++ Text.ofNat Text.digitLimit ++
        Text.lit " digits) for integer string conversion: value has " ++ Text.ofNat digits ++
        Text.lit " digits; use sys.set_int_max_str_digits() to increase the limit"
  | .invalidUtf8 fault => Text.lit "Invalid UTF-8 encoding: " ++ fault.message
  | .nesting limit =>
      Text.lit "Maximum nesting depth (" ++ Text.ofInt limit ++ Text.lit ") exceeded"
  | .unreadableNesting limit =>
      Text.lit "Input nests too deeply to read (max_depth is " ++ Text.ofInt limit ++ Text.lit ")"
  | .undecodableNesting limit =>
      Text.lit "Input nests too deeply to decode (max_depth is " ++ Text.ofInt limit ++ Text.lit ")"

/-- What is told about an error: only a malformed text has a place. -/
def report : SyntaxError → SyntaxReport
  | .malformed problem position =>
      ⟨problem.message, some position.offset, some position.line, some position.column⟩
  | e => ⟨e.message, none, none, none⟩

/-- The error that a scanning fault in the text `t` amounts to, for a reader with a depth limit. -/
def ofFault (t : Text) (limit : Int) : Scanner.Fault → SyntaxError
  | .malformed problem remaining => .malformed problem (Position.within t (t.length - remaining))
  | .constant name => .constant name
  | .digitLimit digits => .digitLimit digits
  | .nesting => .nesting limit

end SyntaxError

end JsonDecoding
