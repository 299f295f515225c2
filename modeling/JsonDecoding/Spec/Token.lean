import JsonDecoding.Number.Binary64
import JsonDecoding.Spec.Operator
import JsonDecoding.Text.Names

/-!
# Tokens of annotations in writing

A text that names an annotation is read in two steps, the first of which cuts it into tokens: words,
numbers, quoted texts, operators and marks. Spaces keep tokens apart, and a comment runs from a
number sign to the end of its line.
-/

namespace JsonDecoding

/-- A token: a word, a number, a quoted text, three points, an operator, or a single mark. -/
inductive Token where
  | word (text : Text)
  | whole (value : Nat)
  | fraction (value : Binary64)
  | quoted (text : Text)
  | ellipsis
  | operator (operator : Operator)
  | comparison (comparison : Comparison)
  | complement
  | mark (c : CodePoint)
deriving DecidableEq

namespace Token

/-- What has been read of a token that is not complete, the last code point first; a comment is
nothing but skipped. -/
inductive Open where
  | nothing
  | comment
  | word (reversed : Text)
  | number (reversed : Text)
  | quoted (delimiter : CodePoint) (reversed : Text)

/-- Whether a code point can stand in a word or number; all those beyond ASCII can. -/
def isWordPart (c : CodePoint) : Bool := 128 ≤ c || Text.isNamePart c

/-- Whether a code point only keeps tokens apart. -/
def isGap (c : CodePoint) : Bool := c = 32 || c = 9 || c = 12

/-- Whether a code point ends a line. -/
def isLineEnd (c : CodePoint) : Bool := c = 10 || c = 13

/-- Whether a code point marks an exponent. -/
def isExponentMark (c : CodePoint) : Bool := c = 69 || c = 101

/-- The number that a text writes; a whole number has no leading zeros. -/
def ofNumber? (text : Text) : Option Token :=
  if text.all Text.isDigit then
    if text.head? ≠ some 48 || text.all (· = 48) then some (.whole (Text.digitsValue text))
    else none
  else (Decimal.unsigned? text).map fun (coefficient, exponent) =>
    .fraction (.ofDecimal ⟨false, coefficient, exponent⟩)

/-- The operator or comparison that two code points make together. -/
def ofPair? : CodePoint → CodePoint → Option Token
  | 42, 42 => some (.operator .power)
  | 47, 47 => some (.operator .quotient)
  | 60, 60 => some (.operator .shiftLeft)
  | 62, 62 => some (.operator .shiftRight)
  | 61, 61 => some (.comparison .equal)
  | 33, 61 => some (.comparison .unequal)
  | 60, 61 => some (.comparison .atMost)
  | 62, 61 => some (.comparison .atLeast)
  | _, _ => none

/-- The operator, comparison or mark that a code point is. The marks are brackets, commas, points,
equals signs and line ends. -/
def ofSingle? (c : CodePoint) : Option Token :=
  match c with
  | 124 => some (.operator .either)
  | 94 => some (.operator .differ)
  | 38 => some (.operator .both)
  | 43 => some (.operator .add)
  | 45 => some (.operator .subtract)
  | 42 => some (.operator .multiply)
  | 64 => some (.operator .matrixMultiply)
  | 47 => some (.operator .divide)
  | 37 => some (.operator .remainder)
  | 60 => some (.comparison .less)
  | 62 => some (.comparison .greater)
  | 126 => some .complement
  | c => if [40, 41, 91, 93, 44, 46, 61].contains c || isLineEnd c then some (.mark c) else none

namespace Open

/-- Whether what is open goes on with a code point: a word with parts of words, a number also with
one point, and with the sign of its exponent. -/
def takes (c : CodePoint) : Open → Bool
  | .word _ => isWordPart c
  | .number reversed =>
      isWordPart c || (c = 46 && !reversed.any fun d => d = 46 || isExponentMark d) ||
        ((c = 43 || c = 45) && reversed.head?.any isExponentMark)
  | _ => false

/-- What is open with one more code point. -/
def taking (c : CodePoint) : Open → Open
  | .word reversed => .word (c :: reversed)
  | .number reversed => .number (c :: reversed)
  | pending => pending

/-- The tokens of what is open where something else follows: at most one word or number. -/
def closed? : Open → Option (List Token)
  | .nothing => some []
  | .comment => some []
  | .word reversed =>
      if Text.isName reversed.reverse then some [.word reversed.reverse] else none
  | .number reversed => (ofNumber? reversed.reverse).map fun token => [token]
  | .quoted .. => none

end Open

/-- The tokens of a text behind what is open. -/
def tokensAfter : Open → Text → Option (List Token)
  | pending, [] => pending.closed?
  | .quoted delimiter reversed, c :: rest =>
      if c = delimiter then
        (tokensAfter .nothing rest).map fun tokens => .quoted reversed.reverse :: tokens
      else if c = 10 || c = 92 then none
      else tokensAfter (.quoted delimiter (c :: reversed)) rest
  | .comment, c :: rest =>
      if isLineEnd c then (tokensAfter .nothing rest).map fun tokens => .mark c :: tokens
      else tokensAfter .comment rest
  | pending, 46 :: 46 :: 46 :: rest => do
      return (← pending.closed?) ++ .ellipsis :: (← tokensAfter .nothing rest)
  | pending, c :: rest =>
      if pending.takes c then tokensAfter (pending.taking c) rest
      else do
        let before ← pending.closed?
        if isGap c then return before ++ (← tokensAfter .nothing rest)
        else if c = 34 || c = 39 then return before ++ (← tokensAfter (.quoted c []) rest)
        else if c = 35 then return before ++ (← tokensAfter .comment rest)
        else if Text.isDigit c || (c = 46 && rest.head?.any Text.isDigit) then
          return before ++ (← tokensAfter (.number [c]) rest)
        else if isWordPart c then return before ++ (← tokensAfter (.word [c]) rest)
        else
          match rest with
          | [] => return before ++ [← ofSingle? c]
          | d :: others =>
              match ofPair? c d with
              | some token => return before ++ token :: (← tokensAfter .nothing others)
              | none => return before ++ (← ofSingle? c) :: (← tokensAfter .nothing (d :: others))

/-- Whether a token ends a line. -/
def endsLine : Token → Bool
  | .mark c => isLineEnd c
  | _ => false

/-- The tokens without the line ends inside brackets, of which `depth` are open. -/
def unbroken : Nat → List Token → List Token
  | _, [] => []
  | depth, token :: rest =>
      if token.endsLine && depth ≠ 0 then unbroken depth rest
      else
        let depth := match token with
          | .mark 40 | .mark 91 => depth + 1
          | .mark 41 | .mark 93 => depth - 1
          | _ => depth
        token :: unbroken depth rest

/-- The tokens of a text. Its first line with tokens may not begin with a space or tab; line ends
count only between tokens outside of brackets. -/
def ofText? (t : Text) : Option (List Token) :=
  let body := t.dropWhile isLineEnd
  match body with
  | 32 :: _ => none
  | 9 :: _ => none
  | body => (tokensAfter .nothing body).map fun tokens =>
      let lines := (unbroken 0 tokens).dropWhile endsLine
      (lines.reverse.dropWhile endsLine).reverse

end Token

end JsonDecoding
