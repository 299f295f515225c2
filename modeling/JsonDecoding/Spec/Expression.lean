import JsonDecoding.Spec
import JsonDecoding.Spec.Token

/-!
# Annotations in writing

A text can name an annotation: names, constants and quoted texts are joined by bars, by other
operators, by comparisons and by words for logical connectives, take parameters in brackets and
arguments in parentheses, and stand in parentheses themselves; items with commas between them make a
tuple, or a list in brackets of their own. This is the grammar of such texts, read from their
tokens.
-/

namespace JsonDecoding

/-- What a text that names an annotation says. -/
inductive Expression where
  | name (name : Text)
  | truth (value : Bool)
  | nothing
  | ellipsis
  | whole (value : Nat)
  | fraction (value : Binary64)
  | quoted (text : Text)
  | sequence (form : SequenceForm) (items : List Expression)
  | applied (head parameters : Expression)
  | called (head : Expression) (arguments : List Expression)
  | attribute (owner : Expression) (name : Text)
  | signed (operator : SignOperator) (operand : Expression)
  | operated (operator : Operator) (left right : Expression)
  | compared (comparison : Comparison) (left right : Expression)
  | not (operand : Expression)
  | and (left right : Expression)
  | or (left right : Expression)
  | choice (condition yes no : Expression)

namespace Expression

/-! ## Words -/

/-- The words that are no names. -/
def keywords : List Text :=
  ["and", "as", "assert", "async", "await", "break", "class", "continue", "def", "del", "elif",
    "else", "except", "finally", "for", "from", "global", "if", "import", "in", "is", "lambda",
    "nonlocal", "not", "or", "pass", "raise", "return", "try", "while", "with",
    "yield"].map Text.lit

/-- Whether a word is no name, being a keyword or a constant. -/
def isReserved (text : Text) : Bool :=
  keywords.contains text || (["None", "True", "False"].map Text.lit).contains text

/-- The expression that a word is. -/
def ofName? (text : Text) : Option Expression :=
  if text == Text.lit "None" then some .nothing
  else if text == Text.lit "True" then some (.truth true)
  else if text == Text.lit "False" then some (.truth false)
  else if keywords.contains text then none
  else some (.name text)

/-! ## Expressions

A reading step gives what it read and the tokens that remain. -/

/-- Whether nothing or a closing bracket comes next. -/
def atEnd : List Token → Bool
  | [] => true
  | .mark c :: _ => c = 41 || c = 93
  | _ => false

/-- The tokens behind a word, if it comes next. -/
def behind? (word : String) : List Token → Option (List Token)
  | .word text :: rest => if text == Text.lit word then some rest else none
  | _ => none

/-- The comparison that comes next, and the tokens behind it. -/
def comparison? (tokens : List Token) : Option (Comparison × List Token) :=
  match tokens with
  | .comparison comparison :: rest => some (comparison, rest)
  | tokens =>
      match behind? "in" tokens, behind? "is" tokens,
        (behind? "not" tokens).bind (behind? "in") with
      | some rest, _, _ => some (.among, rest)
      | _, some rest, _ =>
          match behind? "not" rest with
          | some rest => some (.notIdentical, rest)
          | none => some (.identical, rest)
      | _, _, some rest => some (.notAmong, rest)
      | _, _, _ => none

/-- The operator in front of an operand that comes next, and the tokens behind it. -/
def signOperator? : List Token → Option (SignOperator × List Token)
  | .operator .add :: rest => some (.plus, rest)
  | .operator .subtract :: rest => some (.minus, rest)
  | .complement :: rest => some (.complement, rest)
  | _ => none

/-- The tokens behind the name that an argument is given under, if there is one. -/
def behindKeyword : List Token → List Token
  | .word _ :: .mark 61 :: rest => rest
  | tokens => tokens

mutual

/-- Reads a choice, or a tuple where a comma follows. -/
def readTuple : Nat → List Token → Option (Expression × List Token)
  | 0, _ => none
  | fuel + 1, tokens => do
      match ← readChoice fuel tokens with
      | (first, .mark 44 :: rest) =>
          let (others, rest) ← readItems fuel rest
          return (.sequence .tuple (first :: others), rest)
      | (only, rest) => return (only, rest)

/-- Reads the items behind a comma, up to the end or a closing bracket. -/
def readItems : Nat → List Token → Option (List Expression × List Token)
  | 0, _ => none
  | fuel + 1, tokens =>
      if atEnd tokens then some ([], tokens)
      else do
        match ← readChoice fuel tokens with
        | (item, .mark 44 :: rest) =>
            let (others, rest) ← readItems fuel rest
            return (item :: others, rest)
        | (item, rest) => return ([item], rest)

/-- Reads arguments, up to the end or a closing bracket; they may have names. -/
def readArguments : Nat → List Token → Option (List Expression × List Token)
  | 0, _ => none
  | fuel + 1, tokens =>
      if atEnd tokens then some ([], tokens)
      else do
        match ← readChoice fuel (behindKeyword tokens) with
        | (argument, .mark 44 :: rest) =>
            let (others, rest) ← readArguments fuel rest
            return (argument :: others, rest)
        | (argument, rest) => return ([argument], rest)

/-- Reads an alternative, or a choice where a condition follows. -/
def readChoice : Nat → List Token → Option (Expression × List Token)
  | 0, _ => none
  | fuel + 1, tokens => do
      let (first, rest) ← readOr fuel tokens
      match behind? "if" rest with
      | none => return (first, rest)
      | some rest =>
          let (condition, rest) ← readOr fuel rest
          let (other, rest) ← readChoice fuel (← behind? "else" rest)
          return (.choice condition first other, rest)

/-- Reads what the word for an alternative joins. -/
def readOr : Nat → List Token → Option (Expression × List Token)
  | 0, _ => none
  | fuel + 1, tokens => do
      let (first, rest) ← readAnd fuel tokens
      match behind? "or" rest with
      | none => return (first, rest)
      | some rest => return (← readOr fuel rest).map (Expression.or first) id

/-- Reads what the word for a conjunction joins. -/
def readAnd : Nat → List Token → Option (Expression × List Token)
  | 0, _ => none
  | fuel + 1, tokens => do
      let (first, rest) ← readNot fuel tokens
      match behind? "and" rest with
      | none => return (first, rest)
      | some rest => return (← readAnd fuel rest).map (Expression.and first) id

/-- Reads comparisons, or the negation of some. -/
def readNot : Nat → List Token → Option (Expression × List Token)
  | 0, _ => none
  | fuel + 1, tokens =>
      match behind? "not" tokens with
      | some rest => (readNot fuel rest).map fun read => read.map Expression.not id
      | none => do
          let (first, rest) ← readOperation fuel 0 tokens
          readComparisons fuel first rest

/-- Reads what comparisons join to an expression; of several in a row all have to hold. -/
def readComparisons : Nat → Expression → List Token → Option (Expression × List Token)
  | 0, _, _ => none
  | fuel + 1, left, tokens =>
      match comparison? tokens with
      | none => some (left, tokens)
      | some (comparison, rest) => do
          let (right, rest) ← readOperation fuel 0 rest
          let first := Expression.compared comparison left right
          match comparison? rest with
          | none => return (first, rest)
          | some _ => return (← readComparisons fuel right rest).map (Expression.and first) id

/-- Reads a signed operand and the operators behind it that bind at least so tightly. -/
def readOperation : Nat → Nat → List Token → Option (Expression × List Token)
  | 0, _, _ => none
  | fuel + 1, least, tokens => do
      let (first, rest) ← readSigned fuel tokens
      readOperators fuel least first rest

/-- Reads what operators that bind at least so tightly join to an expression. -/
def readOperators : Nat → Nat → Expression → List Token → Option (Expression × List Token)
  | 0, _, _, _ => none
  | fuel + 1, least, left, .operator operator :: rest =>
      if operator.tightness < least then some (left, .operator operator :: rest)
      else do
        let (right, rest) ← readOperation fuel (operator.tightness + 1) rest
        readOperators fuel least (.operated operator left right) rest
  | _ + 1, _, left, tokens => some (left, tokens)

/-- Reads a part with the operators in front of it; a power binds more tightly than they do. -/
def readSigned : Nat → List Token → Option (Expression × List Token)
  | 0, _ => none
  | fuel + 1, tokens =>
      match signOperator? tokens with
      | some (operator, rest) =>
          (readSigned fuel rest).map fun read => read.map (.signed operator) id
      | none => do
          match ← readPart fuel tokens with
          | (base, .operator .power :: rest) =>
              return (← readSigned fuel rest).map (.operated .power base) id
          | read => return read

/-- Reads a constant, a name, a quoted text or something in parentheses, with its parameters,
arguments and attributes. -/
def readPart : Nat → List Token → Option (Expression × List Token)
  | 0, _ => none
  | fuel + 1, tokens =>
      match tokens with
      | .word text :: rest => (ofName? text).bind fun head => readParameters fuel head rest
      | .whole value :: rest => readParameters fuel (.whole value) rest
      | .fraction value :: rest => readParameters fuel (.fraction value) rest
      | .ellipsis :: rest => readParameters fuel .ellipsis rest
      | .quoted first :: .quoted second :: rest =>
          readPart fuel (.quoted (first ++ second) :: rest)
      | .quoted text :: rest => readParameters fuel (.quoted text) rest
      | .mark 40 :: .mark 41 :: rest => readParameters fuel (.sequence .tuple []) rest
      | .mark 40 :: rest => do
          match ← readTuple fuel rest with
          | (inner, .mark 41 :: rest) => readParameters fuel inner rest
          | _ => none
      | .mark 91 :: rest => do
          match ← readItems fuel rest with
          | (items, .mark 93 :: rest) => readParameters fuel (.sequence .list items) rest
          | _ => none
      | _ => none

/-- Reads the parameters, arguments and attributes of an expression. -/
def readParameters : Nat → Expression → List Token → Option (Expression × List Token)
  | 0, _, _ => none
  | fuel + 1, head, .mark 91 :: rest => do
      match ← readTuple fuel rest with
      | (parameters, .mark 93 :: rest) => readParameters fuel (.applied head parameters) rest
      | _ => none
  | fuel + 1, head, .mark 40 :: rest => do
      match ← readArguments fuel rest with
      | (arguments, .mark 41 :: rest) => readParameters fuel (.called head arguments) rest
      | _ => none
  | fuel + 1, head, .mark 46 :: .word text :: rest =>
      if isReserved text then none else readParameters fuel (.attribute head text) rest
  | _ + 1, head, tokens => some (head, tokens)

end

/-- Steps that suffice to read some tokens: no more than twelve begin before the next token. -/
def steps (tokens : List Token) : Nat := 12 * (tokens.length + 1)

/-- The expression that a text is. -/
def parse? (t : Text) : Option Expression := do
  let tokens ← Token.ofText? t
  match ← readTuple (steps tokens) tokens with
  | (expression, []) => some expression
  | _ => none

end Expression

end JsonDecoding
