import JsonDecoding.Decoder

/-!
# Parsers

A parser reads input with a depth limit and decodes what it read with one registry. Failures of
the input are results; only faults in the use of the library are not.
-/

namespace JsonDecoding

/-- Why a parser gave no data. -/
inductive Failure where
  | invalid (error : SyntaxError)
  | mismatch (error : DecodeError)
  | faulted (fault : Fault)

/-- The failure of an input that was not read. -/
def Unreadable.failure : Unreadable → Failure
  | .invalid error => .invalid error
  | .unsupported data => .faulted (.unsupported data)
  | .keyNotString key => .faulted (.keyNotString key)

/-- What a parser gives: records in order, and data or a failure. -/
structure Parsing where
  log : List Log.Record
  result : Except Failure Data

/-- A registry with a depth limit for input. -/
structure Parser where
  registry : Registry
  maxDepth : Int
  room : Nat := Decoder.defaultRoom

namespace Parser

/-- A parser with the usual depth limit. -/
def ofRegistry (registry : Registry) : Parser :=
  ⟨registry, Reader.defaultMaxDepth, Decoder.defaultRoom⟩

/-- The form of a parser in reports. -/
def shown (p : Parser) : Text :=
  Data.built (Text.lit "JsonParser")
    (p.registry.shown ++ Text.lit ", max_depth=" ++ Text.ofInt p.maxDepth)

/-- A failure with its record, which names the specification and then the reason: a flaw of either is
a fault. -/
def told (spec : Spec) (reason : Option Spec.Flaw) (record : Log.Record) (failure : Failure) :
    Parsing :=
  match spec.flaw?.or reason with
  | some flaw => ⟨[], .error (.faulted (.ofFlaw flaw))⟩
  | none => ⟨[record], .error failure⟩

/-- What follows a decoding that stopped. A rule that runs out of room counts like a decoding that
does. -/
def conclude (p : Parser) (spec : Spec) (stop : Stop) : Parsing :=
  let tooDeep :=
    told spec none (.tooDeeplyNested spec.describe) (.invalid (.undecodableNesting p.maxDepth))
  match stop with
  | .failed e => told spec e.cause.flaw? (.notDecoded spec.describe e.path e.reason) (.mismatch e)
  | .exhausted => tooDeep
  | .faulted (.complaint complaint) =>
      if complaint.concern = .recursion then tooDeep
      else ⟨[], .error (.faulted (.complaint complaint))⟩
  | .faulted fault => ⟨[], .error (.faulted fault)⟩

/-- Decodes a value by the specification that an annotation stands for. -/
def decodeValue (p : Parser) (value : Json) (hint : Spec) : Parsing :=
  match Schema.specOf hint with
  | .error fault => ⟨[], .error (.faulted fault)⟩
  | .ok spec =>
      let attempt := Decoder.decode p.registry p.room spec value
      match attempt.result with
      | .ok data => ⟨attempt.log, .ok data⟩
      | .error stop =>
          let conclusion := p.conclude spec stop
          ⟨attempt.log ++ conclusion.log, conclusion.result⟩

/-- Reads an input and decodes it by the specification that an annotation stands for. -/
def decode (p : Parser) (input : Input) (hint : Spec) : Parsing :=
  let outcome := input.read p.maxDepth
  match outcome.result with
  | .error unreadable => ⟨outcome.log, .error unreadable.failure⟩
  | .ok value =>
      let parsing := p.decodeValue value hint
      ⟨outcome.log ++ parsing.log, parsing.result⟩

end Parser

end JsonDecoding
