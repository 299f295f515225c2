import JsonDecoding.Models.Family
import JsonDecoding.Models.Flaw

/-!
# Completing model classes

The annotations of a model class are read when the class is made. A name without a meaning leaves
the class incomplete, which shows when it validates; anything else that is wrong with an annotation,
and a type that no model can hold, keeps the class from being made.
-/

namespace JsonDecoding

/-- What a model class cannot do with an annotation: a name has no meaning, or no model can hold the
type. -/
inductive Gap where
  | undefinedName (name : Text)
  | unknownType (hint : Spec)

/-- The complaint that no model can hold a type. -/
def Gap.complaint (help : Help) (hint : Spec) : Complaint :=
  ⟨.other (Text.lit "PydanticSchemaGenerationError"), Text.lit "Unable to generate pydantic-core schema for " ++ hint.shown ++
    Text.lit (". Set `arbitrary_types_allowed=True` in the model_config to ignore this error or " ++
      "implement `__get_pydantic_core_schema__` on your type to fully support it.\n\n" ++
      "If you got this error by calling handler(<some type>) within " ++
      "`__get_pydantic_core_schema__` then you likely need to call " ++
      "`handler.generate_schema(<some type>)` since we do not call " ++
      "`__get_pydantic_core_schema__` on `<some type>` otherwise to avoid infinite recursion." ++
      "\n\nFor further information visit ") ++
    help.ofUsage (Text.lit "schema-for-unknown-type")⟩

namespace Spec

/-- The gap that a class of a name leaves in a model: it has to be a record class, or a model class
that is complete. -/
def gapOfClass? (classes : List DeclaredClass) (name home : Text) (mark : Nat) : Option Gap :=
  match DeclaredClass.find? classes (.named name home mark) with
  | some (.record _) => none
  | some (.model definition) => definition.missing.map .undefinedName
  | none => some (.unknownType (.named name home mark))

/-- How many of its parameters a type looks at. -/
def parameterCount (head : Generic) (parameters : List Spec) : Nat :=
  match head, parameters with
  | .tuple, [_, .builtin .ellipsis] => 1
  | .tuple, parameters => parameters.length
  | .dict, _ => 2
  | .type, _ => 0
  | _, _ => 1

mutual

/-- The first gap that an annotation leaves in a model; texts in it are still to be read. -/
def gap? (classes : List DeclaredClass) : Spec → Option Gap
  | .builtin .ellipsis => some (.unknownType (.builtin .ellipsis))
  | .builtin (.plain type) => some (.unknownType (.builtin (.plain type)))
  | .builtin (.function name) => some (.unknownType (.builtin (.function name)))
  | .builtin _ => none
  | .token .null | .token (.str _) | .written _ => none
  | .named name home mark => gapOfClass? classes name home mark
  | .generic (.plain type) parameters => some (.unknownType (.generic (.plain type) parameters))
  | .generic head parameters =>
      firstGap? classes (parameterCount head parameters) parameters
  | .union _ members => firstGap? classes members.length members
  | hint => some (.unknownType hint)

/-- The first gap that some of the annotations in front leave in a model. -/
def firstGap? (classes : List DeclaredClass) : Nat → List Spec → Option Gap
  | count + 1, hint :: rest => (gap? classes hint).or (firstGap? classes count rest)
  | _, _ => none

end

end Spec

namespace DeclaredModel

/-- What the names in annotations of a class stand for: its own name for itself. -/
def scope (self : Spec) (c : DeclaredModel) : Scope :=
  Scope.before ⟨fun name => if name == c.name then some self else none, 0⟩ Scope.builtin

/-- An annotation with the texts in it read, and the name that has no meaning if it cannot be read;
then a text by itself stays in writing and the others stay as they are. -/
def readHint (scope : Scope) (hint : Spec) : Except Misuse (Spec × Option Text) :=
  match hint.resolved scope, hint with
  | .ok hint, _ => .ok (hint, none)
  | .error (.undefinedName name), .token (.str text) => .ok (.written text, some name)
  | .error (.undefinedName name), hint => .ok (hint, some name)
  | .error cause, _ => .error cause

/-- The field whose name cannot be a field of a model. -/
def flaw? (c : DeclaredModel) : Option ClassFlaw :=
  (c.fields.find? fun field => field.name.head? = some 95).map fun field => .hiddenName field.name

/-- The first gap in the annotations of a class, as they were given and as they were read; only the
texts in them can name the class itself. -/
def gap? (classes : List DeclaredClass) (c : DeclaredModel) (read : List Spec) : Option Gap :=
  ((c.fields.zip read).filterMap fun (field, hint) =>
    (Spec.gap? classes field.hint).or (Spec.gap? (.model c :: classes) hint)).head?

/-- The class, to be known as `self`, with the texts in its annotations read. Where all of them have
a meaning, the other classes say whether it is complete. -/
def completed (help : Help) (classes : List DeclaredClass) (self : Spec) (c : DeclaredModel) :
    Except Fault DeclaredModel :=
  match c.flaw? with
  | some flaw => .error flaw.fault
  | none =>
      ((c.fields.mapM fun field => readHint (c.scope self) field.hint).mapError Fault.misuse).bind
        fun read =>
          let made (missing : Option Text) : DeclaredModel :=
            { c with
              fields := c.fields.zipWith (fun field hint => { field with hint := hint.1 }) read
              missing := missing }
          match (read.filterMap Prod.snd).head?, c.gap? classes (read.map Prod.fst) with
          | some name, _ => .ok (made (some name))
          | none, none => .ok (made none)
          | none, some (.undefinedName name) => .ok (made (some name))
          | none, some (.unknownType hint) => .error (.complaint (Gap.complaint help hint))

end DeclaredModel

end JsonDecoding
