import JsonDecoding.Spec.Operation
import JsonDecoding.Spec.Scope

/-!
# The meaning of annotations in writing

A text that names an annotation is read when the fields of a class are inspected. A scope says what
its names stand for; quoted texts inside are read in turn. The texts among the parameters and
members of an annotation are read as well, and unions are joined again from what they mean.
-/

namespace JsonDecoding

/-- The type that a builtin type with parameters is. -/
def Builtin.generic? : Builtin → Option Generic
  | .list => some .list
  | .dict => some .dict
  | .set => some .set
  | .frozenset => some .frozenset
  | .tuple => some .tuple
  | .metaclass => some .type
  | .plain type => if type.takesParameters then some (.plain type) else none
  | _ => none

namespace Expression

/-- The annotation that a name stands for. -/
def named (scope : Scope) (name : Text) : Except Misuse Spec :=
  match scope.find? name with
  | some hint => .ok hint
  | none => .error (.undefinedName name)

/-- The plain data that annotations are, if all are data. -/
def dataAll? : List Spec → Option (List Data)
  | [] => some []
  | .token value :: rest => (dataAll? rest).map fun others => value :: others
  | _ => none

/-- Annotations as a sequence; a sequence of data is plain data itself. -/
def sequenceOf (form : SequenceForm) (items : List Spec) : Spec :=
  match dataAll? items, form with
  | some values, .tuple => .token (.tuple values)
  | some values, .list => .token (.list values)
  | none, form => .several form items

/-- The parameters that something stands for in brackets: a tuple is opened. -/
def parameters : Spec → List Spec
  | .several .tuple items => items
  | .token (.tuple values) => values.map .token
  | hint => [hint]

/-- Whether something counts as true; all that is no data does. -/
def isTruthy : Spec → Bool
  | .token value => value.isTruthy
  | _ => true

/-- Something with parameters in brackets. -/
def apply (head : Spec) (parameters : List Spec) : Except Misuse Spec :=
  match head with
  | .builtin .ellipsis | .builtin (.function _) => .error (.withoutParts head.kindName)
  | .builtin type =>
      match type.generic? with
      | some generic => .ok (.generic generic parameters)
      | none => .error (.withoutParameters (type.typeName?.getD []))
  | .generic generic given => .error (.alreadyComplete (.generic generic given))
  | .union form members => .error (.alreadyComplete (.union form members))
  | head => .error (.withoutParts head.kindName)

mutual

/-- What an expression stands for. Its parts are looked at from left to right, and only those that
matter. -/
def meaning (scope : Scope) : Expression → Except Misuse Spec
  | .name text => named scope text
  | .truth value => .ok (.token (.bool value))
  | .nothing => .ok (.token .null)
  | .ellipsis => .ok (.builtin .ellipsis)
  | .whole value => .ok (.token (.int value))
  | .fraction value => .ok (.token (.float value))
  | .quoted text => .ok (.token (.str text))
  | .sequence form items => (meanings scope items).map (sequenceOf form)
  | .applied head inner =>
      (meaning scope head).bind fun head =>
        (meaning scope inner).bind fun inner => apply head (parameters inner)
  | .called head arguments =>
      (meaning scope head).bind fun head =>
        (meanings scope arguments).bind fun arguments => head.called arguments
  | .attribute owner text =>
      (meaning scope owner).bind fun owner => .error (.undefinedAttribute owner.ownerName text)
  | .signed operator operand =>
      (meaning scope operand).bind fun operand => operand.signed operator
  | .operated operator left right =>
      (meaning scope left).bind fun left =>
        (meaning scope right).bind fun right => left.operated operator right
  | .compared comparison left right =>
      (meaning scope left).bind fun left =>
        (meaning scope right).bind fun right =>
          (left.compared comparison right).map fun holds => .token (.bool holds)
  | .not operand => (meaning scope operand).map fun hint => .token (.bool !isTruthy hint)
  | .and left right =>
      (meaning scope left).bind fun hint =>
        if isTruthy hint then meaning scope right else .ok hint
  | .or left right =>
      (meaning scope left).bind fun hint =>
        if isTruthy hint then .ok hint else meaning scope right
  | .choice condition yes no =>
      (meaning scope condition).bind fun hint =>
        if isTruthy hint then meaning scope yes else meaning scope no

/-- What expressions stand for, in order. -/
def meanings (scope : Scope) : List Expression → Except Misuse (List Spec)
  | [] => .ok []
  | expression :: rest =>
      (meaning scope expression).bind fun first =>
        (meanings scope rest).map fun others => first :: others

end

end Expression

namespace Spec

/-- Refuses a text that is no expression; all else passes. -/
def checkText : Spec → Except Misuse Unit
  | .token (.str text) => (ofText text).map fun _ => ()
  | _ => .ok ()

mutual

/-- The annotation with every text in it replaced by what it is read as. The texts among parameters
have to be expressions before the first of them is read. -/
def reading (read : Text → Except Misuse Spec) : Spec → Except Misuse Spec
  | .token (.str text) => read text
  | .written text => read text
  | .generic head parameters =>
      (parameters.forM checkText).bind fun _ =>
        (readingEach read parameters).map fun parameters => .generic head parameters
  | .union .brackets members => (readingEach read members).bind fun members =>
      bracketed .union members
  | .union .bars members => (readingEach read members).bind fun members => barred members
  | hint => .ok hint

/-- The annotations in order, every text in them read. -/
def readingEach (read : Text → Except Misuse Spec) : List Spec → Except Misuse (List Spec)
  | [] => .ok []
  | hint :: rest =>
      (reading read hint).bind fun hint => (readingEach read rest).map fun others => hint :: others

end

/-- The annotation that a text names, with up to `levels` texts inside one another. One that stands
inside itself, being among the `outer` texts, stays in writing. -/
def read (scope : Scope) : Nat → List Text → Text → Except Misuse Spec
  | 0, _, text => .ok (.written text)
  | levels + 1, outer, text =>
      (expressionOf text).bind fun expression =>
        if outer.contains text then .ok (.written text)
        else ((expression.meaning scope).bind (asType .writing)).bind fun hint =>
          reading (read scope levels (text :: outer)) hint

/-- The annotation with all texts in it read. A quoted text is shorter than the one around it, and a
text that a name brings in is read once, so the levels suffice. -/
def resolved (scope : Scope) (hint : Spec) : Except Misuse Spec :=
  hint.reading fun text => read scope (text.length + 1 + scope.depth) [] text

end Spec

end JsonDecoding
