import JsonDecoding.Data.Shown

/-!
# Specifications

A specification says which JSON values are accepted and what they decode to. Beside the
specifications proper stand the annotations that can be turned into one: names of builtin types,
classes, symbols and plain tokens, annotations still in writing, parametrized generics, unions, and
sequences of annotations.
A custom specification refers to a schema by an identity, which is one of those annotations.
-/

namespace JsonDecoding

/-- A specification of one kind of scalar, or of any value. -/
inductive Primitive where
  | boolean
  | number
  | string
  | null
  | any
deriving DecidableEq

/-- A type that is known by a name only: no specification stands for it. Its home goes in front of
the name where reports show it. -/
structure PlainType where
  name : Text
  home : Text
  takesParameters : Bool
deriving DecidableEq

/-- A builtin type, an alias of one, a special form, or a function. -/
inductive Builtin where
  | bool
  | int
  | float
  | str
  | noneType
  | any
  | list
  | dict
  | set
  | frozenset
  | tuple
  | bytes
  | object
  | complex
  | metaclass
  | ellipsis
  | datetime
  | date
  | uuid
  | decimal
  | listAlias
  | dictAlias
  | setAlias
  | frozensetAlias
  | tupleAlias
  | plain (type : PlainType)
  | function (name : Text)
deriving DecidableEq

/-- A type that takes parameters. -/
inductive Generic where
  | list
  | dict
  | set
  | frozenset
  | tuple
  | type
  | plain (type : PlainType)
deriving DecidableEq

/-- The two ways of writing a union: members between bars, or in brackets. -/
inductive UnionForm where
  | bars
  | brackets
deriving DecidableEq

/-- The two kinds of sequences of annotations. -/
inductive SequenceForm where
  | tuple
  | list
deriving DecidableEq

/-- A specification, or an annotation that stands for one. A class is known by its name and home; a mark
tells classes of one name and home apart. -/
inductive Spec where
  | primitive (kind : Primitive)
  | bareArray
  | bareObject
  | arrayOf (element : Spec)
  | objectOf (value : Spec)
  | mapOf (key value : Spec)
  | setOf (element : Spec)
  | tupleOf (elements : List Spec)
  | anyOf (alternatives : List Spec)
  | custom (identity : Spec) (arguments : List Spec)
  | builtin (type : Builtin)
  | named (name home : Text) (mark : Nat)
  | symbol (name label : Text)
  | token (value : Data)
  | written (text : Text)
  | generic (head : Generic) (parameters : List Spec)
  | union (form : UnionForm) (members : List Spec)
  | several (form : SequenceForm) (items : List Spec)

namespace Spec

/-- The specification that every value matches. -/
abbrev any : Spec := .primitive .any

/-- The specification of strings. -/
abbrev string : Spec := .primitive .string

/-- Whether this is the specification that every value matches. -/
def isAny : Spec → Bool
  | .primitive .any => true
  | _ => false

/-- Whether this is the specification of strings. -/
def isString : Spec → Bool
  | .primitive .string => true
  | _ => false

/-! ## Equality -/

mutual

/-- Equality of specifications and annotations: by structure, tokens as data, symbols by name and
label, classes as such, unions regardless of order and form. -/
def same : Spec → Spec → Bool
  | .primitive a, .primitive b => a = b
  | .bareArray, .bareArray => true
  | .bareObject, .bareObject => true
  | .arrayOf a, .arrayOf b => same a b
  | .objectOf a, .objectOf b => same a b
  | .mapOf k a, .mapOf l b => same k l && same a b
  | .setOf a, .setOf b => same a b
  | .tupleOf as, .tupleOf bs => sameAll as bs
  | .anyOf as, .anyOf bs => sameAll as bs
  | .custom i as, .custom j bs => same i j && sameAll as bs
  | .builtin a, .builtin b => a = b
  | .named a h i, .named b g j => a = b && h = g && i = j
  | .symbol a t, .symbol b u => a = b && t = u
  | .token a, .token b => a.same b
  | .written a, .written b => a = b
  | .generic h as, .generic g bs => h = g && sameAll as bs
  | .union _ as, .union _ bs => as.length = bs.length && includedAll as bs
  | .several f as, .several g bs => f = g && sameAll as bs
  | _, _ => false

/-- Equality position by position. -/
def sameAll : List Spec → List Spec → Bool
  | [], [] => true
  | a :: as, b :: bs => same a b && sameAll as bs
  | _, _ => false

/-- Whether every member has an equal one in the other list. -/
def includedAll : List Spec → List Spec → Bool
  | [], _ => true
  | a :: as, bs => bs.any (fun b => same a b) && includedAll as bs

end

instance : BEq Spec := ⟨same⟩

/-! ## Hashing -/

mutual

/-- The first reason why a specification cannot serve as a key: tokens bring it in, at any depth. -/
def unhashable? : Spec → Option Data.Unhashable
  | .token value => value.unhashable?
  | .arrayOf element => unhashable? element
  | .objectOf value => unhashable? value
  | .mapOf key value => (unhashable? key).or (unhashable? value)
  | .setOf element => unhashable? element
  | .tupleOf elements => unhashableAmong? elements
  | .anyOf alternatives => unhashableAmong? alternatives
  | .custom identity arguments => (unhashable? identity).or (unhashableAmong? arguments)
  | .generic _ parameters => unhashableAmong? parameters
  | .union _ members => unhashableAmong? members
  | .several .tuple items => unhashableAmong? items
  | .several .list _ => some (.kind (Data.typeName (.list [])))
  | _ => none

/-- The first such reason among several specifications. -/
def unhashableAmong? : List Spec → Option Data.Unhashable
  | [] => none
  | spec :: rest => (unhashable? spec).or (unhashableAmong? rest)

end

/-- Whether a specification can serve as a key. -/
def isHashable (spec : Spec) : Bool := spec.unhashable?.isNone

end Spec

end JsonDecoding
