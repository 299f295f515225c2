import JsonDecoding.Spec.Names

/-!
# Specifications in reports on misuse

The form in which reports show an annotation that cannot be used where it stands.
-/

namespace JsonDecoding

/-- A builtin type with its module, as it stands inside another type. -/
def Builtin.qualified : Builtin → Text
  | .any => Text.lit "typing.Any"
  | .ellipsis => Text.lit "..."
  | .datetime => Text.lit "datetime.datetime"
  | .date => Text.lit "datetime.date"
  | .uuid => Text.lit "uuid.UUID"
  | .decimal => Text.lit "decimal.Decimal"
  | .listAlias => Text.lit "typing.List"
  | .dictAlias => Text.lit "typing.Dict"
  | .setAlias => Text.lit "typing.Set"
  | .frozensetAlias => Text.lit "typing.FrozenSet"
  | .tupleAlias => Text.lit "typing.Tuple"
  | .plain type => type.home ++ type.name
  | type => type.name

/-- The form of a class. -/
def shownClass (qualified : Text) : Text := Text.lit "<class '" ++ qualified ++ Text.lit "'>"

/-- The form of a builtin type that stands alone. -/
def Builtin.shown : Builtin → Text
  | .ellipsis => Text.lit "Ellipsis"
  | .any => Text.lit "typing.Any"
  | .listAlias => Text.lit "typing.List"
  | .dictAlias => Text.lit "typing.Dict"
  | .setAlias => Text.lit "typing.Set"
  | .frozensetAlias => Text.lit "typing.FrozenSet"
  | .tupleAlias => Text.lit "typing.Tuple"
  | .function name => Text.lit "<built-in function " ++ name ++ Text.lit ">"
  | type => shownClass type.qualified

/-- The member that a kind of scalar, or of any value, is of its enumeration. -/
def Primitive.member (kind : Primitive) : Text :=
  Text.lit "Primitive." ++ kind.name.map fun c => c - 32

/-- The form of a kind of scalar, or of any value. -/
def Primitive.shown (kind : Primitive) : Text :=
  Text.lit "<" ++ kind.member ++ Text.lit ": '" ++ kind.name ++ Text.lit "'>"

namespace Spec

/-- The form of a union. Of two members one of which is the type of null, the other is optional. -/
def shownUnion (form : UnionForm) (members : List Spec) (shown : List Text) : Text :=
  match form, members, shown with
  | .brackets, [.builtin .noneType, _], [_, other] =>
      Text.lit "typing.Optional[" ++ other ++ Text.lit "]"
  | .brackets, [_, .builtin .noneType], [other, _] =>
      Text.lit "typing.Optional[" ++ other ++ Text.lit "]"
  | .brackets, _, shown =>
      Text.lit "typing.Union[" ++ Text.joined (Text.lit ", ") shown ++ Text.lit "]"
  | .bars, members, shown =>
      Text.joined (Text.lit " | ") (members.zipWith
        (fun member text => match member with
          | .builtin .noneType => Data.null.shown
          | _ => text) shown)

mutual

/-- The form of a specification or annotation; inside another type a class is written without the
mark of a class. -/
def shownAs (inType : Bool) : Spec → Text
  | .primitive kind => kind.shown
  | .bareArray => Text.lit "<Bare.ARRAY: 'array'>"
  | .bareObject => Text.lit "<Bare.OBJECT: 'object'>"
  | .arrayOf element =>
      Data.built (Text.lit "ArrayOf") (Text.lit "element=" ++ shownAs false element)
  | .objectOf value =>
      Data.built (Text.lit "ObjectOf") (Text.lit "value=" ++ shownAs false value)
  | .mapOf key value =>
      Data.built (Text.lit "MapOf")
        (Text.lit "key=" ++ shownAs false key ++ Text.lit ", value=" ++ shownAs false value)
  | .setOf element =>
      Data.built (Text.lit "SetOf") (Text.lit "element=" ++ shownAs false element)
  | .tupleOf elements =>
      Data.built (Text.lit "TupleOf")
        (Text.lit "elements=" ++ Data.shownTuple (shownAllAs false elements))
  | .anyOf alternatives =>
      Data.built (Text.lit "AnyOf")
        (Text.lit "alternatives=" ++ Data.shownTuple (shownAllAs false alternatives))
  | .custom identity arguments =>
      Data.built (Text.lit "Custom")
        (Text.lit "identity=" ++ shownAs false identity ++ Text.lit ", args=" ++
          Data.shownTuple (shownAllAs false arguments))
  | .builtin type => if inType then type.qualified else type.shown
  | .named name home _ => if inType then home ++ name else shownClass (home ++ name)
  | .symbol name _ => Data.built (Text.lit "Symbol") (Text.quoted name)
  | .token value => value.shown
  | .written text => Data.built (Text.lit "ForwardRef") (Text.quoted text)
  | .several .tuple items => Data.shownTuple (shownAllAs false items)
  | .several .list items =>
      Text.lit "[" ++ Text.joined (Text.lit ", ") (shownAllAs false items) ++ Text.lit "]"
  | .generic head [] => head.name ++ Text.lit "[()]"
  | .generic head parameters =>
      head.name ++ Text.lit "[" ++ Text.joined (Text.lit ", ") (shownAllAs true parameters) ++
        Text.lit "]"
  | .union form members => shownUnion form members (shownAllAs true members)

/-- The forms in order. -/
def shownAllAs (inType : Bool) : List Spec → List Text
  | [] => []
  | spec :: rest => shownAs inType spec :: shownAllAs inType rest

end

/-- The form of a specification or annotation in reports on misuse. -/
def shown (spec : Spec) : Text := shownAs false spec

mutual

/-- Whether the form of a specification or annotation shows an integer that has too many digits. -/
def isOverlong : Spec → Bool
  | .arrayOf element => isOverlong element
  | .objectOf value => isOverlong value
  | .mapOf key value => isOverlong key || isOverlong value
  | .setOf element => isOverlong element
  | .tupleOf elements => anyOverlong elements
  | .anyOf alternatives => anyOverlong alternatives
  | .custom identity arguments => isOverlong identity || anyOverlong arguments
  | .token value => value.isOverlong
  | .several _ items => anyOverlong items
  | .generic _ parameters => anyOverlong parameters
  | .union _ members => anyOverlong members
  | _ => false

/-- Whether one of several forms shows such an integer. -/
def anyOverlong : List Spec → Bool
  | [] => false
  | spec :: rest => isOverlong spec || anyOverlong rest

end

end Spec

end JsonDecoding
