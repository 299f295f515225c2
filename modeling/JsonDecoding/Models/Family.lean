import JsonDecoding.Models.Declared
import JsonDecoding.Schema.Class

/-!
# Families of declared classes

Declared classes may hold instances of each other. As one family they are classes that schemas can
be made for: what schemas leave open about model classes is told by their declarations here. Nothing
that is proved about the schemas of model classes looks into these declarations.
-/

namespace JsonDecoding

/-- A record class, or a declared model class. -/
inductive DeclaredClass where
  | record (definition : RecordClass)
  | model (definition : DeclaredModel)

namespace RecordClass

/-! ## Instances inside models -/

/-- The values of initial fields from a dictionary as they are, without those that are absent and
have a default. All issues are collected. -/
def readFields (input : List (Data × Data)) : List RecordField → Checked (List (Text × Data))
  | [] => .ok []
  | field :: rest =>
      let others := readFields input rest
      match field.isInitial, input.lookup (.str field.name), field.default with
      | true, some data, _ => others.map ((field.name, data) :: ·)
      | true, none, none =>
          let absent : Checked Data := Checked.issue .missing (.dict input)
          (absent.inside field.name).both (fun _ others => others) others
      | _, _, _ => others

/-- The instance read from a dictionary of values under the names of its initial fields. -/
def readRecord (c : RecordClass) (input : List (Data × Data)) : Outcome Data :=
  (readFields input c.fields).bind fun given =>
    match c.construct given with
    | .ok data => .ok (Match.made given.length ⟨data, .lax, none⟩)
    | .error complaint => Checked.issue (.ofComplaint complaint) (.dict input)

end RecordClass

/-- A declared model class with its two ways of building a model, where data becomes an instance of the
classes of its annotations in some way. -/
def DeclaredModel.modelClass (help : Help) (instances : Conform.Instances) (c : DeclaredModel) :
    ModelClass :=
  ⟨c.name, c.fields, c.validate help instances, fun input => .ok (c.construct input)⟩

namespace DeclaredClass

/-- The name of a class. -/
def name : DeclaredClass → Text
  | .record definition => definition.name
  | .model definition => definition.name

/-- The class that an identity names. -/
def find? (classes : List DeclaredClass) (identity : Spec) : Option DeclaredClass :=
  match identity with
  | .named name _ _ => classes.find? fun definition => definition.name == name
  | _ => none

/-- How data becomes an instance of one of some classes inside a model: an instance of the class is
one already, a dictionary is read as its fields, up to `levels` dictionaries inside one another.
Data for any other class is left alone. -/
def instances (classes : List DeclaredClass) : Nat → Conform.Instances
  | 0, _, data => Conform.untouched data
  | levels + 1, name, data =>
      match classes.find? fun definition => definition.name == name with
      | none => Conform.untouched data
      | some definition =>
          let expected : Expected := match definition with
            | .record _ => .record name
            | .model _ => .model name
          let ofClass (className : Text) : Outcome Data :=
            if className == name then Conform.untouched data
            else Outcome.unexpected expected data
          match definition, data with
          | _, .record className .. => ofClass className
          | _, .model className .. => ofClass className
          | .model c, .dict entries => c.readModel (instances classes levels) entries
          | .record c, .dict entries => c.readRecord entries
          | _, data => Outcome.unexpected expected data

/-- Levels of dictionaries inside one another that no decoded data exceeds. -/
def maxLevels : Nat := 1000

/-- The class with its two ways of building a model, if it is a model class. -/
def known (help : Help) (classes : List DeclaredClass) : DeclaredClass → ClassDef
  | .record definition => .record definition
  | .model definition => .model (definition.modelClass help (instances classes maxLevels))

/-- The classes of a family under the identities that name them. -/
def family (help : Help) (identityOf : Text → Spec) (classes : List DeclaredClass) : Classes :=
  classes.map fun c => (identityOf c.name, c.known help classes)

end DeclaredClass

end JsonDecoding
