import JsonDecoding.Data.Shown

/-!
# Locations

Where a value sits in its parent: under a key of an object or at an index of an array. A path is the
list of locations from the root to a value.
-/

namespace JsonDecoding

/-- The place of a value in its parent. -/
inductive Location where
  | key (name : Text)
  | index (position : Int)
deriving DecidableEq

namespace Location

/-- A location as plain data. -/
def toData : Location → Data
  | .key name => .str name
  | .index position => .int position

/-- The words for a location. -/
def words : Location → Text
  | .key name => Text.lit "key `" ++ name ++ Text.lit "`"
  | .index position => Text.lit "index " ++ Text.ofInt position

/-- The form of a path in reports. -/
def shownPath (path : List Location) : Text := (Data.tuple (path.map toData)).shown

end Location

end JsonDecoding
