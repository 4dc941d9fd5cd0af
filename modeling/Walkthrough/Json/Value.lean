import Walkthrough.Text.Units

/-!
JSON values. Whole numbers and numbers with a point or an exponent are kept apart. Strings are texts of
UTF-16 units, as a JSON text can spell a surrogate that stands alone. The fields of an object keep the
order in which their names first appeared.
-/
namespace Walkthrough

open Text (Units)

inductive Json where
  | null
  | bool (value : Bool)
  | integer (value : Int)
  | real (value : Float)
  | string (units : Units)
  | list (items : List Json)
  | object (fields : List (Units × Json))
  deriving Inhabited

namespace Json

def text (s : String) : Json := string (.ofString s)

def ofFields (fields : List (String × Json)) : Json :=
  object (fields.map fun (name, value) => (.ofString name, value))

def field? (name : String) : Json → Option Json
  | object fields => fields.lookup (.ofString name)
  | _ => none

/-- Gives a field its value; a name seen before keeps its place. -/
def setField (name : Units) (value : Json) (fields : List (Units × Json)) : List (Units × Json) :=
  if fields.any (·.1 == name) then
    fields.map fun f => if f.1 == name then (name, value) else f
  else fields ++ [(name, value)]

end Json
end Walkthrough
