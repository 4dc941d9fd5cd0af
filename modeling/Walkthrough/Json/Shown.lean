import Walkthrough.Json.Value
import Walkthrough.Text.Quoted
import Walkthrough.Decimal.Layout

/-!
JSON values as texts for the user. A string is shown as it is, and within lists and objects between
quotation marks. Whether a value counts as given is decided by its being empty or zero.
-/
namespace Walkthrough.Json

open Text (Units)

mutual

def shownInside : Json → String
  | null => "None"
  | bool value => if value then "True" else "False"
  | integer value => toString value
  | real value => Decimal.plainLayout.write value
  | string units => Text.quotedSymbols units.symbols
  | list items => "[" ++ ", ".intercalate (shownItems items) ++ "]"
  | object fields => "\x7b" ++ ", ".intercalate (shownFields fields) ++ "\x7d"

def shownItems : List Json → List String
  | [] => []
  | item :: items => shownInside item :: shownItems items

def shownFields : List (Units × Json) → List String
  | [] => []
  | (name, value) :: fields => (Text.quotedSymbols name.symbols ++ ": " ++ shownInside value) :: shownFields fields

end

def shown : Json → Units
  | string units => units
  | value => .ofString (shownInside value)

/-- Is the value other than null, false, zero and empty? -/
def isGiven : Json → Bool
  | null => false
  | bool value => value
  | integer value => value != 0
  | real value => value != 0
  | string units => !units.isEmpty
  | list items => !items.isEmpty
  | object fields => !fields.isEmpty

end Walkthrough.Json
