import Walkthrough.Page.Strategy
import Walkthrough.Text.Blank

/-!
XPath expressions for the strategies. A description enters an expression as one quoted operand in a
fixed frame. XPath has no escapes in literals, so a text with both kinds of quotes is put together
from pieces. A tag name and an expression of the user's own stand unquoted.
-/
namespace Walkthrough.XPath

/-- The pieces between the occurrences of `mark`; always one more than there are occurrences. -/
def pieces (mark : Char) : List Char → List (List Char)
  | [] => [[]]
  | c :: rest =>
    if c = mark then [] :: pieces mark rest
    else
      match pieces mark rest with
      | [] => [[c]]
      | piece :: later => (c :: piece) :: later

def literal (value : List Char) : List Char :=
  if !value.contains '\x27' then '\x27' :: value ++ ['\x27']
  else if !value.contains '"' then '"' :: value ++ ['"']
  else
    let quoted := (pieces '\x27' value).map fun piece => '\x27' :: piece ++ ['\x27']
    "concat(".toList ++ List.intercalate ", \"'\", ".toList quoted ++ [')']

def isControl : String := "self::input or self::textarea or self::select"

/-- What stands before and after the operand, the axis apart. -/
def frame? : Strategy → Option (String × String)
  | .placeholder => some ("*[" ++ isControl ++ "][@placeholder=", "]")
  | .placeholderPart => some ("*[" ++ isControl ++ "][contains(@placeholder, ", ")]")
  | .label => some ("*[self::label or self::span][normalize-space(.)=", "]")
  | .labelPart => some ("*[self::label or self::span][contains(normalize-space(.), ", ")]")
  | .text => some ("*[text()[normalize-space(.)=", "]]")
  | .textPart => some ("*[text()[contains(normalize-space(.), ", ")]]")
  | .title => some ("*[@title=", "]")
  | .ariaLabel => some ("*[@aria-label=", "]")
  | .id => some ("*[@id=", "]")
  | .name => some ("*[@name=", "]")
  | .className => some ("*[contains(concat(' ', normalize-space(@class), ' '), ", ")]")
  | .classNamePart => some ("*[contains(@class, ", ")]")
  | _ => none

def axis (within : Bool) : String := if within then ".//" else "//"

def operandLimit : Int := 10000

/-- The text that the expression compares with: a class name is set off by spaces. -/
def operand (strategy : Strategy) (value : String) : List Char :=
  let text := Text.cut operandLimit (Text.compact value.toList)
  if strategy = .className then ' ' :: text ++ [' '] else text

def isTagName : List Char → Bool
  | [] => false
  | c :: rest => c.isAlpha && rest.all fun c => c.isAlphanum || c = '-'

/-- The expression of a strategy for a value; a text that is no tag name has none under `tag`. -/
def of? (strategy : Strategy) (value : String) (within : Bool) : Option String :=
  let text := operand strategy value
  match frame? strategy with
  | some (before, after) =>
    some (axis within ++ before ++ String.ofList (literal text) ++ after)
  | none =>
    match strategy with
    | .tag => if isTagName text then some (axis within ++ String.ofList (text.map Char.toLower)) else none
    | .xpath =>
      let raw := Text.trimmed value
      some (if within && raw.startsWith "/" then "." ++ raw else raw)
    | .controlInside => some (".//*[" ++ isControl ++ "]")
    | .controlAfter => some ("./following-sibling::*[1][" ++ isControl ++ "]")
    | _ => some "./ancestor::select[1]"

end Walkthrough.XPath
