/-!
Names of variables: ASCII letters, digits and low lines, not beginning with a digit.
-/
namespace Walkthrough.Name

def isStart (c : Char) : Bool := c.isAlpha || c = '_'

def isRest (c : Char) : Bool := c.isAlphanum || c = '_'

def isName : List Char → Bool
  | [] => false
  | c :: rest => isStart c && rest.all isRest

end Walkthrough.Name
