import Walkthrough.Text.Blank
import Walkthrough.Text.Caseless

/-!
Addresses as scripts give them. One that names no scheme is taken for a host and gets the secure one.
-/
namespace Walkthrough.Address

open Text

def isSchemeRest (c : Char) : Bool := (folded c).isAlphanum || c = '+' || c = '.' || c = '-'

def hasScheme (s : List Char) : Bool :=
  (match s with
    | [] => false
    | c :: rest => (folded c).isAlpha && "://".toList.isPrefixOf (rest.dropWhile isSchemeRest)) ||
  beginsWith "about:" s || beginsWith "data:" s || beginsWith "file:" s

def complete (raw : String) : String :=
  let address := trimmed raw
  if address.isEmpty || hasScheme address.toList then address else "https://" ++ address

end Walkthrough.Address
