/-!
Matching against ASCII words regardless of case. A character counts as the ASCII letter that is its
lower case: the capitals `A` to `Z`, and the Kelvin sign, whose lower case is `k`; no other character
has a single ASCII letter for its lower case. Where letters are only told from other characters, the
variants of a letter that folding unites with it count as well: the dotted and dotless `i`, the long
`s` and the Kelvin sign.
-/
namespace Walkthrough.Text

def lowerChar (c : Char) : Char := if c = '\u212A' then 'k' else c.toLower

def lower (s : String) : String := String.ofList (s.toList.map lowerChar)

/-- The ASCII lower-case letter that folding unites `c` with, if any; other characters stay. -/
def folded (c : Char) : Char :=
  if c = '\u0130' || c = '\u0131' then 'i' else if c = '\u017F' then 's' else lowerChar c

def beginsWith (word : String) (s : List Char) : Bool := word.toList.isPrefixOf (s.map folded)

def occursIn (part : List Char) : List Char → Bool
  | [] => part.isEmpty
  | c :: rest => part.isPrefixOf (c :: rest) || occursIn part rest

end Walkthrough.Text
