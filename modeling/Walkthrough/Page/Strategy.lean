/-!
The ways in which a description can mean an element, and the order in which they are tried. The last
three lead from an element to a related one and are never tried on a description.
-/
namespace Walkthrough

inductive Strategy where
  | placeholder
  | placeholderPart
  | label
  | labelPart
  | text
  | textPart
  | title
  | ariaLabel
  | id
  | name
  | className
  | classNamePart
  | tag
  | xpath
  | controlInside
  | controlAfter
  | owningSelect
  deriving DecidableEq, Repr

namespace Strategy

def all : List Strategy :=
  [placeholder, placeholderPart, label, labelPart, text, textPart, title, ariaLabel, id, name,
    className, classNamePart, tag, xpath, controlInside, controlAfter, owningSelect]

def display : Strategy → String
  | placeholder => "placeholder"
  | placeholderPart => "placeholder_partial"
  | label => "label"
  | labelPart => "label_partial"
  | text => "text"
  | textPart => "text_partial"
  | title => "title"
  | ariaLabel => "aria_label"
  | id => "id"
  | name => "name"
  | className => "class"
  | classNamePart => "class_partial"
  | tag => "tag"
  | xpath => "xpath"
  | controlInside => "control_descendant"
  | controlAfter => "control_following"
  | owningSelect => "owning_select"

def visibleOnly : Strategy → Bool
  | xpath | owningSelect => false
  | _ => true

/-- Does the strategy find a label, which stands for the control that belongs to it? -/
def isLabel : Strategy → Bool
  | label | labelPart => true
  | _ => false

def precedence : List Strategy :=
  [placeholder, placeholderPart, label, labelPart, text, textPart, title, ariaLabel, id, name,
    className, classNamePart, tag, xpath]

end Strategy
end Walkthrough
