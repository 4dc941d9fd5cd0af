import Walkthrough.Session.Element

/-!
The form control that belongs to a label. A label or span belongs to the control inside it, else a
label to the one it names, else either to the one right behind it, else a label to one inside one of
the nearest containers around it. Interacting with a label means its control, and choosing in an
option means the list that owns it.
-/
namespace Walkthrough.Session

variable {σ η ν : Type} (page : Page σ η ν)

def containerDepth : Nat := 5

/-- The control that a label names by its identifier, or else by its name. -/
def namedControl (name : String) : SessionM σ ν (Option η) := do
  if name.isEmpty then return none
  match ← find page .id name none with
  | some target => return some target
  | none => find page .name name none

def controlAround (element : η) : (depth : Nat) → SessionM σ ν (Option η)
  | 0 => return none
  | depth + 1 => do
    match ← parent page element with
    | none => return none
    | some container =>
      match ← find page .controlInside "" (some container) with
      | some control => return some control
      | none => controlAround container depth

def associatedControl (element : η) : SessionM σ ν (Option η) := do
  let tag ← tagName page element
  let isLabel := tag == "label"
  if !isLabel && tag != "span" then return none
  if let some control ← find page .controlInside "" (some element) then return some control
  if isLabel then
    let name := Text.trimmed ((← attributeValue page element "for").getD "")
    if let some control ← namedControl page name then return some control
  if let some control ← find page .controlAfter "" (some element) then return some control
  if isLabel then controlAround page element containerDepth else return none

def interactionTarget (element : η) (choosing : Bool) : SessionM σ ν η := do
  let tag ← tagName page element
  if choosing && tag == "option" then
    match ← find page .owningSelect "" (some element) with
    | some owner => return owner
    | none => throw (.failure .noOwningSelect)
  else
    match ← associatedControl page element with
    | some control =>
      note (.swapped tag)
      return control
    | none => return element

end Walkthrough.Session
