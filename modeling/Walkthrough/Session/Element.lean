import Walkthrough.Session.Basic
import Walkthrough.Page.XPath

/-!
What a session can do with a page and its elements. Finding elements never fails: a query that the
page refuses finds nothing, and an element whose visibility cannot be read is hidden. Nor do checks of
attachment and scrolling fail.
-/
namespace Walkthrough.Session

variable {σ η ν : Type} (page : Page σ η ν)

/-- The elements that a strategy finds, hidden ones included. -/
def query (strategy : Strategy) (value : String) (within : Option η) : SessionM σ ν (List η) := do
  match XPath.of? strategy value within.isSome with
  | none | some "" => return []
  | some xpath =>
    match ← ask page (.query within xpath) with
    | .ok elements => return elements
    | .error reason =>
      note (.queryFailed xpath reason)
      return []

def suits (strategy : Strategy) (element : η) : SessionM σ ν Bool := do
  if strategy.visibleOnly then
    match ← ask page (.isVisible element) with
    | .ok visible => return visible
    | .error _ => return false
  else return true

/-- The first element that the strategy may yield; the visibility of later ones is not read. -/
def firstSuiting (strategy : Strategy) : List η → SessionM σ ν (Option η)
  | [] => return none
  | element :: later => do
    if ← suits page strategy element then return some element
    else firstSuiting strategy later

def allSuiting (strategy : Strategy) : List η → SessionM σ ν (List η)
  | [] => return []
  | element :: later => do
    let suiting ← suits page strategy element
    let rest ← allSuiting strategy later
    return if suiting then element :: rest else rest

def find (strategy : Strategy) (value : String) (within : Option η) : SessionM σ ν (Option η) := do
  firstSuiting page strategy (← query page strategy value within)

def findAll (strategy : Strategy) (value : String) (within : Option η) : SessionM σ ν (List η) := do
  allSuiting page strategy (← query page strategy value within)

def parent (element : η) : SessionM σ ν (Option η) := demand page .readParent (.parent element)

def tagName (element : η) : SessionM σ ν String := demand page .readTag (.tagName element)

def attributeValue (element : η) (name : String) : SessionM σ ν (Option String) :=
  demand page (.readAttribute name) (.attributeValue element name)

def isAttached (element : η) : SessionM σ ν Bool := do
  match ← ask page (.isAttached element) with
  | .ok attached => return attached
  | .error _ => return false

def boundingBox (element : η) : SessionM σ ν (Option Rect) :=
  demand page .readPosition (.box element)

def scrollIntoView (element : η) : SessionM σ ν Unit := do
  if let .error reason ← ask page (.scrollIntoView element) then note (.scrollFailed reason)

def click (x y : Float) : SessionM σ ν Unit := demand page .click (.clickAt x y)

def activeElement : SessionM σ ν (Option η) := demand page .readActive .activeElement

def clear (element : η) : SessionM σ ν Unit := demand page .clear (.clear element)

def sendKeys (element : η) (text : String) : SessionM σ ν Unit := do
  demand page .type (.focus element)
  demand page .type (.typeText text)

def innerText (element : η) : SessionM σ ν String := demand page .readText (.innerText element)

def press (element : η) (key : String) : SessionM σ ν Unit :=
  demand page .press (.press element key)

def selectOption (element : η) (label : String) : SessionM σ ν Unit := do
  let chosen ← demand page (.select label) (.selectOption element label)
  unless chosen do throw (.failure (.noSuchOption label))

def screenshot : SessionM σ ν ByteArray := demand page .screenshot .screenshot

def refresh : SessionM σ ν Unit := demand page .refresh .reload

def setFile (element : η) (path : String) : SessionM σ ν Unit :=
  demand page .upload (.setFile element path)

def setBorder (element : η) (border : String) : SessionM σ ν Unit :=
  demand page .runScript (.setBorder element border)

def drag (source target : η) : SessionM σ ν Unit := demand page .runScript (.drag source target)

/-- Opens an address. The dialogs of the page before are gone even if that fails. -/
def navigate (url : String) : SessionM σ ν Unit := do
  modify fun s => { s with dialogs := s.dialogs.dropAll }
  demand page .navigate (.goto url)

def prepareDialog (armed : Option Answer) : SessionM σ ν Unit :=
  modify fun s => { s with dialogs := s.dialogs.prepare armed }

def finishStatement (s : Session σ ν) : Session σ ν :=
  { s with dialogs := s.dialogs.finishStatement }

/-- An alert command: the oldest dialog is taken even if it got the other answer. -/
def takeDialog (wanted : Answer) : SessionM σ ν Unit := fun s =>
  let (result, dialogs) := s.dialogs.take wanted
  match result with
  | .ok () => .ok () { s with dialogs }
  | .error failure => .error (.failure failure) { s with dialogs }

end Walkthrough.Session
