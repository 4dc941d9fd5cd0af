import Walkthrough.Page.Pause
import Walkthrough.Run.Basic
import Walkthrough.Page.Address
import Walkthrough.Page.Key

/-!
Carrying out commands and statements. A command works on the located element unless it names another;
one whose document is gone is located again by its description. Dialogs that open during a statement
get the answer of its first alert command, or else the answer that comes with it.
-/
namespace Walkthrough

namespace Setup

open RunM

variable {σ η ν : Type} (setup : Setup σ η ν)

def page : Page σ η ν := setup.locator.page

def highlightBorder : String := "5px solid purple"

def highlight (element : η) (border : String) : RunM σ η ν Unit := do
  match ← attempt (Session.setBorder setup.page element border) with
  | .ok () => return ()
  | .error failure => note (.highlightFailed failure)

def setLocated (element : η) (query : String) : RunM σ η ν Unit := do
  if setup.demo then
    if let some previous := (← memory).located then
      if ← Session.isAttached setup.page previous.element then
        highlight setup previous.element "none"
    highlight setup element highlightBorder
  setMemory fun m => { m with located := some ⟨element, query⟩ }

/-- The located element, found again if it has left the page. -/
def locatedElement : RunM σ η ν (Located η) := do
  match (← memory).located with
  | none => fail .nothingLocated
  | some slot =>
    let attached ← Session.isAttached setup.page slot.element
    if attached || slot.query.isEmpty then return slot
    else
      note (.stale slot.query)
      let element ← setup.locator.resolve slot.query (← memory).scope
      setLocated setup element slot.query
      return ⟨element, slot.query⟩

/-- The element that interactions with the located one mean, which becomes the located one. -/
def target (choosing : Bool) : RunM σ η ν η := do
  let slot ← locatedElement setup
  let element ← Session.interactionTarget setup.page slot.element choosing
  setMemory fun m => { m with located := some ⟨element, slot.query⟩ }
  return element

def clickCenter (element : η) : RunM σ η ν Unit := do
  match ← Session.boundingBox setup.page element with
  | none => fail .noVisibleSize
  | some box =>
    if box.width ≤ 0 || box.height ≤ 0 then fail .noVisibleSize
    else Session.click setup.page box.center.1 box.center.2

def argument (c : Command) : RunM σ η ν String := do
  match c.param with
  | none => fail (.missingArgument c.verb)
  | some param =>
    match (← memory).valueOf param with
    | .ok value => return value
    | .error failure => fail failure

def setActive (element : η) : RunM σ η ν Unit :=
  setMemory fun m => { m with active := some element }

def locate (query : String) (scroll : Bool) : RunM σ η ν Unit := do
  let element ← setup.locator.resolve query (← memory).scope
  if scroll then Session.scrollIntoView setup.page element
  setLocated setup element query

def typeText (text : String) : RunM σ η ν Unit := do
  let element ← target setup false
  clickCenter setup element
  let active := (← Session.activeElement setup.page).getD element
  setActive active
  if let .error failure ← attempt (Session.clear setup.page active) then
    note (.clearFailed failure)
  Session.sendKeys setup.page active text

def select (label : String) : RunM σ η ν Unit := do
  let element ← target setup true
  if (← Session.tagName setup.page element) != "select" then fail .notSelect
  Session.selectOption setup.page element label

def upload (raw : String) : RunM σ η ν Unit := do
  let element := (← locatedElement setup).element
  let kind := Text.lower (Text.trimmed ((← Session.attributeValue setup.page element "type").getD ""))
  if (← Session.tagName setup.page element) != "input" || kind != "file" then fail .notFileInput
  match setup.uploadPath raw with
  | .error fault => throw (.fault fault)
  | .ok (path, false) => fail (.noSuchFile path)
  | .ok (path, true) => Session.setFile setup.page element path

/-- The element that keys go to: the focused one, else the one last used, else the located one. -/
def keyTarget : RunM σ η ν η := do
  if let some element ← Session.activeElement setup.page then return element
  let m ← memory
  if let some element := m.active then return element
  if m.located.isSome then return (← locatedElement setup).element
  fail .nothingToPress

def press (raw : String) : RunM σ η ν Unit := do
  match Key.named? raw with
  | none => fail (.unsupportedKey raw)
  | some key => Session.press setup.page (← keyTarget setup) key

def dragTo (c : Command) : RunM σ η ν Unit := do
  let source := (← locatedElement setup).element
  let query ← argument c
  let element ← setup.locator.resolve query (← memory).scope
  Session.drag setup.page source element
  setLocated setup element query

/-- Carries out a command, without the pause before it. -/
def act (phase : Phase) (c : Command) : RunM σ η ν Unit := do
  match c.verb with
  | .url =>
    let address := Address.complete (← argument c)
    if address.isEmpty then fail .emptyAddress
    Session.navigate setup.page address
  | .locate => locate setup (← argument c) true
  | .locateNoScroll => locate setup (← argument c) false
  | .click =>
    let element ← target setup false
    clickCenter setup element
    setActive element
  | .type => typeText setup (← argument c)
  | .select => select setup (← argument c)
  | .upload => upload setup (← argument c)
  | .readTo =>
    let text ← Session.innerText setup.page (← locatedElement setup).element
    setMemory (·.setVariable (c.target.getD "") (Text.trimmed text))
  | .press => press setup (← argument c)
  | .refresh => Session.refresh setup.page
  | .screenshot =>
    let png ← Session.screenshot setup.page
    setMemory (·.addScreenshot setup.runName png)
  | .chill =>
    let raw ← argument c
    match pauseSeconds? raw with
    | none => fail (.unreadablePause raw)
    | some seconds => Session.pause setup.page seconds
  | .dragTo => dragTo setup c
  | .acceptAlert => takeDialog .accept
  | .dismissAlert => takeDialog .dismiss
  | .tryAgain =>
    if phase = .awaitingRetry then setMemory fun m => { m with retryRequested := true }

def perform (phase : Phase) (c : Command) : RunM σ η ν Unit := do
  if 0 < setup.commandDelay then Session.pause setup.page setup.commandDelay
  act setup phase c

def performAll (phase : Phase) : List Command → RunM σ η ν Unit
  | [] => return ()
  | c :: later => do
    perform setup phase c
    performAll phase later

def anchorElement : Option Param → RunM σ η ν η
  | none => do
    match ← Session.activeElement setup.page with
    | some element => return element
    | none => fail .nothingActive
  | some param => do
    match (← memory).valueOf param with
    | .error failure => fail failure
    | .ok query =>
      let element ← setup.locator.resolve query none
      Session.scrollIntoView setup.page element
      return element

def setScope (scope : Option η) (s : RunState σ η ν) : RunState σ η ν :=
  { s with memory := { s.memory with scope } }

/-- Carries out a statement, without regard to dialogs. -/
def carryOut (phase : Phase) : Form → RunM σ η ν Unit
  | .comment _ => return ()
  | .save value name => setMemory fun m => m.setVariable name (m.fillIn value)
  | .run body | .handler body => performAll setup phase body
  | .conditional predicate body => do
    match ← attempt (perform setup phase predicate) with
    | .error failure => note (.conditionFailed predicate failure)
    | .ok () => performAll setup phase body
  | .under anchor body => do
    let element ← anchorElement setup anchor
    modify (setScope (some element))
    andFinally (performAll setup phase body) (setScope none)

def setArmed (armed : Option Answer) (s : RunState σ η ν) : RunState σ η ν :=
  { s with session := { s.session with dialogs := s.session.dialogs.prepare armed } }

/-- Carries out a statement. Dialogs that open meanwhile get the answer of its own first alert command,
or else the upcoming one. -/
def execute (phase : Phase) (s : Statement) (upcoming : Option Answer) : RunM σ η ν Unit := do
  match (Answer.first? s.form.commands).or upcoming with
  | none => carryOut setup phase s.form
  | some answer =>
    modify (setArmed (some answer))
    andFinally (carryOut setup phase s.form) (setArmed none)

end Setup
end Walkthrough
