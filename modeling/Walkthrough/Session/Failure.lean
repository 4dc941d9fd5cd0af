import Walkthrough.Script.Statement

/-!
Failures of a statement. Each constructor is one cause; `message` words it. A failure is recorded and
can be handled by the script.
-/
namespace Walkthrough

inductive Deed where
  | navigate
  | readParent
  | readTag
  | readAttribute (name : String)
  | readPosition
  | readText
  | readActive
  | click
  | clear
  | type
  | press
  | select (label : String)
  | upload
  | runScript
  | refresh
  | screenshot
  deriving DecidableEq, Repr

def Deed.complaint : Deed → String
  | navigate => "Error navigating to page"
  | readParent => "Error reading parent element"
  | readTag => "Error reading tag name"
  | readAttribute name => "Error reading attribute " ++ name
  | readPosition => "Error reading element position"
  | readText => "Error getting text from element"
  | readActive => "Could not read active element"
  | click => "Error clicking element"
  | clear => "Error clearing element"
  | type => "Error typing into element"
  | press => "Error pressing key. Make sure you have an element in focus first"
  | select label => "Could not select text " ++ label
  | upload => "Error uploading file"
  | runScript => "Error running script"
  | refresh => "Error refreshing page"
  | screenshot => "Error taking screenshot"

inductive Failure where
  | notLocated (query : String)
  | undefined (name : String)
  | refused (deed : Deed) (reason : String)
  | noSuchOption (label : String)
  | noOwningSelect
  | notSelect
  | notFileInput
  | noSuchFile (path : String)
  | noVisibleSize
  | nothingLocated
  | nothingActive
  | nothingToPress
  | emptyAddress
  | unsupportedKey (raw : String)
  | unreadablePause (raw : String)
  | missingArgument (verb : Verb)
  | noDialog (wanted : Answer)
  | answeredOtherwise (wanted : Answer) (message : String)
  deriving DecidableEq, Repr

def Answer.present : Answer → String
  | accept => "accepting"
  | dismiss => "dismissing"

def Answer.past : Answer → String
  | accept => "accepted"
  | dismiss => "dismissed"

def Answer.text : Answer → String
  | accept => "accept"
  | dismiss => "dismiss"

def Failure.message : Failure → String
  | notLocated query => "Could not locate the element \"" ++ query ++ "\""
  | undefined name => "Variable `" ++ name ++ "` is not yet defined"
  | refused deed reason => deed.complaint ++ ": " ++ reason
  | noSuchOption label => "Could not select text " ++ label
  | noOwningSelect => "Error getting parent select. Try locating the select element directly"
  | notSelect => "Element is not a <select> element"
  | notFileInput => "Error uploading file: element is not a file input"
  | noSuchFile path => "Error uploading file: " ++ path ++ " does not exist"
  | noVisibleSize => "Error clicking element: element has no visible size"
  | nothingLocated => "No element currently located. Try using the locate command"
  | nothingActive => "Error getting active element."
  | nothingToPress => "Error pressing key. Make sure you have an element in focus first"
  | emptyAddress => "Error navigating to page: empty url"
  | unsupportedKey raw => "Unsupported key: " ++ raw
  | unreadablePause raw => "Could not parse time to wait: " ++ raw
  | missingArgument verb => "`" ++ verb.text ++ "` needs an argument"
  | noDialog wanted => "Error " ++ wanted.present ++ " alert: no alert present"
  | answeredOtherwise wanted message =>
    "Error " ++ wanted.present ++ " alert: \"" ++ message ++ "\" was already " ++ wanted.other.past

end Walkthrough
