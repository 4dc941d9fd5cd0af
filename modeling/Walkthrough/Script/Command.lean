/-!
Commands of a walkthrough script: what is done, the argument it is done with, and, for reading, the
variable that receives the text. Every command is shown in the words it is written in.
-/
namespace Walkthrough

inductive Verb where
  | url
  | locate
  | locateNoScroll
  | click
  | type
  | select
  | upload
  | readTo
  | press
  | refresh
  | screenshot
  | chill
  | dragTo
  | acceptAlert
  | dismissAlert
  | tryAgain
  deriving DecidableEq, Repr

namespace Verb

def all : List Verb :=
  [url, locate, locateNoScroll, click, type, select, upload, readTo, press, refresh, screenshot,
    chill, dragTo, acceptAlert, dismissAlert, tryAgain]

def text : Verb → String
  | url => "url"
  | locate => "locate"
  | locateNoScroll => "locate-no-scroll"
  | click => "click"
  | type => "type"
  | select => "select"
  | upload => "upload"
  | readTo => "read-to"
  | press => "press"
  | refresh => "refresh"
  | screenshot => "screenshot"
  | chill => "chill"
  | dragTo => "drag-to"
  | acceptAlert => "accept-alert"
  | dismissAlert => "dismiss-alert"
  | tryAgain => "try-again"

inductive Shape where
  | bare
  | argument
  | target
  deriving DecidableEq, Repr

def shape : Verb → Shape
  | url | locate | locateNoScroll | type | select | upload | press | chill | dragTo => .argument
  | readTo => .target
  | click | refresh | screenshot | acceptAlert | dismissAlert | tryAgain => .bare

end Verb

/-- An argument: quoted text, in which placeholders are filled when the command is carried out, a
number, or the name of a variable. -/
inductive Param where
  | quoted (text : String)
  | number (digits : String)
  | named (name : String)
  deriving DecidableEq, Repr

def Param.display : Param → String
  | quoted text => "\"" ++ text ++ "\""
  | number digits => digits
  | named name => name

/-- A command. Scripts give each verb what its shape asks for, an argument or the variable that is the
target of reading; a command made otherwise may lack it. -/
structure Command where
  verb : Verb
  param : Option Param := none
  target : Option String := none
  deriving DecidableEq, Repr

namespace Command

def display (c : Command) : String :=
  match c.verb, c.param with
  | .readTo, _ => "read-to " ++ c.target.getD ""
  | verb, some param => verb.text ++ " " ++ param.display
  | verb, none => verb.text

def displayAll (commands : List Command) : String := " and ".intercalate (commands.map display)

end Command
end Walkthrough
