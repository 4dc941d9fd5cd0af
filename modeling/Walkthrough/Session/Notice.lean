import Walkthrough.Decimal.Layout
import Walkthrough.File.Path
import Walkthrough.Session.Failure
import Walkthrough.Page.Strategy

/-!
Notices: what a run reports of its progress, each with its weight, the part of the program that it
comes from, and its text.
-/
namespace Walkthrough

inductive Weight where
  | debug
  | info
  | warning
  | error
  deriving DecidableEq, Repr

namespace Weight

def text : Weight → String
  | debug => "DEBUG"
  | info => "INFO"
  | warning => "WARNING"
  | error => "ERROR"

end Weight

inductive Notice where
  | waiting (seconds : Float) (query : String)
  | located (query : String) (strategy : Strategy)
  | swapped (tag : String)
  | queryFailed (xpath reason : String)
  | scrollFailed (reason : String)
  | dialogOpened (answer : Answer) (message : String)
  | dialogUnanswered (reason : String)
  | launched (browser : String) (headless : Bool)
  | conditionFailed (predicate : Command) (failure : Failure)
  | stale (query : String)
  | highlightFailed (failure : Failure)
  | clearFailed (failure : Failure)
  | runStarted (name : String) (statements : Nat)
  | executing (statement : Statement)
  | failed (statement : Statement) (failure : Failure)
  | regionExhausted
  | jumping (handler : Statement)
  | handlerFailed (failure : Failure)
  | tryingAgain (number : Nat)
  | runExitedEarly (name : String) (entries : Nat)
  | runCompleted (name : String)
  | running (script : Path) (name : String)
  | reported (name : String) (page : Path)

namespace Notice

def weight : Notice → Weight
  | queryFailed .. | scrollFailed .. | highlightFailed .. | clearFailed .. => .debug
  | dialogUnanswered .. | runExitedEarly .. => .warning
  | failed .. | handlerFailed .. => .error
  | _ => .info

def channel : Notice → String
  | waiting .. | located .. | swapped .. => "plainstep.locate"
  | queryFailed .. | scrollFailed .. | dialogOpened .. | dialogUnanswered .. | launched .. =>
    "plainstep.browser"
  | running .. => "plainstep"
  | _ => "plainstep.run"

def text : Notice → Text.Units
  | waiting seconds query =>
    "Waiting " ++ Decimal.plainLayout.write seconds ++ "s for \"" ++ query ++ "\" to appear."
  | located query strategy => "Located \"" ++ query ++ "\" by " ++ strategy.display ++ "."
  | swapped tag => "Swapped <" ++ tag ++ "> for its associated form control."
  | queryFailed xpath reason => "Query " ++ xpath ++ " failed: " ++ reason
  | scrollFailed reason => "Scroll into view failed: " ++ reason
  | dialogOpened answer message => "Dialog opened (" ++ answer.text ++ "): " ++ message
  | dialogUnanswered reason => "Could not answer dialog: " ++ reason
  | launched browser headless =>
    "Launched " ++ browser ++ " (headless=" ++ (if headless then "True" else "False") ++ ")."
  | conditionFailed predicate failure =>
    "Condition `" ++ predicate.display ++ "` failed, skipping body: " ++ failure.message
  | stale query => "Located element went stale, locating \"" ++ query ++ "\" again."
  | highlightFailed failure => "Highlight failed: " ++ failure.message
  | clearFailed failure => "Clearing before typing failed: " ++ failure.message
  | runStarted name statements =>
    "Starting run " ++ name ++ " (" ++ toString statements ++ " statements)."
  | executing statement => "Executing: " ++ statement.display
  | failed statement failure => "Failed: " ++ statement.display ++ " (" ++ failure.message ++ ")"
  | regionExhausted => "Region already retried once, halting."
  | jumping handler => "Jumping to line " ++ toString handler.line ++ ": " ++ handler.display
  | handlerFailed failure => "Catch-error block failed: " ++ failure.message
  | tryingAgain number => "Trying again from statement " ++ toString number ++ "."
  | runExitedEarly name entries =>
    "Run " ++ name ++ " exited early after " ++ toString entries ++ " statements."
  | runCompleted name => "Run " ++ name ++ " completed."
  | running script name => "Running " ++ script.text ++ (" as " ++ name)
  | reported name page => "Report for " ++ name ++ " written to " ++ page.text

end Notice
end Walkthrough
