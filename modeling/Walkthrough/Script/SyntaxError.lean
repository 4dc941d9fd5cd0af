import Walkthrough.Script.Token

/-!
Why a script is refused: what was expected on which line, and what stood there instead.
-/
namespace Walkthrough

inductive Expectation where
  | closingQuote
  | commandAfterConnective
  | commandAfter (connective : String)
  | command
  | keyword (k : Keyword)
  | quotedValue
  | variableName
  | argument
  | endOfStatement
  /-- Running a region again can only be asked for in its handler. -/
  | handlerForTryAgain
  deriving DecidableEq, Repr

def Expectation.text : Expectation → String
  | closingQuote => "closing `\"`"
  | commandAfterConnective => "a command after a trailing connective"
  | commandAfter connective => "a command after `" ++ connective ++ "`"
  | command => "a command"
  | keyword k => "`" ++ k.text ++ "`"
  | quotedValue => "a quoted value"
  | variableName => "a variable name"
  | argument => "a quoted string, number or variable"
  | endOfStatement => "end of statement"
  | handlerForTryAgain => "`try-again` only inside a catch-error block"

inductive Found where
  | text (source : String)
  | endOfLine
  | endOfScript
  deriving DecidableEq, Repr

def Found.display : Found → String
  | text source => source
  | endOfLine => "end of line"
  | endOfScript => "end of script"

structure SyntaxError where
  line : Int
  expected : Expectation
  found : Found
  deriving DecidableEq, Repr

def SyntaxError.message (e : SyntaxError) : String :=
  s!"Line {e.line}: expected {e.expected.text}, found `" ++ e.found.display ++ "`"

end Walkthrough
