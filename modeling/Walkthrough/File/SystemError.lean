import Walkthrough.Text.Quoted

/-!
Errors of the file system, as the system words them.
-/
namespace Walkthrough

inductive ErrorNumber where
  | noEntry
  | busy
  | fileExists
  | notDirectory
  | isDirectory
  | nameTooLong
  deriving DecidableEq, Repr

namespace ErrorNumber

def code : ErrorNumber → Nat
  | noEntry => 2
  | busy => 16
  | fileExists => 17
  | notDirectory => 20
  | isDirectory => 21
  | nameTooLong => 36

def text : ErrorNumber → String
  | noEntry => "No such file or directory"
  | busy => "Device or resource busy"
  | fileExists => "File exists"
  | notDirectory => "Not a directory"
  | isDirectory => "Is a directory"
  | nameTooLong => "File name too long"

end ErrorNumber

/-- An error with the path that the system was asked for, and for a replacement the path replaced. -/
structure SystemError where
  number : ErrorNumber
  path : Text.Units
  replaced : Option Text.Units := none
  deriving DecidableEq, Repr

def SystemError.message (e : SystemError) : String :=
  "[Errno " ++ toString e.number.code ++ "] " ++ e.number.text ++ ": " ++ Text.quotedSymbols e.path.symbols ++
    match e.replaced with
    | none => ""
    | some target => " -> " ++ Text.quotedSymbols target.symbols

end Walkthrough
