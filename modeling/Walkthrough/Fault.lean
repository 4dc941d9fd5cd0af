import Walkthrough.File.SystemError
import Walkthrough.Page.Pause
import Walkthrough.Session.Failure

/-!
Faults: what ends the program at once, whether or not a script is being run. A statement stops either
by a failure, which the script can handle, or by a fault.
-/
namespace Walkthrough

inductive Fault where
  | undecodable
  /-- A text that should name a file cannot: a surrogate stands alone in it and spells no octet. -/
  | unencodable
  /-- A number is too large for a double, or a pause for the clock, or an infinity was asked for its whole
  part. -/
  | overflow
  /-- A value has no meaning where it stands: a numeral that is too long, a null character in a path,
  a path without a name. -/
  | invalidValue
  /-- A path was to be used for which only two dashes were given. -/
  | pathMissing
  /-- A browser was to be launched for which only two dashes were given. -/
  | browserMissing
  | noHome
  | endOfInput
  /-- Lists and objects, or directories to be made, stand in one another too deeply. -/
  | tooDeep
  | system (e : SystemError)
  deriving DecidableEq, Repr

def PauseFault.fault : PauseFault → Fault
  | tooLong => .overflow
  | noLength => .invalidValue

inductive Stop where
  | failure (f : Failure)
  | fault (f : Fault)
  deriving DecidableEq, Repr

end Walkthrough
