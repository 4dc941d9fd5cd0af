import Walkthrough.Decimal.Numeral

/-!
Pauses. A script states its pauses in seconds, finite and not negative. The clock of the system counts
the nanoseconds of a pause in 64 bits, so it does not make every pause that a script can state.
-/
namespace Walkthrough

def pauseSeconds? (raw : String) : Option Float :=
  match Decimal.Numeral.float? (Text.trim raw.toList) with
  | none => none
  | some seconds =>
    if !seconds.isFinite || seconds < 0 then none else some seconds

inductive PauseFault where
  | tooLong
  | noLength
  deriving DecidableEq, Repr

/-- As many nanoseconds, and more, are beyond the clock of the system. -/
def clockBound : Float := 9223372036854775808

def PauseFault.ofSeconds? (seconds : Float) : Option PauseFault :=
  let nanoseconds := seconds * 1000000000
  if seconds.isNaN then some .noLength
  else if nanoseconds < -clockBound || clockBound ≤ nanoseconds then some .tooLong
  else if seconds < 0 then some .noLength
  else none

end Walkthrough
