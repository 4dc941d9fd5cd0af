import Walkthrough.Run.Basic

/-!
The record of a run: one entry for each statement that was passed, and whether the run went through.
-/
namespace Walkthrough

structure Moment where
  year : Nat
  month : Nat
  day : Nat
  hour : Nat
  minute : Nat
  second : Nat
  microsecond : Nat := 0
  deriving DecidableEq, Repr

structure RecordEntry where
  text : String
  error : Option String := none
  screenshots : List Screenshot := []

structure RunRecord where
  name : String
  startedAt : Moment
  entries : List RecordEntry := []
  exitedEarly : Bool := false

namespace RunRecord

def failures (r : RunRecord) : List RecordEntry := r.entries.filter (·.error.isSome)

def screenshots (r : RunRecord) : List Screenshot := r.entries.flatMap (·.screenshots)

end RunRecord
end Walkthrough
