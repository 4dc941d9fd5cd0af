import Walkthrough.Fault
import Walkthrough.Locate.Resolve
import Walkthrough.Run.Variables

/-!
What a run works with. Its memory holds the variables, the row of the table it runs for, the elements
it has located and used, and the screenshots not yet handed over; together with the session it makes
the state of the run. The set-up stays the same throughout.
-/
namespace Walkthrough

structure Screenshot where
  identifier : String
  png : ByteArray

/-- An element with the description that located it, by which it can be found again. -/
structure Located (η : Type) where
  element : η
  query : String

structure Memory (η : Type) where
  row : Bindings := []
  bindings : Bindings := []
  located : Option (Located η) := none
  active : Option η := none
  /-- Where elements are searched first, while a statement confines the search. -/
  scope : Option η := none
  retryRequested : Bool := false
  screenshots : List Screenshot := []
  screenshotCount : Nat := 0

namespace Memory

variable {η : Type}

/-- Variables hide the row's values of the same name. -/
def lookup (m : Memory η) (name : String) : Option String :=
  (m.bindings.lookup name).or (m.row.lookup name)

def fillIn (m : Memory η) (text : String) : String := interpolate m.lookup text

def valueOf (m : Memory η) : Param → Except Failure String
  | .quoted text => .ok (m.fillIn text)
  | .number digits => .ok digits
  | .named name =>
    match m.lookup name with
    | some value => .ok value
    | none => .error (.undefined name)

def setVariable (m : Memory η) (name value : String) : Memory η :=
  { m with bindings := m.bindings.set name value }

def addScreenshot (m : Memory η) (runName : String) (png : ByteArray) : Memory η :=
  let number := m.screenshotCount + 1
  let identifier := runName ++ "_screenshot_" ++ toString number ++ ".png"
  { m with
    screenshotCount := number
    screenshots := m.screenshots ++ [⟨identifier, png⟩] }

def takeScreenshots (m : Memory η) : List Screenshot × Memory η :=
  (m.screenshots, { m with screenshots := [] })

end Memory

structure RunState (σ η ν : Type) where
  session : Session σ ν
  memory : Memory η := {}

structure Setup (σ η ν : Type) where
  locator : Locator σ η ν
  runName : String := "run"
  commandDelay : Float := 0
  demo : Bool := false
  /-- The full path that an upload's path means, and whether there is a file. -/
  uploadPath : String → Except Fault (String × Bool)

/-- How a run goes: by its statements, by a handler that may ask for another try, or no further. -/
inductive Phase where
  | running
  | awaitingRetry
  | halted
  deriving DecidableEq, Repr

abbrev RunM (σ η ν : Type) := EStateM Stop (RunState σ η ν)

namespace RunM

variable {σ η ν α : Type}

def onSession (x : SessionM σ ν α) : RunM σ η ν α := fun s =>
  match x s.session with
  | .ok a session => .ok a { s with session }
  | .error stop session => .error stop { s with session }

instance : MonadLift (SessionM σ ν) (RunM σ η ν) := ⟨onSession⟩

def note (n : Notice) : RunM σ η ν Unit := onSession (Session.note n)

def takeDialog (wanted : Answer) : RunM σ η ν Unit := onSession (Session.takeDialog wanted)

def fail (failure : Failure) : RunM σ η ν α := throw (.failure failure)

def memory : RunM σ η ν (Memory η) := do return (← get).memory

def setMemory (f : Memory η → Memory η) : RunM σ η ν Unit :=
  modify fun s => { s with memory := f s.memory }

def andFinally (x : RunM σ η ν α) (change : RunState σ η ν → RunState σ η ν) : RunM σ η ν α :=
  fun s =>
    match x s with
    | .ok a s => .ok a (change s)
    | .error stop s => .error stop (change s)

def attempt (x : RunM σ η ν α) : RunM σ η ν (Except Failure α) := fun s =>
  match x s with
  | .ok a s => .ok (.ok a) s
  | .error (.failure failure) s => .ok (.error failure) s
  | .error (.fault fault) s => .error (.fault fault) s

end RunM
end Walkthrough
